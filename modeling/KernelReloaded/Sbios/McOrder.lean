/-
The memory card calls over whole runs: who holds `lastCmd`, who may change the
shared data, and what callers are told.

A completion handler clears `lastCmd` before it reads `rdata`.  A call that
begins between the two may get its reply before the handler goes on, and then
the first caller is told the result of the second call.  The results here are
about the runs where no reply arrives at such a time.
-/

import KernelReloaded.Sbios.McCalls

namespace KernelReloaded.Mc

open KernelReloaded.Memory

variable {setup : McSetup}

/-! ### What is wanted -/

/-- The stores a caller has asked for with its own arguments. -/
def McCall.delivers (setup : McSetup) (endParameter : Image) :
    McCall → List Store
  | .mcgetinfo _ _ type free format =>
      infoStores setup.mcType type free format endParameter
  | .mcread .. => readStores setup.mcType endParameter
  | _ => []

/-- A call that is over: it has reported the result of its own command once, or
it has returned an error and left no trace. -/
inductive CallState.Settled (setup : McSetup) (call : CallState) : Prop
  | kept (answer : Reply) :
      call.reply = some answer →
        call.answer = .report answer.result .promise →
          call.stores = call.call.delivers setup answer.endParameter →
            call.Settled setup
  | refused (value : Int) :
      value ≠ 0 → call.answer = .refuse value → call.left = call.found →
        call.stores = [] → call.Settled setup

def CallState.Answered (setup : McSetup) (call : CallState) : Prop :=
  match call.phase with
  | .finished => call.Settled setup
  | .sent => call.answer = .promise
  | .replied => call.answer = .promise
  | .copied => call.answer = .promise
  | .cleared => call.answer = .promise
  | _ => call.answer = .open_

/-- The completion of one call without an interruption. -/
def complete (setup : McSetup) (id : Nat) (answer : Reply) (state : McState) :
    Option McState :=
  (mcStep setup state (.reply id answer)).bind fun replied =>
    (mcStep setup replied (.copy id)).bind fun copied =>
      (mcStep setup copied (.clear id)).bind fun cleared =>
        mcStep setup cleared (.endfunc id)

structure McOrderly (setup : McSetup) (state : McState) : Prop where
  exclusive : Exclusive (state.lastCmd ≠ 0) fun id =>
    (state.calls id).Outstanding
  /-- `lastCmd` names the command that is outstanding. -/
  named : ∀ id, (state.calls id).Outstanding →
    state.lastCmd = (state.calls id).call.func
  /-- While a command is outstanding, only its own steps change the shared
  data. -/
  undisturbed : ∀ id, (state.calls id).Outstanding →
    ∀ event next, event.id ≠ some id → mcStep setup state event = some next →
      next.lastCmd = state.lastCmd ∧ next.shared = state.shared ∧
        next.rdata = state.rdata
  answered : ∀ id, (state.calls id).Answered setup
  completes : ∀ id answer, (state.calls id).phase = .sent → ∃ ended,
    complete setup id answer state = some ended ∧
      (ended.calls id).phase = .finished ∧
      (ended.calls id).answer = .report answer.result .promise

/-- The condition: no reply arrives while the handler of another call has
cleared `lastCmd` and not yet read `rdata`. -/
def McMet (state : McState) : Event → Prop
  | .reply id _ =>
      ∀ other < state.made, other ≠ id → (state.calls other).phase ≠ .cleared
  | _ => True

instance (state : McState) (event : Event) : Decidable (McMet state event) :=
  match event with
  | .reply id _ =>
      inferInstanceAs (Decidable (∀ other < state.made, other ≠ id →
        (state.calls other).phase ≠ .cleared))
  | .enter _ => inferInstanceAs (Decidable True)
  | .take _ => inferInstanceAs (Decidable True)
  | .store _ => inferInstanceAs (Decidable True)
  | .send _ _ => inferInstanceAs (Decidable True)
  | .copy _ => inferInstanceAs (Decidable True)
  | .clear _ => inferInstanceAs (Decidable True)
  | .endfunc _ => inferInstanceAs (Decidable True)

/-! ### Arguments -/

theorem McCall.func_ne_zero (call : McCall) : call.func ≠ 0 := by
  cases call <;> exact nofun

theorem infoWords_twice (port slot : Int) (type free format : Nat)
    (words : Nat → Int) :
    infoWords setup port slot type free format
        (infoWords setup port slot type free format words) =
      infoWords setup port slot type free format words := by
  funext index
  unfold infoWords
  split_ifs <;> rfl

theorem storeBytes_twice (count : Int) (bytes data : Nat → Byte) :
    storeBytes count bytes (storeBytes count bytes data) =
      storeBytes count bytes data := by
  funext index
  unfold storeBytes
  split_ifs <;> rfl

theorem storeWrite_twice (fd : Int) (buf size : Nat) (bytes : Nat → Byte)
    (fileCmd : McFileCmd) :
    storeWrite fd buf size bytes (storeWrite fd buf size bytes fileCmd) =
      storeWrite fd buf size bytes fileCmd := by
  unfold storeWrite
  split_ifs
  all_goals
    dsimp only
    rw [storeBytes_twice]

theorem storeNewname_twice (newname : CText.Text) (info : Nat → Byte) :
    storeNewname newname (storeNewname newname info) =
      storeNewname newname info := by
  funext index
  unfold storeNewname
  split_ifs <;> rfl

/-- To store the arguments of a call again changes nothing: this is what it
means that they stand there. -/
theorem McCall.store_twice (call : McCall) (shared : Shared) :
    call.store setup (call.store setup shared) = call.store setup shared := by
  cases call with
  | mcgetinfo port slot type free format =>
      rw [McCall.store, McCall.store, infoWords_twice]
  | mcwrite fd buf size bytes =>
      rw [McCall.store, McCall.store, storeWrite_twice]
  | mcsetfileinfo port slot name dirent modes =>
      rw [McCall.store, McCall.store, storeBytes_twice]
  | mcrename port slot origname newname =>
      rw [McCall.store, McCall.store, storeNewname_twice]
  | _ => rfl

/-- With the arguments of a call in place, its handler stores what the caller
has asked for. -/
theorem McCall.handlerStores_of_stored {call : McCall} {shared : Shared}
    (stored : call.store setup shared = shared) (endParameter : Image) :
    call.handlerStores setup shared endParameter =
      call.delivers setup endParameter := by
  cases call with
  | mcgetinfo port slot type free format =>
      have typeAddr := congrArg Shared.typeAddr stored
      have freeAddr := congrArg Shared.freeAddr stored
      have formatAddr := congrArg Shared.formatAddr stored
      rw [McCall.handlerStores, ← typeAddr, ← freeAddr, ← formatAddr]
      rfl
  | _ => rfl

/-! ### The invariant -/

/-- What stands in the shared data for a call. -/
def CallState.Kept (setup : McSetup) (state : McState) (call : CallState) :
    Prop :=
  match call.phase with
  | .idle => True
  | .entered => call.stores = []
  | .taken => call.found = 0 ∧ call.stores = []
  | .stored =>
      (call.found = 0 ∧ call.stores = []) ∧
        call.call.store setup state.shared = state.shared
  | .sent => call.call.store setup state.shared = state.shared
  | .replied =>
      call.call.store setup state.shared = state.shared ∧
        ∃ answer, call.reply = some answer ∧ state.rdata = answer.result ∧
          state.endParameter = answer.endParameter
  | .copied =>
      ∃ answer, call.reply = some answer ∧ state.rdata = answer.result ∧
        call.stores = call.call.delivers setup answer.endParameter
  | .cleared =>
      ∃ answer, call.reply = some answer ∧ state.rdata = answer.result ∧
        call.stores = call.call.delivers setup answer.endParameter
  | .finished => True

structure McInv (setup : McSetup) (state : McState) : Prop where
  exclusive : Exclusive (state.lastCmd ≠ 0) fun id =>
    (state.calls id).Outstanding
  named : ∀ id, (state.calls id).Outstanding →
    state.lastCmd = (state.calls id).call.func
  answered : ∀ id, (state.calls id).Answered setup
  kept : ∀ id, (state.calls id).Kept setup state
  fresh : ∀ id, state.made ≤ id → (state.calls id).phase = .idle

theorem mcInv_initial (setup : McSetup) :
    McInv setup (mcMachine setup).initial where
  exclusive := by
    apply Exclusive.empty
    · intro isSet
      exact isSet rfl
    · intro id outstanding
      cases outstanding
  named := by
    intro id outstanding
    cases outstanding
  answered := fun _ => rfl
  kept := fun _ => trivial
  fresh := fun _ _ => rfl

section Steps

variable {state next : McState} {id : Nat} {call : CallState}

theorem McInv.begun (inv : McInv setup state)
    (notIdle : (state.calls id).phase ≠ .idle) : id < state.made := by
  by_contra notMade
  exact notIdle (inv.fresh id (by omega))

theorem notIdle_of_outstanding (outstanding : (state.calls id).Outstanding) :
    (state.calls id).phase ≠ .idle := by
  intro idle
  rw [CallState.Outstanding, idle] at outstanding
  cases outstanding

theorem outstanding_of_phase {phase : Phase}
    (isPhase : (state.calls id).phase = phase)
    (outstanding : phase.outstanding = true) :
    (state.calls id).Outstanding := by
  rw [CallState.Outstanding, isPhase]
  exact outstanding

/-- What a call relies on survives a step that keeps the shared data, as far as
the call still needs it. -/
theorem CallState.Kept.transfer (kept : call.Kept setup state)
    (same : call.Outstanding →
      next.shared = state.shared ∧ next.rdata = state.rdata ∧
        next.endParameter = state.endParameter)
    (unread : call.phase = .cleared → next.rdata = state.rdata) :
    call.Kept setup next := by
  rw [CallState.Outstanding] at same
  rw [CallState.Kept] at kept ⊢
  cases phase : call.phase <;> rw [phase] at kept same unread
  case idle => trivial
  case finished => trivial
  case entered => exact kept
  case taken => exact kept
  case cleared =>
      rw [unread rfl]
      exact kept
  all_goals
    obtain ⟨shared, rdata, endParameter⟩ := same rfl
    first
    | rw [shared]
      exact kept
    | rw [rdata]
      exact kept
    | rw [shared, rdata, endParameter]
      exact kept

/-- One call is replaced.  The others keep what they rely on. -/
theorem McInv.replace (inv : McInv setup state) (begun : id < state.made)
    (calls : next.calls = Function.update state.calls id call)
    (made : next.made = state.made)
    (exclusive : Exclusive (next.lastCmd ≠ 0) fun other =>
      (Function.update state.calls id call other).Outstanding)
    (named : call.Outstanding → next.lastCmd = call.call.func)
    (answered : call.Answered setup) (kept : call.Kept setup next)
    (others : ∀ other, other ≠ id →
      (state.calls other).Outstanding →
        next.lastCmd = state.lastCmd ∧ next.shared = state.shared ∧
          next.rdata = state.rdata ∧ next.endParameter = state.endParameter)
    (unread : ∀ other, other ≠ id → (state.calls other).phase = .cleared →
      next.rdata = state.rdata) : McInv setup next where
  exclusive := by
    rw [calls]
    exact exclusive
  named := by
    rw [calls]
    apply (Function.forall_update_iff state.calls fun _ other =>
      other.Outstanding → next.lastCmd = other.call.func).mpr
    refine ⟨named, fun other isOther outstanding => ?_⟩
    rw [(others other isOther outstanding).1]
    exact inv.named other outstanding
  answered := by
    rw [calls]
    apply (Function.forall_update_iff state.calls fun _ other =>
      other.Answered setup).mpr
    exact ⟨answered, fun other _ => inv.answered other⟩
  kept := by
    rw [calls]
    apply (Function.forall_update_iff state.calls fun _ other =>
      other.Kept setup next).mpr
    refine ⟨kept, fun other isOther => ?_⟩
    exact (inv.kept other).transfer
      (fun outstanding => (others other isOther outstanding).2)
      (unread other isOther)
  fresh := by
    intro other notMade
    have isOther : other ≠ id := by omega
    rw [calls, Function.update_of_ne isOther]
    exact inv.fresh other (by omega)

/-- The holder of `lastCmd` goes on. -/
theorem McInv.holderStep (inv : McInv setup state)
    (outstanding : (state.calls id).Outstanding)
    (calls : next.calls = Function.update state.calls id call)
    (made : next.made = state.made) (sameCmd : next.lastCmd = state.lastCmd)
    (stays : call.Outstanding)
    (sameCall : call.call = (state.calls id).call)
    (answered : call.Answered setup) (kept : call.Kept setup next)
    (unread : ∀ other, other ≠ id → (state.calls other).phase = .cleared →
      next.rdata = state.rdata) : McInv setup next := by
  have begun := inv.begun (notIdle_of_outstanding outstanding)
  have exclusive : Exclusive (next.lastCmd ≠ 0) fun other =>
      (Function.update state.calls id call other).Outstanding :=
    inv.exclusive.keep (iff_of_true stays outstanding) (by rw [sameCmd])
  refine inv.replace begun calls made exclusive ?_ answered kept ?_ unread
  · intro _
    rw [sameCmd, sameCall]
    exact inv.named id outstanding
  · intro other isOther otherOutstanding
    exact (isOther (inv.exclusive.unique other id otherOutstanding
      outstanding)).elim

/-- The holder gives `lastCmd` back. -/
theorem McInv.giveBack (inv : McInv setup state)
    (outstanding : (state.calls id).Outstanding)
    (ends : call.phase.outstanding = false) (answered : call.Answered setup)
    (kept : call.Kept setup state) :
    McInv setup ({ state with lastCmd := 0 }.setCall id call) := by
  have begun := inv.begun (notIdle_of_outstanding outstanding)
  have notOutstanding : ¬ call.Outstanding := by
    intro stays
    rw [CallState.Outstanding, ends] at stays
    cases stays
  have exclusive : Exclusive ((0 : Nat) ≠ 0) fun other =>
      (Function.update state.calls id call other).Outstanding :=
    inv.exclusive.release outstanding notOutstanding fun isSet => isSet rfl
  refine inv.replace begun rfl rfl exclusive ?_ answered ?_ ?_ ?_
  · intro stays
    exact (notOutstanding stays).elim
  · exact kept.transfer (fun _ => ⟨rfl, rfl, rfl⟩) (fun _ => rfl)
  · intro other isOther otherOutstanding
    exact (isOther (inv.exclusive.unique other id otherOutstanding
      outstanding)).elim
  · intro _ _ _
    rfl

/-- A call that does not hold `lastCmd` goes on without it. -/
theorem McInv.setCall (inv : McInv setup state) (begun : id < state.made)
    (before : (state.calls id).phase.outstanding = false)
    (after : call.phase.outstanding = false) (answered : call.Answered setup)
    (kept : call.Kept setup state) : McInv setup (state.setCall id call) := by
  have same : call.Outstanding ↔ (state.calls id).Outstanding := by
    rw [CallState.Outstanding, CallState.Outstanding, before, after]
  have exclusive : Exclusive (state.lastCmd ≠ 0) fun other =>
      (Function.update state.calls id call other).Outstanding :=
    inv.exclusive.keep same Iff.rfl
  refine inv.replace begun rfl rfl exclusive ?_ answered ?_ ?_ ?_
  · intro stays
    rw [CallState.Outstanding, after] at stays
    cases stays
  · exact kept.transfer (fun _ => ⟨rfl, rfl, rfl⟩) (fun _ => rfl)
  · intro _ _ _
    exact ⟨rfl, rfl, rfl, rfl⟩
  · intro _ _ _
    rfl

theorem McInv.newCall (inv : McInv setup state)
    (outside : call.phase.outstanding = false) (answered : call.Answered setup)
    (kept : call.Kept setup state) :
    McInv setup ({ state with made := state.made + 1 }.setCall state.made call) := by
  have more : McInv setup { state with made := state.made + 1 } :=
    { exclusive := inv.exclusive
      named := inv.named
      answered := inv.answered
      kept := inv.kept
      fresh := fun id notMade => inv.fresh id (Nat.le_of_succ_le notMade) }
  have idle : (state.calls state.made).phase.outstanding = false := by
    rw [inv.fresh state.made (Nat.le_refl _)]
    rfl
  exact more.setCall (Nat.lt_succ_self _) idle outside answered kept

/-! ### The steps -/

theorem enter_inv (inv : McInv setup state) (call : McCall) :
    McInv setup (enter call state) := by
  by_cases initialized : state.mcInitializeCounter = mcInitialized
  · simp only [enter, if_pos initialized]
    exact inv.newCall rfl rfl rfl
  · simp only [enter, if_neg initialized]
    exact inv.newCall rfl (.refused (-1) (by decide) rfl rfl rfl) trivial

theorem take_inv (inv : McInv setup state)
    (entered : (state.calls id).phase = .entered) :
    McInv setup (take id state) := by
  have notIdle : (state.calls id).phase ≠ .idle := by
    rw [entered]
    exact nofun
  have begun := inv.begun notIdle
  have outside : (state.calls id).phase.outstanding = false := by
    rw [entered]
    rfl
  have waiting := inv.answered id
  rw [CallState.Answered, entered] at waiting
  have noStores := inv.kept id
  rw [CallState.Kept, entered] at noStores
  rw [take]
  split <;> rename_i isSet
  · exact inv.setCall begun outside rfl
      (.refused _ (by decide) rfl rfl noStores) trivial
  · have exclusive : Exclusive ((state.calls id).call.func ≠ 0) fun other =>
        (Function.update state.calls id
          { state.calls id with
            phase := .taken, found := state.lastCmd } other).Outstanding :=
      inv.exclusive.acquire isSet rfl (McCall.func_ne_zero _)
    refine inv.replace begun rfl rfl exclusive (fun _ => rfl) waiting
      ⟨not_not.mp isSet, noStores⟩ ?_ (fun _ _ _ => rfl)
    intro other _ outstanding
    exact (inv.exclusive.nobody isSet other outstanding).elim

theorem store_inv (inv : McInv setup state)
    (taken : (state.calls id).phase = .taken) :
    McInv setup (store setup id state) := by
  have outstanding := outstanding_of_phase taken rfl
  have waiting := inv.answered id
  rw [CallState.Answered, taken] at waiting
  have noStores := inv.kept id
  rw [CallState.Kept, taken] at noStores
  exact inv.holderStep outstanding rfl rfl rfl rfl rfl waiting
    ⟨noStores, McCall.store_twice _ _⟩ (fun _ _ _ => rfl)

theorem send_inv (inv : McInv setup state)
    (stored : (state.calls id).phase = .stored) (success : Bool) :
    McInv setup (send id success state) := by
  have outstanding := outstanding_of_phase stored rfl
  have kept := inv.kept id
  rw [CallState.Kept, stored] at kept
  cases success with
  | true =>
      exact inv.holderStep outstanding rfl rfl rfl rfl rfl rfl kept.2
        (fun _ _ _ => rfl)
  | false =>
      obtain ⟨⟨free, noStores⟩, -⟩ := kept
      exact inv.giveBack outstanding rfl
        (.refused _ (by decide) rfl free.symm noStores) trivial

theorem reply_inv (inv : McInv setup state)
    (sent : (state.calls id).phase = .sent) (answer : Reply)
    (met : McMet state (.reply id answer)) :
    McInv setup (reply id answer state) := by
  have outstanding := outstanding_of_phase sent rfl
  have promised := inv.answered id
  rw [CallState.Answered, sent] at promised
  have stored := inv.kept id
  rw [CallState.Kept, sent] at stored
  refine inv.holderStep outstanding rfl rfl rfl rfl rfl promised
    ⟨stored, answer, rfl, rfl, rfl⟩ ?_
  -- nobody may still have to read the result word
  intro other isOther cleared
  have notIdle : (state.calls other).phase ≠ .idle := by
    rw [cleared]
    exact nofun
  exact (met other (inv.begun notIdle) isOther cleared).elim

theorem copy_inv (inv : McInv setup state)
    (replied : (state.calls id).phase = .replied) :
    McInv setup (copy setup id state) := by
  have outstanding := outstanding_of_phase replied rfl
  have promised := inv.answered id
  rw [CallState.Answered, replied] at promised
  have kept := inv.kept id
  rw [CallState.Kept, replied] at kept
  obtain ⟨stored, answer, isAnswer, result, endParameter⟩ := kept
  have own : (state.calls id).call.handlerStores setup state.shared
      state.endParameter =
        (state.calls id).call.delivers setup answer.endParameter := by
    rw [McCall.handlerStores_of_stored stored, endParameter]
  exact inv.holderStep outstanding rfl rfl rfl rfl rfl promised
    ⟨answer, isAnswer, result, own⟩ (fun _ _ _ => rfl)

theorem clear_inv (inv : McInv setup state)
    (copied : (state.calls id).phase = .copied) :
    McInv setup (clear id state) := by
  have outstanding := outstanding_of_phase copied rfl
  have promised := inv.answered id
  rw [CallState.Answered, copied] at promised
  have kept := inv.kept id
  rw [CallState.Kept, copied] at kept
  exact inv.giveBack outstanding rfl promised kept

theorem endfunc_inv (inv : McInv setup state)
    (cleared : (state.calls id).phase = .cleared) :
    McInv setup (endfunc id state) := by
  have notIdle : (state.calls id).phase ≠ .idle := by
    rw [cleared]
    exact nofun
  have outside : (state.calls id).phase.outstanding = false := by
    rw [cleared]
    rfl
  have promised := inv.answered id
  rw [CallState.Answered, cleared] at promised
  have kept := inv.kept id
  rw [CallState.Kept, cleared] at kept
  obtain ⟨answer, isAnswer, result, own⟩ := kept
  have reported : (state.calls id).answer.report state.rdata =
      .report answer.result .promise := by
    rw [promised, result]
  exact inv.setCall (inv.begun notIdle) outside rfl
    (.kept answer isAnswer reported own) trivial

theorem inPhase_eq_some {phase : Phase} {next stepped : McState}
    (isNext : state.inPhase id phase stepped = some next) :
    (state.calls id).phase = phase ∧ stepped = next := by
  obtain ⟨inPhase, isStepped⟩ := Option.ite_none_right_eq_some.mp isNext
  exact ⟨inPhase, Option.some.inj isStepped⟩

theorem mcStep_inv {event : Event} (inv : McInv setup state)
    (met : McMet state event) (stepped : mcStep setup state event = some next) :
    McInv setup next := by
  cases event with
  | enter call =>
      cases stepped
      exact enter_inv inv call
  | take id =>
      obtain ⟨entered, rfl⟩ := inPhase_eq_some stepped
      exact take_inv inv entered
  | store id =>
      obtain ⟨taken, rfl⟩ := inPhase_eq_some stepped
      exact store_inv inv taken
  | send id success =>
      obtain ⟨stored, rfl⟩ := inPhase_eq_some stepped
      exact send_inv inv stored success
  | reply id answer =>
      obtain ⟨sent, rfl⟩ := inPhase_eq_some stepped
      exact reply_inv inv sent answer met
  | copy id =>
      obtain ⟨replied, rfl⟩ := inPhase_eq_some stepped
      exact copy_inv inv replied
  | clear id =>
      obtain ⟨copied, rfl⟩ := inPhase_eq_some stepped
      exact clear_inv inv copied
  | endfunc id =>
      obtain ⟨cleared, rfl⟩ := inPhase_eq_some stepped
      exact endfunc_inv inv cleared

/-! ### Other calls -/

theorem McInv.undisturbed (inv : McInv setup state)
    (outstanding : (state.calls id).Outstanding) {event : Event}
    (isOther : event.id ≠ some id)
    (stepped : mcStep setup state event = some next) :
    next.lastCmd = state.lastCmd ∧ next.shared = state.shared ∧
      next.rdata = state.rdata := by
  -- a second holder would have to be the same call
  have onlyOne {other : Nat} {phase : Phase} {goal : Prop}
      (different : some other ≠ some id)
      (inPhase : (state.calls other).phase = phase)
      (holds : phase.outstanding = true) : goal := by
    have same := inv.exclusive.unique other id
      (outstanding_of_phase inPhase holds) outstanding
    exact (different (congrArg some same)).elim
  cases event with
  | enter call =>
      cases stepped
      exact ⟨rfl, rfl, rfl⟩
  | take other =>
      obtain ⟨-, rfl⟩ := inPhase_eq_some stepped
      have isSet : state.lastCmd ≠ 0 := inv.exclusive.held.mpr ⟨id, outstanding⟩
      rw [take, if_pos isSet]
      exact ⟨rfl, rfl, rfl⟩
  | store other =>
      obtain ⟨taken, -⟩ := inPhase_eq_some stepped
      exact onlyOne isOther taken rfl
  | send other success =>
      obtain ⟨stored, -⟩ := inPhase_eq_some stepped
      exact onlyOne isOther stored rfl
  | reply other answer =>
      obtain ⟨sent, -⟩ := inPhase_eq_some stepped
      exact onlyOne isOther sent rfl
  | copy other =>
      obtain ⟨replied, -⟩ := inPhase_eq_some stepped
      exact onlyOne isOther replied rfl
  | clear other =>
      obtain ⟨copied, -⟩ := inPhase_eq_some stepped
      exact onlyOne isOther copied rfl
  | endfunc other =>
      obtain ⟨-, rfl⟩ := inPhase_eq_some stepped
      exact ⟨rfl, rfl, rfl⟩

/-! ### Completions and runs -/

theorem inPhase_of_phase {phase : Phase}
    (isPhase : (state.calls id).phase = phase) (stepped : McState) :
    state.inPhase id phase stepped = some stepped := if_pos isPhase

theorem setCall_calls (state : McState) (id : Nat) (call : CallState) :
    (state.setCall id call).calls id = call := Function.update_self ..

theorem complete_reports (sent : (state.calls id).phase = .sent)
    (promised : (state.calls id).answer = .promise) (answer : Reply) :
    ∃ ended, complete setup id answer state = some ended ∧
      (ended.calls id).phase = .finished ∧
      (ended.calls id).answer = .report answer.result .promise := by
  have replied : (reply id answer state).calls id =
      { state.calls id with phase := .replied, reply := some answer } :=
    setCall_calls ..
  generalize afterReply : reply id answer state = first at replied
  have copied : (copy setup id first).calls id =
      { first.calls id with
        phase := .copied
        stores := (first.calls id).call.handlerStores setup first.shared
          first.endParameter } := setCall_calls ..
  generalize afterCopy : copy setup id first = second at copied
  have cleared : (clear id second).calls id =
      { second.calls id with phase := .cleared } := setCall_calls ..
  generalize afterClear : clear id second = third at cleared
  have ended : (endfunc id third).calls id =
      { third.calls id with
        phase := .finished
        answer := (third.calls id).answer.report third.rdata } :=
    setCall_calls ..
  have rdata : third.rdata = answer.result := by
    rw [← afterClear, ← afterCopy, ← afterReply]
    rfl
  refine ⟨endfunc id third, ?_, ?_, ?_⟩
  · rw [complete, mcStep, inPhase_of_phase sent, Option.bind_some, afterReply,
      mcStep, inPhase_of_phase (congrArg CallState.phase replied),
      Option.bind_some, afterCopy, mcStep,
      inPhase_of_phase (congrArg CallState.phase copied), Option.bind_some,
      afterClear, mcStep, inPhase_of_phase (congrArg CallState.phase cleared)]
  · rw [ended]
  · rw [ended, cleared, copied, replied, rdata, promised]

theorem mcInv_reached (reached : (mcMachine setup).Reach McMet state) :
    McInv setup state :=
  reached.invariant (mcInv_initial setup)
    fun _ _ _ inv met stepped => mcStep_inv inv met stepped

end Steps

/-- Every run that meets the condition has one command at a time, leaves its
data alone until it ends, and tells every caller its own result. -/
theorem mc_orderly (setup : McSetup) {state : McState}
    (reached : (mcMachine setup).Reach McMet state) : McOrderly setup state := by
  have inv := mcInv_reached reached
  exact
    { exclusive := inv.exclusive
      named := inv.named
      undisturbed := fun id outstanding event next isOther stepped =>
        inv.undisturbed outstanding isOther stepped
      answered := inv.answered
      completes := by
        intro id answer sent
        have promised := inv.answered id
        rw [CallState.Answered, sent] at promised
        exact complete_reports sent promised answer }

def oldModules : McSetup where
  mcType := .mc
  endParameter := 0
  buffFileInfo := 0

/-- A call up to the time when its handler has cleared `lastCmd`. -/
def upToClear (id : Nat) (call : McCall) (result : Int) : List Event :=
  [.enter call, .take id, .store id, .send id true,
    .reply id { result := result, endParameter := fun _ => 0 }, .copy id,
    .clear id]

/-- A call that is completed, one that cannot be sent, one that is outstanding
and one that is refused. -/
theorem mc_orderly_calls : ∃ state,
    (((state.calls 0).answer = .report 5 .promise ∧
        (state.calls 1).answer = .refuse (-sifRpceSendp)) ∧
      (state.calls 2).phase = .sent ∧
      (state.calls 3).answer = .refuse (-sifRpceSendp)) ∧
    (mcMachine oldModules).Reach McMet state ∧ McOrderly oldModules state := by
  have followed : ((mcMachine oldModules).follow McMet
      (upToClear 0 (.mcclose 3) 5 ++
        [.endfunc 0, .enter (.mcflush 3), .take 1, .store 1, .send 1 false,
          .enter (.mcseek 3 8 0), .take 2, .store 2, .send 2 true,
          .enter (.mcformat 0 0), .take 3])
      (mcMachine oldModules).initial).map
        (fun state => decide (((state.calls 0).answer = .report 5 .promise ∧
          (state.calls 1).answer = .refuse (-sifRpceSendp)) ∧
          (state.calls 2).phase = .sent ∧
          (state.calls 3).answer = .refuse (-sifRpceSendp))) = some true := by
    decide +kernel
  obtain ⟨state, isState, seen⟩ := Option.map_eq_some_iff.mp followed
  have reached := Machine.Reach.initial.follow _ isState
  exact ⟨state, of_decide_eq_true seen, reached, mc_orderly _ reached⟩

/-- The reply of a second call overtakes the handler of the first one, whose
caller is told 7 for a command that returned 5. -/
theorem mcCallback_reads_late : ∃ state,
    (mcMachine oldModules).Reach (fun _ _ => True) state ∧
      ¬ McOrderly oldModules state := by
  have followed : ((mcMachine oldModules).follow (fun _ _ => True)
      (upToClear 0 (.mcclose 3) 5 ++
        [.enter (.mcflush 3), .take 1, .store 1, .send 1 true,
          .reply 1 { result := 7, endParameter := fun _ => 0 }, .endfunc 0])
      (mcMachine oldModules).initial).map
        (fun state => decide ((state.calls 0).phase = .finished ∧
          (state.calls 0).answer = .report 7 .promise ∧
          (state.calls 0).reply.map Reply.result = some 5)) = some true := by
    decide +kernel
  obtain ⟨state, isState, seen⟩ := Option.map_eq_some_iff.mp followed
  obtain ⟨finished, told, replied⟩ := of_decide_eq_true seen
  refine ⟨state, Machine.Reach.initial.follow _ isState, fun orderly => ?_⟩
  have settled := orderly.answered 0
  rw [CallState.Answered, finished] at settled
  cases settled with
  | kept answer isAnswer reported =>
      rw [isAnswer] at replied
      have own : answer.result = 5 := Option.some.inj replied
      rw [told, own] at reported
      cases reported
  | refused value isError reported =>
      rw [told] at reported
      cases reported

end KernelReloaded.Mc
