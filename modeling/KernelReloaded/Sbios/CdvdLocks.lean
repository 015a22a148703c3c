/-
Locks, buffers and answers of the CDVD calls over whole runs.

Two slips of the source stand against them.  The completion of an initialisation
call takes the lock to release from the counter at that time, which another
initialisation call may have advanced since the call chose its stage; and
`sbcall_cdvdreset` stores into `initMode` without a lock.  The results here are
about the runs that stay clear of both.
-/

import KernelReloaded.Sbios.CdvdCalls

namespace KernelReloaded.Cdvd

/-! ### What is wanted -/

/-- A call has returned 0 when its RPC is sent and reports its end once; one
that returned another number reports nothing. -/
def CallState.Answered (call : CallState) : Prop :=
  match call.phase with
  | .finished => call.answer.Settled
  | .sent => call.answer = .promise
  | .handled _ _ => call.answer = .promise
  | .released _ => call.answer = .promise
  | _ => call.answer = .open_

structure CdvdOrderly (state : CdvdState) : Prop where
  answered : ∀ id, (state.calls id).Answered
  exclusive : ∀ lock, Exclusive (state.mutex lock = true) fun id =>
    (state.calls id).Holding lock
  released : ∀ release ∈ state.releases,
    release.held = true ∧ release.own = true
  written : ∀ write ∈ state.writes, write.users = []

/-- The counter is at a stage with the lock of the call's own stage. -/
def Work.InStep (counter : Nat) : Work → Prop
  | .init stage => stageLock counter = stageLock stage
  | _ => True

instance (counter : Nat) (work : Work) : Decidable (work.InStep counter) :=
  match work with
  | .init stage =>
      inferInstanceAs (Decidable (stageLock counter = stageLock stage))
  | .immediate => inferInstanceAs (Decidable True)
  | .reset => inferInstanceAs (Decidable True)
  | .ready => inferInstanceAs (Decidable True)
  | .command _ => inferInstanceAs (Decidable True)

/-- No other call's RPC uses `initMode`. -/
def CdvdState.initModeFree (state : CdvdState) (id : Nat) : Prop :=
  ∀ other < state.made, other ≠ id →
    (state.calls other).phase.underWay = true →
      Buffer.initMode ∉ (state.calls other).work.buffers

/-- The conditions: when an initialisation call completes, the counter is at a
stage with the lock the call has taken, and `initMode` is stored only while no
other call's RPC uses it. -/
def CdvdMet (state : CdvdState) : Event → Prop
  | .handle id _ _ => (state.calls id).work.InStep state.cdvdInitCounter
  | .prepare id =>
      Buffer.initMode ∈ (state.calls id).work.buffers → state.initModeFree id
  | _ => True

instance (state : CdvdState) (event : Event) :
    Decidable (CdvdMet state event) :=
  match event with
  | .handle id _ _ =>
      inferInstanceAs (Decidable ((state.calls id).work.InStep
        state.cdvdInitCounter))
  | .prepare id =>
      inferInstanceAs (Decidable
        (Buffer.initMode ∈ (state.calls id).work.buffers →
          ∀ other < state.made, other ≠ id →
            (state.calls other).phase.underWay = true →
              Buffer.initMode ∉ (state.calls other).work.buffers))
  | .enter _ _ => inferInstanceAs (Decidable True)
  | .tryLock _ => inferInstanceAs (Decidable True)
  | .checkStat _ _ => inferInstanceAs (Decidable True)
  | .send _ _ => inferInstanceAs (Decidable True)
  | .release _ => inferInstanceAs (Decidable True)
  | .endfunc _ => inferInstanceAs (Decidable True)

/-! ### The invariant -/

structure CdvdInv (state : CdvdState) : Prop where
  orderly : CdvdOrderly state
  /-- A completion gives back what its call has taken. -/
  handled : ∀ id lock result, (state.calls id).phase = .handled lock result →
    lock = (state.calls id).work.lock
  fresh : ∀ id, state.made ≤ id → (state.calls id).phase = .idle

theorem cdvdInv_initial (newRom : Bool) :
    CdvdInv (cdvdMachine newRom).initial where
  orderly :=
    { answered := fun _ => rfl
      exclusive := by
        intro lock
        apply Exclusive.empty
        · intro isSet
          cases isSet
        · intro id holding
          cases holding.1
      released := by
        intro release impossible
        cases impossible
      written := by
        intro write impossible
        cases impossible }
  handled := by
    intro id lock result impossible
    cases impossible
  fresh := fun _ _ => rfl

theorem CdvdInv.begun {state : CdvdState} (inv : CdvdInv state) {id : Nat}
    (notIdle : (state.calls id).phase ≠ .idle) : id < state.made := by
  by_contra notMade
  exact notIdle (inv.fresh id (by omega))

/-! ### Parts of steps -/

/-- Nothing of the invariant depends on the bind variables, the servers and the
counter. -/
theorem CdvdInv.congr {state next : CdvdState} (inv : CdvdInv state)
    (calls : next.calls = state.calls) (made : next.made = state.made)
    (mutex : next.mutex = state.mutex)
    (releases : next.releases = state.releases)
    (writes : next.writes = state.writes) : CdvdInv next where
  orderly :=
    { answered := by
        rw [calls]
        exact inv.orderly.answered
      exclusive := by
        rw [calls, mutex]
        exact inv.orderly.exclusive
      released := by
        rw [releases]
        exact inv.orderly.released
      written := by
        rw [writes]
        exact inv.orderly.written }
  handled := by
    rw [calls]
    exact inv.handled
  fresh := by
    rw [calls, made]
    exact inv.fresh

/-- One call is replaced and the locks are settled with it. -/
theorem CdvdInv.replace {state next : CdvdState} (inv : CdvdInv state)
    {id : Nat} {call : CallState} (begun : id < state.made)
    (calls : next.calls = Function.update state.calls id call)
    (made : next.made = state.made) (answered : call.Answered)
    (handled : ∀ lock result, call.phase = .handled lock result →
      lock = call.work.lock)
    (exclusive : ∀ lock, Exclusive (next.mutex lock = true) fun other =>
      (Function.update state.calls id call other).Holding lock)
    (released : ∀ release ∈ next.releases,
      release.held = true ∧ release.own = true)
    (writes : next.writes = state.writes) : CdvdInv next where
  orderly :=
    { answered := by
        rw [calls]
        apply (Function.forall_update_iff state.calls fun _ other =>
          other.Answered).mpr
        exact ⟨answered, fun other _ => inv.orderly.answered other⟩
      exclusive := by
        rw [calls]
        exact exclusive
      released := released
      written := by
        rw [writes]
        exact inv.orderly.written }
  handled := by
    rw [calls]
    apply (Function.forall_update_iff state.calls fun _ other =>
      ∀ lock result, other.phase = .handled lock result →
        lock = other.work.lock).mpr
    exact ⟨handled, fun other _ => inv.handled other⟩
  fresh := by
    intro other notMade
    have isOther : other ≠ id := by omega
    rw [calls, Function.update_of_ne isOther]
    exact inv.fresh other (by omega)

/-- A call goes on without taking or giving back its lock. -/
theorem CdvdInv.setCall {state : CdvdState} (inv : CdvdInv state) {id : Nat}
    {call : CallState} (begun : id < state.made) (answered : call.Answered)
    (handled : ∀ lock result, call.phase = .handled lock result →
      lock = call.work.lock)
    (same : ∀ lock, call.Holding lock ↔ (state.calls id).Holding lock) :
    CdvdInv (state.setCall id call) :=
  inv.replace begun rfl rfl answered handled
    (fun lock => (inv.orderly.exclusive lock).keep (same lock) Iff.rfl)
    inv.orderly.released rfl

/-- A call gives back the lock it has taken, if any. -/
theorem CdvdInv.giveBack {state : CdvdState} (inv : CdvdInv state) {id : Nat}
    {call : CallState} (inside : (state.calls id).phase.inside = true)
    (outside : call.phase.inside = false) (answered : call.Answered) :
    CdvdInv ((state.unlockAny (state.calls id).work
      (state.calls id).work.lock).setCall id call) := by
  have begun : id < state.made := inv.begun fun idle => by
    rw [idle] at inside
    cases inside
  have notHandled : ∀ lock result, call.phase = .handled lock result →
      lock = call.work.lock := by
    intro lock result isHandled
    rw [isHandled] at outside
    cases outside
  have gone (lock : Lock) : ¬ call.Holding lock := by
    intro holding
    rw [holding.1] at outside
    cases outside
  cases taken : (state.calls id).work.lock with
  | none =>
      apply inv.setCall begun answered notHandled
      intro lock
      refine iff_of_false (gone lock) ?_
      rintro ⟨-, isLock⟩
      rw [taken] at isLock
      cases isLock
  | some lock =>
      have holding : (state.calls id).Holding lock := ⟨inside, taken⟩
      have exclusive := inv.orderly.exclusive lock
      refine inv.replace begun rfl rfl answered notHandled ?_ ?_ rfl
      · intro other
        by_cases isLock : other = lock
        · subst isLock
          apply exclusive.release holding (gone other)
          change Function.update state.mutex other false other ≠ true
          rw [Function.update_self]
          exact Bool.false_ne_true
        · apply (inv.orderly.exclusive other).keep
          · refine iff_of_false (gone other) ?_
            rintro ⟨-, isOther⟩
            rw [taken] at isOther
            exact isLock (Option.some.inj isOther).symm
          · change Function.update state.mutex lock false other = true ↔ _
            rw [Function.update_of_ne isLock]
      · intro release member
        rcases List.mem_cons.mp member with rfl | before
        · exact ⟨exclusive.held.mpr ⟨id, holding⟩, decide_eq_true taken⟩
        · exact inv.orderly.released release before

/-- An error is returned and the lock given back. -/
theorem CdvdInv.fail {state : CdvdState} (inv : CdvdInv state) {id : Nat}
    (inside : (state.calls id).phase.inside = true) {value : Int}
    (isError : value ≠ 0) : CdvdInv (state.fail id value) :=
  inv.giveBack inside rfl (.refused value isError)

/-- A call goes on inside of its lock, or without one. -/
theorem CdvdInv.goOn {state : CdvdState} (inv : CdvdInv state) {id : Nat}
    {call : CallState} (begun : (state.calls id).phase ≠ .idle)
    (sameWork : call.work = (state.calls id).work)
    (before : (state.calls id).phase.inside = true ∨
      (state.calls id).work.lock = none)
    (after : call.phase.inside = true) (answered : call.Answered)
    (handled : ∀ lock result, call.phase = .handled lock result →
      lock = call.work.lock) : CdvdInv (state.setCall id call) := by
  apply inv.setCall (inv.begun begun) answered handled
  intro lock
  rw [CallState.Holding, CallState.Holding, sameWork, after]
  rcases before with inside | noLock
  · rw [inside]
  · rw [noLock]
    exact iff_of_false (fun holding => nomatch holding.2)
      (fun holding => nomatch holding.2)

/-- A store into shared buffers while nobody else uses them. -/
theorem CdvdInv.write {state : CdvdState} (inv : CdvdInv state) {id : Nat}
    (alone : state.users id = []) : CdvdInv (state.write id) where
  orderly :=
    { answered := inv.orderly.answered
      exclusive := inv.orderly.exclusive
      released := inv.orderly.released
      written := by
        intro write member
        rcases List.mem_cons.mp member with rfl | before
        · exact alone
        · exact inv.orderly.written write before }
  handled := inv.handled
  fresh := inv.fresh

/-! ### Buffers -/

theorem Work.lock_of_buffer {work : Work} {buffer : Buffer} {lock : Lock}
    (uses : buffer ∈ work.buffers) (guarded : buffer.lock = some lock) :
    work.lock = some lock := by
  cases work with
  | immediate => cases uses
  | init stage =>
      change buffer ∈ (if stage = 3 then [Buffer.initMode] else []) at uses
      split at uses
      · obtain rfl := List.mem_singleton.mp uses
        cases guarded
      · cases uses
  | reset =>
      obtain rfl := List.mem_singleton.mp uses
      cases guarded
  | ready =>
      have inClass : ∀ other ∈ [Buffer.diskReadyMode, Buffer.sCmdRecvBuff],
          other.lock = some .s := by decide
      exact (inClass buffer uses).symm.trans guarded
  | command cmd => exact (cmd.guarded buffer uses).symm.trans guarded

theorem Phase.inside_of_underWay {phase : Phase}
    (underWay : phase.underWay = true) : phase.inside = true := by
  cases phase <;> first | rfl | cases underWay

theorem users_eq_nil {state : CdvdState} {id : Nat}
    (apart : ∀ other, other ≠ id →
      (state.calls other).phase.underWay = true →
        ∀ buffer ∈ (state.calls id).work.buffers,
          buffer ∉ (state.calls other).work.buffers) :
    state.users id = [] := by
  rw [CdvdState.users, List.filter_eq_nil_iff]
  intro other _ shares
  obtain ⟨different, underWay, buffer, mine, theirs⟩ := of_decide_eq_true shares
  exact apart other different underWay buffer mine theirs

/-- The holder of a lock is alone with the buffers of its class. -/
theorem CdvdInv.alone {state : CdvdState} (inv : CdvdInv state) {id : Nat}
    {lock : Lock} (holding : (state.calls id).Holding lock)
    (guarded : ∀ buffer ∈ (state.calls id).work.buffers,
      buffer.lock = some lock) : state.users id = [] := by
  apply users_eq_nil
  intro other different underWay buffer mine theirs
  have otherHolds : (state.calls other).Holding lock :=
    ⟨Phase.inside_of_underWay underWay,
      Work.lock_of_buffer theirs (guarded buffer mine)⟩
  exact different ((inv.orderly.exclusive lock).unique other id otherHolds
    holding)

/-! ### The steps -/

theorem CdvdInv.newCall {state : CdvdState} (inv : CdvdInv state)
    (call : CallState) (outside : call.phase.inside = false)
    (answered : call.Answered) :
    CdvdInv ({ state with made := state.made + 1 }.setCall state.made call) := by
  have more : CdvdInv { state with made := state.made + 1 } :=
    { orderly :=
        ⟨inv.orderly.answered, inv.orderly.exclusive, inv.orderly.released,
          inv.orderly.written⟩
      handled := inv.handled
      fresh := fun id notMade => inv.fresh id (Nat.le_of_succ_le notMade) }
  have idle := inv.fresh state.made (Nat.le_refl _)
  apply more.setCall (Nat.lt_succ_self _) answered
  · intro lock result isHandled
    rw [isHandled] at outside
    cases outside
  · intro lock
    refine iff_of_false (fun holding => ?_) (fun holding => ?_)
    · rw [holding.1] at outside
      cases outside
    · have inside := holding.1
      rw [idle] at inside
      cases inside

theorem enter_inv {state : CdvdState} (inv : CdvdInv state) (newRom : Bool)
    (call : Call) (inInterrupt : Bool) :
    CdvdInv (enter newRom call inInterrupt state) := by
  have begins (work : Work) := inv.newCall
    { phase := .entered, work := work, inInterrupt := inInterrupt
      answer := .open_ } rfl rfl
  have endsNow (result : Int) := inv.newCall
    { phase := .finished, work := .immediate, inInterrupt := inInterrupt
      answer := Answer.report (some result) .promise }
    rfl (Answer.settled_report _)
  cases call with
  | cdvdinit =>
      rw [enter]
      dsimp only
      split
      · exact begins _
      · exact endsNow 0
  | cdvdreset => exact begins _
  | cdvdready => exact begins _
  | cdvdmmode =>
      rw [enter]
      dsimp only
      split
      · exact begins _
      · split
        · exact begins _
        · exact endsNow 1
  | command name => exact begins _

theorem eagain_ne_zero (inInterrupt : Bool) : eagain inInterrupt ≠ 0 := by
  cases inInterrupt <;> decide

theorem Work.busy_ne_zero (work : Work) (inInterrupt : Bool) :
    work.busy inInterrupt ≠ 0 := by
  have sendp : -sifRpceSendp ≠ 0 := by decide
  have notready : cdvdReadyNotready ≠ 0 := by decide
  cases work with
  | command cmd => exact eagain_ne_zero inInterrupt
  | ready => exact notready
  | immediate => exact sendp
  | init stage => exact sendp
  | reset => exact sendp

theorem tryLock_inv {state : CdvdState} (inv : CdvdInv state) {id : Nat}
    {lock : Lock} (entered : (state.calls id).phase = .entered)
    (wants : (state.calls id).work.lock = some lock) :
    CdvdInv (tryLock id lock state) := by
  have begun : id < state.made := inv.begun fun idle => by
    rw [idle] at entered
    cases entered
  have outside (other : Lock) : ¬ (state.calls id).Holding other := by
    intro holding
    have inside := holding.1
    rw [entered] at inside
    cases inside
  have waiting := inv.orderly.answered id
  rw [CallState.Answered, entered] at waiting
  rw [tryLock]
  split <;> rename_i isHeld
  · have isError := Work.busy_ne_zero (state.calls id).work
      (state.calls id).inInterrupt
    refine inv.setCall begun (Answer.Settled.refused _ isError) ?_ ?_
    · intro _ _ impossible
      cases impossible
    · intro other
      exact iff_of_false (fun holding => nomatch holding.1) (outside other)
  · refine inv.replace begun rfl rfl waiting ?_ ?_ inv.orderly.released rfl
    · intro _ _ impossible
      cases impossible
    · intro other
      by_cases isLock : other = lock
      · subst isLock
        refine (inv.orderly.exclusive other).acquire isHeld ⟨rfl, wants⟩ ?_
        exact Function.update_self ..
      · apply (inv.orderly.exclusive other).keep
        · refine iff_of_false (fun holding => ?_) (outside other)
          rw [CallState.Holding, wants] at holding
          exact isLock (Option.some.inj holding.2).symm
        · change Function.update state.mutex lock true other = true ↔ _
          rw [Function.update_of_ne isLock]

theorem checkStat_inv {state : CdvdState} (inv : CdvdInv state) {id : Nat}
    (locked : (state.calls id).phase = .locked) (busy : Bool) :
    CdvdInv (checkStat id busy state) := by
  have inside : (state.calls id).phase.inside = true := by
    rw [locked]
    rfl
  have waiting := inv.orderly.answered id
  rw [CallState.Answered, locked] at waiting
  rw [checkStat]
  split
  · exact inv.fail inside (Work.busy_ne_zero _ _)
  · refine inv.goOn ?_ rfl (.inl inside) rfl waiting ?_
    · rw [locked]
      exact nofun
    · intro _ _ impossible
      cases impossible

/-- A call that may store its arguments: behind its lock, or without one. -/
def CallState.Preparing (call : CallState) : Prop :=
  call.phase = .free ∨ call.phase = .entered ∧ call.work.lock = none

theorem CallState.Preparing.holding {call : CallState}
    (preparing : call.Preparing) {lock : Lock}
    (taken : call.work.lock = some lock) : call.Holding lock := by
  rcases preparing with free | ⟨-, noLock⟩
  · refine ⟨?_, taken⟩
    rw [free]
    rfl
  · rw [noLock] at taken
    cases taken

theorem CdvdInv.prepared {state : CdvdState} (inv : CdvdInv state) {id : Nat}
    (preparing : (state.calls id).Preparing) :
    CdvdInv (state.setCall id { state.calls id with phase := .prepared }) := by
  have waiting := inv.orderly.answered id
  have notHandled : ∀ lock result, Phase.prepared = .handled lock result →
      lock = (state.calls id).work.lock := by
    intro _ _ impossible
    cases impossible
  rw [CallState.Answered] at waiting
  rcases preparing with free | ⟨entered, noLock⟩
  · rw [free] at waiting
    refine inv.goOn ?_ rfl (.inl ?_) rfl waiting notHandled
    · rw [free]
      exact nofun
    · rw [free]
      rfl
  · rw [entered] at waiting
    refine inv.goOn ?_ rfl (.inr noLock) rfl waiting notHandled
    rw [entered]
    exact nofun

/-- The condition on `initMode` keeps a call that uses nothing else alone. -/
theorem CdvdInv.initMode_alone {state : CdvdState} (inv : CdvdInv state)
    {id : Nat} (met : CdvdMet state (.prepare id))
    (only : (state.calls id).work.buffers = [.initMode]) :
    state.users id = [] := by
  apply users_eq_nil
  intro other different underWay buffer mine theirs
  have begun : other < state.made := inv.begun fun idle => by
    rw [idle] at underWay
    cases underWay
  rw [CdvdMet, only] at met
  rw [only] at mine
  obtain rfl := List.mem_singleton.mp mine
  exact met mine other begun different underWay theirs

theorem prepare_inv {state : CdvdState} (inv : CdvdInv state) {id : Nat}
    (preparing : (state.calls id).Preparing)
    (met : CdvdMet state (.prepare id)) : CdvdInv (prepare id state) := by
  unfold prepare
  dsimp only
  split <;> rename_i work
  · exact inv.prepared preparing
  · rename_i stage
    split
    · have cleared : CdvdInv { state with bound := fun _ => false } :=
        inv.congr rfl rfl rfl rfl rfl
      exact cleared.prepared preparing
    · split <;> rename_i third
      · have alone : state.users id = [] := by
          apply inv.initMode_alone met
          rw [work, Work.buffers, if_pos third]
        exact (inv.write alone).prepared preparing
      · exact inv.prepared preparing
  · have alone : state.users id = [] := by
      apply inv.initMode_alone met
      rw [work]
      rfl
    exact (inv.write alone).prepared preparing
  · have taken : (state.calls id).work.lock = some .s := by
      rw [work]
      rfl
    have inClass : ∀ buffer ∈ [Buffer.diskReadyMode, Buffer.sCmdRecvBuff],
        buffer.lock = some .s := by decide
    have holding := preparing.holding taken
    have written := inv.write (inv.alone holding (by
      rw [work]
      exact inClass))
    split
    · exact written.prepared preparing
    · exact written.fail holding.1 (by decide)
  · rename_i cmd
    have taken : (state.calls id).work.lock = some cmd.lock := by
      rw [work]
      rfl
    have holding := preparing.holding taken
    have alone := inv.alone holding (by
      rw [work]
      exact cmd.guarded)
    split
    · exact (inv.write alone).prepared preparing
    · exact inv.fail holding.1 (eagain_ne_zero _)

theorem setServer_inv {state : CdvdState} (inv : CdvdInv state)
    (client : Option Client) (found : Bool) :
    CdvdInv (state.setServer client found) ∧
      (state.setServer client found).calls = state.calls := by
  cases client with
  | none => exact ⟨inv, rfl⟩
  | some client => exact ⟨inv.congr rfl rfl rfl rfl rfl, rfl⟩

theorem send_inv {state : CdvdState} (inv : CdvdInv state) {id : Nat}
    (prepared : (state.calls id).phase = .prepared) (outcome : SendOutcome) :
    CdvdInv (send id outcome state) := by
  have inside : (state.calls id).phase.inside = true := by
    rw [prepared]
    rfl
  have isError : -sifRpceSendp ≠ 0 := by decide
  obtain ⟨cleared, calls⟩ := setServer_inv inv (state.calls id).work.binds false
  cases outcome with
  | noPacket => exact inv.fail inside isError
  | notSent =>
      apply cleared.fail _ isError
      rw [calls]
      exact inside
  | sent =>
      have sameWork := congrArg CallState.work (congrFun calls id)
      rw [← calls] at prepared inside
      refine cleared.goOn ?_ sameWork.symm (.inl inside) rfl rfl ?_
      · rw [prepared]
        exact nofun
      · intro _ _ impossible
        cases impossible

theorem initStage_inv {state : CdvdState} (inv : CdvdInv state) :
    CdvdInv (initStage state).1 ∧ (initStage state).1.calls = state.calls := by
  rw [initStage]
  split
  all_goals
    dsimp only
    first
    | exact ⟨inv, rfl⟩
    | exact ⟨inv.congr rfl rfl rfl rfl rfl, rfl⟩
    | split
      · exact ⟨inv.congr rfl rfl rfl rfl rfl, rfl⟩
      · exact ⟨inv, rfl⟩

theorem CdvdInv.completing {state : CdvdState} (inv : CdvdInv state) {id : Nat}
    (sent : (state.calls id).phase = .sent) {lock : Option Lock}
    (own : lock = (state.calls id).work.lock) (result : Option Int) :
    CdvdInv (state.setCall id
      { state.calls id with phase := .handled lock result }) := by
  have promised := inv.orderly.answered id
  rw [CallState.Answered, sent] at promised
  refine inv.goOn ?_ rfl (.inl ?_) rfl promised ?_
  · rw [sent]
    exact nofun
  · rw [sent]
    rfl
  · intro _ _ isHandled
    cases isHandled
    exact own

theorem handle_inv {state : CdvdState} (inv : CdvdInv state) {id : Nat}
    (sent : (state.calls id).phase = .sent) (found : Bool) (reply : Int)
    (met : CdvdMet state (.handle id found reply)) :
    CdvdInv (handle id found reply state) := by
  unfold handle
  dsimp only
  split <;> rename_i work
  · apply inv.completing sent
    rw [work]
    rfl
  · rename_i stage
    obtain ⟨bound, boundCalls⟩ := setServer_inv inv (stageClient stage) found
    obtain ⟨staged, stagedCalls⟩ := initStage_inv bound
    have sameCalls := stagedCalls.trans boundCalls
    have sameCounter : (state.setServer (stageClient stage)
        found).cdvdInitCounter = state.cdvdInitCounter := by
      cases stageClient stage <;> rfl
    have own : stageLock (state.setServer (stageClient stage)
        found).cdvdInitCounter = (state.calls id).work.lock := by
      rw [CdvdMet, work] at met
      rw [sameCounter, work]
      exact met
    rw [← sameCalls] at sent own ⊢
    exact staged.completing sent own _
  · apply inv.completing sent
    rw [work]
    rfl
  · apply inv.completing sent
    rw [work]
    rfl
  · apply inv.completing sent
    rw [work]
    rfl

theorem release_inv {state : CdvdState} (inv : CdvdInv state) {id : Nat}
    {lock : Option Lock} {result : Option Int}
    (handled : (state.calls id).phase = .handled lock result) :
    CdvdInv (release id lock result state) := by
  have promised := inv.orderly.answered id
  rw [CallState.Answered, handled] at promised
  obtain rfl := inv.handled id lock result handled
  apply inv.giveBack
  · rw [handled]
    rfl
  · rfl
  · exact promised

theorem endfunc_inv {state : CdvdState} (inv : CdvdInv state) {id : Nat}
    {result : Option Int} (released : (state.calls id).phase = .released result) :
    CdvdInv (endfunc id result state) := by
  have promised := inv.orderly.answered id
  rw [CallState.Answered, released] at promised
  have settled : ((state.calls id).answer.report result).Settled := by
    rw [promised]
    exact Answer.settled_report result
  refine inv.setCall ?_ settled ?_ ?_
  · apply inv.begun
    rw [released]
    exact nofun
  · intro _ _ impossible
    cases impossible
  · intro lock
    rw [CallState.Holding, CallState.Holding, released]
    rfl

theorem cdvdStep_inv (newRom : Bool) {state next : CdvdState} {event : Event}
    (inv : CdvdInv state) (met : CdvdMet state event)
    (stepped : cdvdStep newRom state event = some next) : CdvdInv next := by
  cases event with
  | enter call inInterrupt =>
      cases stepped
      exact enter_inv inv newRom call inInterrupt
  | tryLock id =>
      rw [cdvdStep] at stepped
      split at stepped
      · rename_i lock entered wants
        cases stepped
        exact tryLock_inv inv entered wants
      · cases stepped
  | checkStat id busy =>
      obtain ⟨locked, isNext⟩ := Option.ite_none_right_eq_some.mp stepped
      obtain rfl := Option.some.inj isNext
      exact checkStat_inv inv locked busy
  | prepare id =>
      obtain ⟨phase, isNext⟩ := Option.ite_none_right_eq_some.mp stepped
      obtain rfl := Option.some.inj isNext
      exact prepare_inv inv phase met
  | send id outcome =>
      obtain ⟨prepared, isNext⟩ := Option.ite_none_right_eq_some.mp stepped
      obtain rfl := Option.some.inj isNext
      exact send_inv inv prepared outcome
  | handle id found reply =>
      obtain ⟨sent, isNext⟩ := Option.ite_none_right_eq_some.mp stepped
      obtain rfl := Option.some.inj isNext
      exact handle_inv inv sent found reply met
  | release id =>
      rw [cdvdStep] at stepped
      split at stepped
      · rename_i lock result handled
        cases stepped
        exact release_inv inv handled
      · cases stepped
  | endfunc id =>
      rw [cdvdStep] at stepped
      split at stepped
      · rename_i result released
        cases stepped
        exact endfunc_inv inv released
      · cases stepped

/-! ### Completions and runs -/

/-- The steps of the completion of one call, one after the other. -/
def complete (newRom : Bool) (id : Nat) (found : Bool) (reply : Int)
    (state : CdvdState) : Option CdvdState :=
  (cdvdStep newRom state (.handle id found reply)).bind fun handled =>
    (cdvdStep newRom handled (.release id)).bind fun released =>
      cdvdStep newRom released (.endfunc id)

theorem handle_calls (id : Nat) (found : Bool) (reply : Int)
    (state : CdvdState) : ∃ lock result,
      (handle id found reply state).calls id =
        { state.calls id with phase := .handled lock result } := by
  unfold handle
  dsimp only
  split
  all_goals exact ⟨_, _, Function.update_self ..⟩

theorem release_calls (id : Nat) (lock : Option Lock) (result : Option Int)
    (state : CdvdState) : (release id lock result state).calls id =
      { state.calls id with phase := .released result } :=
  Function.update_self ..

theorem endfunc_calls (id : Nat) (result : Option Int) (state : CdvdState) :
    (endfunc id result state).calls id =
      { state.calls id with
        phase := .finished
        answer := (state.calls id).answer.report result } :=
  Function.update_self ..

/-- The completion of a sent RPC can always go through, and it reports the end
of its call. -/
theorem complete_settled (newRom : Bool) {id : Nat} {state : CdvdState}
    (sent : (state.calls id).phase = .sent)
    (promised : (state.calls id).answer = .promise) (found : Bool)
    (reply : Int) : ∃ ended,
      complete newRom id found reply state = some ended ∧
        (ended.calls id).phase = .finished ∧
        (ended.calls id).answer.Settled := by
  obtain ⟨lock, result, handled⟩ := handle_calls id found reply state
  have isHandled : cdvdStep newRom state (.handle id found reply) =
      some (handle id found reply state) := if_pos sent
  have released := release_calls id lock result (handle id found reply state)
  have ended := endfunc_calls id result
    (release id lock result (handle id found reply state))
  rw [released, handled] at ended
  rw [handled] at released
  refine ⟨endfunc id result (release id lock result
    (handle id found reply state)), ?_, ?_, ?_⟩
  · rw [complete, isHandled, Option.bind_some, cdvdStep, handled]
    dsimp only
    rw [Option.bind_some, cdvdStep, released]
  · rw [ended]
  · rw [ended, promised]
    exact Answer.settled_report result

theorem cdvdInv_reached (newRom : Bool) {state : CdvdState}
    (reached : (cdvdMachine newRom).Reach CdvdMet state) : CdvdInv state :=
  reached.invariant (cdvdInv_initial newRom)
    fun _ _ _ inv met stepped => cdvdStep_inv newRom inv met stepped

/-- Every run that meets the conditions keeps locks, buffers and answers in
order, and what it has sent can complete. -/
theorem cdvd_orderly (newRom : Bool) {state : CdvdState}
    (reached : (cdvdMachine newRom).Reach CdvdMet state) :
    CdvdOrderly state ∧
      ∀ id found reply, (state.calls id).phase = .sent → ∃ ended,
        complete newRom id found reply state = some ended ∧
          (ended.calls id).phase = .finished ∧
          (ended.calls id).answer.Settled := by
  have inv := cdvdInv_reached newRom reached
  refine ⟨inv.orderly, fun id found reply sent => ?_⟩
  have promised := inv.orderly.answered id
  rw [CallState.Answered, sent] at promised
  exact complete_settled newRom sent promised found reply

/-- A stage of the initialisation from its entry to the reported end. -/
def initCall (id : Nat) : List Event :=
  [.enter .cdvdinit false, .tryLock id, .checkStat id false, .prepare id,
    .send id .sent, .handle id true 0, .release id, .endfunc id]

/-- The whole initialisation, and then a command that is refused while another
one of its class is under way. -/
theorem cdvd_orderly_commands : ∃ state,
    ((state.cdvdInitCounter = 6 ∧ state.mutex .s = true) ∧
      (state.calls 6).phase = .sent ∧
      (state.calls 7).answer = .refuse (-sifRpceSendp)) ∧
    (cdvdMachine false).Reach CdvdMet state ∧ CdvdOrderly state := by
  have followed : ((cdvdMachine false).follow CdvdMet
      ((List.range 6).flatMap initCall ++
        [.enter (.command .cdvdreadrtc) false, .tryLock 6, .checkStat 6 false,
          .prepare 6, .send 6 .sent, .enter (.command .cdvdopenconfig) false,
          .tryLock 7])
      (cdvdMachine false).initial).map
        (fun state => decide ((state.cdvdInitCounter = 6 ∧
          state.mutex .s = true) ∧ (state.calls 6).phase = .sent ∧
          (state.calls 7).answer = .refuse (-sifRpceSendp))) = some true := by
    decide +kernel
  obtain ⟨state, isState, seen⟩ := Option.map_eq_some_iff.mp followed
  have reached := Machine.Reach.initial.follow _ isState
  exact ⟨state, of_decide_eq_true seen, reached,
    (cdvd_orderly false reached).1⟩

/-- A second call enters at stage 3 and is interrupted until the first one has
advanced the counter: its completion releases the other mutex, which nobody
holds, and its own stays locked. -/
theorem cdvdinit_releases_other : ∃ state,
    (cdvdMachine false).Reach (fun _ _ => True) state ∧ ¬ CdvdOrderly state := by
  have followed : ((cdvdMachine false).follow (fun _ _ => True)
      ((List.range 3).flatMap initCall ++
        [.enter .cdvdinit false, .enter .cdvdinit false, .tryLock 3,
          .checkStat 3 false, .prepare 3, .send 3 .sent, .handle 3 true 0,
          .release 3, .endfunc 3, .tryLock 4, .checkStat 4 false, .prepare 4,
          .send 4 .sent, .handle 4 true 0, .release 4, .endfunc 4])
      (cdvdMachine false).initial).map
        (fun state => state.releases.any fun release =>
          !release.held && !release.own) = some true := by
    decide +kernel
  obtain ⟨state, isState, seen⟩ := Option.map_eq_some_iff.mp followed
  refine ⟨state, Machine.Reach.initial.follow _ isState, fun orderly => ?_⟩
  obtain ⟨release, member, notHeld⟩ := List.any_eq_true.mp seen
  rw [(orderly.released release member).1] at notHeld
  cases notHeld

end KernelReloaded.Cdvd
