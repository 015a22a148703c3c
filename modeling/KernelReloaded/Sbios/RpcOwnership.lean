/-
Who owns the packets and the clients of the RPC layer.

When `SifSendCmd` fails, the source releases the packet but leaves it in the
client, which then counts as in use for ever.  The results here are about the
runs in which no send fails; there a client is in use exactly while a request of
it is unanswered, and likewise a packet.
-/

import KernelReloaded.Sbios.SifRpc
import Mathlib.Data.List.Perm.Basic

namespace KernelReloaded.SifRpc

/-! ### What is wanted -/

def Progress.unanswered : Progress → Option SentRequest
  | .awaiting sent => some sent
  | _ => none

def RpcState.unanswered (state : RpcState) : List SentRequest :=
  state.progress.filterMap Progress.unanswered

/-- The sent request whose end function has not run. -/
def Progress.unended : Progress → Option SentRequest
  | .awaiting sent => some sent
  | .ending sent _ _ _ => some sent
  | _ => none

def RpcState.unended (state : RpcState) : List SentRequest :=
  state.progress.filterMap Progress.unended

/-- No operation and no `_request_end` is running. -/
def RpcState.Quiet (state : RpcState) : Prop :=
  ∀ progress ∈ state.progress, progress.unanswered ≠ none

/-- No operation is about to send a request of the client. -/
def RpcState.Between (state : RpcState) (client : Nat) : Prop :=
  ∀ request packet, .claimed request packet ∈ state.progress →
    request.client ≠ client

structure Settled (state : RpcState) : Prop where
  inUse : ∀ client, state.Between client →
    ((state.clients client).pktAddr ≠ none ↔
      ∃ sent ∈ state.unanswered, sent.request.client = client)
  allocated : state.Quiet → ∀ packet, state.Allocated packet ↔
    ∃ sent ∈ state.unanswered, sent.packet = packet
  distinct : (state.unanswered.map SentRequest.packet).Nodup
  once : state.sent.Perm (state.ended.map Prod.fst ++ state.unended)
  own : ∀ entry ∈ state.ended,
    entry.2 = (entry.1.request.endFunction, entry.1.request.endParam)

/-- An operation that fails leaves no trace. -/
def ErrorsHarmless (accepted : Bool) (state : RpcState) : Prop :=
  ∀ request, (rpcOperation request accepted state).1 ≠ 0 →
    (rpcOperation request accepted state).2.clients = state.clients ∧
    ∀ packet, (rpcOperation request accepted state).2.Allocated packet ↔
      state.Allocated packet

def Delivered (state : RpcState) : Event → Prop
  | .start _ => True
  | .resume index outside => ∀ request packet,
      state.progress[index]? = some (.claimed request packet) →
        outside.accepted = true

/-! ### The invariant -/

def Progress.packet? : Progress → Option Nat
  | .allocated _ packet => some packet
  | .claimed _ packet => some packet
  | .refused packet => some packet
  | .awaiting sent => some sent.packet
  | .ending _ _ _ packet => packet
  | .finishing packet => packet

/-- The request that holds its client. -/
def Progress.holder : Progress → Option SentRequest
  | .claimed request packet => some { request := request, packet := packet }
  | .awaiting sent => some sent
  | _ => none

def RpcState.owned (state : RpcState) : List Nat :=
  state.progress.filterMap Progress.packet?

def RpcState.holders (state : RpcState) : List SentRequest :=
  state.progress.filterMap Progress.holder

/-- The end function that `_request_end` has read is the request's. -/
def Progress.ReadsOwn : Progress → Prop
  | .ending sent endFunction endParam _ =>
      endFunction = sent.request.endFunction ∧ endParam = sent.request.endParam
  | _ => True

structure RpcInv (state : RpcState) : Prop where
  allocated : ∀ packet, state.Allocated packet ↔ packet ∈ state.owned
  distinct : state.owned.Nodup
  held : ∀ client packet, (state.clients client).pktAddr = some packet ↔
    ∃ holder ∈ state.holders,
      holder.request.client = client ∧ holder.packet = packet
  ends : ∀ holder ∈ state.holders,
    (state.clients holder.request.client).endFunction =
        holder.request.endFunction ∧
      (state.clients holder.request.client).endParam = holder.request.endParam
  once : state.sent.Perm (state.ended.map Prod.fst ++ state.unended)
  own : ∀ entry ∈ state.ended,
    entry.2 = (entry.1.request.endFunction, entry.1.request.endParam)
  reads : ∀ progress ∈ state.progress, progress.ReadsOwn

theorem rpcInv_initial : RpcInv rpcMachine.initial := by
  refine ⟨?_, List.nodup_nil, ?_, nofun, List.Perm.nil, nofun, nofun⟩
  · intro packet
    constructor
    · intro allocated
      have clear : (0 : BitVec 32) &&& packetFAlloc = 0 := by decide
      exact (allocated clear).elim
    · exact nofun
  · intro client packet
    constructor
    · exact nofun
    · rintro ⟨holder, member, -⟩
      cases member

/-- The order in which requests are listed does not matter. -/
theorem RpcInv.reorder {state : RpcState} (inv : RpcInv state)
    {progress : List Progress} (same : state.progress.Perm progress) :
    RpcInv { state with progress := progress } := by
  have owned := same.filterMap Progress.packet?
  have holders := same.filterMap Progress.holder
  have unended := same.filterMap Progress.unended
  refine ⟨?_, owned.nodup inv.distinct, ?_, ?_, ?_, inv.own, ?_⟩
  · intro packet
    exact (inv.allocated packet).trans owned.mem_iff
  · intro client packet
    refine (inv.held client packet).trans ?_
    exact exists_congr fun holder => and_congr_left fun _ => holders.mem_iff
  · intro holder member
    exact inv.ends holder (holders.mem_iff.mpr member)
  · exact inv.once.trans (unended.append_left _)
  · intro entry member
    exact inv.reads entry (same.mem_iff.mpr member)

/-- The next part of a request in place of the part before. -/
theorem RpcInv.reads_push {state next : RpcState} {before after : Progress}
    (inv : RpcInv (state.push before)) (same : next.progress = state.progress)
    (own : after.ReadsOwn) :
    ∀ progress ∈ (next.push after).progress, progress.ReadsOwn := by
  intro progress member
  change progress ∈ after :: next.progress at member
  rw [same] at member
  rcases List.mem_cons.mp member with rfl | listed
  · exact own
  · exact inv.reads progress (List.mem_cons_of_mem _ listed)

theorem Progress.packet_of_holder {progress : Progress} {holder : SentRequest}
    (holds : progress.holder = some holder) :
    progress.packet? = some holder.packet := by
  cases progress with
  | claimed request packet =>
      obtain rfl := Option.some.inj holds
      rfl
  | awaiting sent =>
      obtain rfl := Option.some.inj holds
      rfl
  | _ => cases holds

theorem RpcState.packet_mem_owned {state : RpcState} {holder : SentRequest}
    (member : holder ∈ state.holders) : holder.packet ∈ state.owned := by
  obtain ⟨progress, listed, holds⟩ := List.mem_filterMap.mp member
  exact List.mem_filterMap.mpr
    ⟨progress, listed, Progress.packet_of_holder holds⟩

/-! ### The allocation flag -/

theorem flag_of_or (bits : BitVec 32) :
    (bits ||| packetFAlloc) &&& packetFAlloc ≠ 0 := by
  intro clear
  have bit := congrArg (fun word : BitVec 32 => word.getLsbD 0) clear
  simp [packetFAlloc] at bit

theorem no_flag_of_and_not (bits : BitVec 32) :
    (bits &&& ~~~ packetFAlloc) &&& packetFAlloc = 0 := by
  rw [BitVec.and_assoc, BitVec.and_comm (~~~ packetFAlloc)]
  simp

theorem allocated_setPacket_self (state : RpcState) (packet : Nat)
    (content : Packet) : (state.setPacket packet content).Allocated packet ↔
      content.recId &&& packetFAlloc ≠ 0 := by
  rw [RpcState.Allocated, RpcState.setPacket]
  dsimp only
  rw [Function.update_self]

theorem allocated_setPacket_of_ne (state : RpcState) {packet other : Nat}
    (different : other ≠ packet) (content : Packet) :
    (state.setPacket packet content).Allocated other ↔
      state.Allocated other := by
  rw [RpcState.Allocated, RpcState.setPacket]
  dsimp only
  rw [Function.update_of_ne different]
  rfl

theorem allocated_rpcPacketFree (state : RpcState) (packet other : Nat) :
    (rpcPacketFree state packet).Allocated other ↔
      other ≠ packet ∧ state.Allocated other := by
  by_cases same : other = packet
  · subst other
    rw [rpcPacketFree, allocated_setPacket_self]
    constructor
    · intro flag
      exact (flag (no_flag_of_and_not _)).elim
    · intro both
      exact (both.1 rfl).elim
  · rw [rpcPacketFree, allocated_setPacket_of_ne state same]
    exact ⟨fun allocated => ⟨same, allocated⟩, fun both => both.2⟩

theorem allocated_fillPacket (request : RpcRequest) (packet : Nat)
    (state : RpcState) (other : Nat) :
    (fillPacket request packet state).Allocated other ↔
      state.Allocated other := by
  by_cases same : other = packet
  · subst other
    rw [fillPacket, allocated_setPacket_self]
    rfl
  · rw [fillPacket, allocated_setPacket_of_ne state same]

theorem rpcGetPacket_spec {state next : RpcState} {packet : Nat}
    (taken : rpcGetPacket state = some (packet, next)) :
    ¬ state.Allocated packet ∧
    (∀ other, next.Allocated other ↔ other = packet ∨ state.Allocated other) ∧
    next.clients = state.clients ∧ next.progress = state.progress ∧
    next.sent = state.sent ∧ next.ended = state.ended := by
  rw [rpcGetPacket] at taken
  split at taken
  · cases taken
  · rename_i rid found
    obtain ⟨rfl, rfl⟩ := Prod.mk.inj (Option.some.inj taken)
    have free : ¬ state.Allocated rid := by
      simpa using List.find?_some found
    refine ⟨free, ?_, rfl, rfl, rfl, rfl⟩
    intro other
    by_cases same : other = rid
    · subst other
      rw [allocated_setPacket_self]
      exact ⟨fun _ => .inl rfl, fun _ => flag_of_or _⟩
    · rw [allocated_setPacket_of_ne _ same]
      constructor
      · exact .inr
      · intro either
        exact either.resolve_left same

/-! ### Steps -/

theorem startRequest_inv {state : RpcState} (inv : RpcInv state)
    (request : RpcRequest) : RpcInv (startRequest request state) := by
  rw [startRequest]
  split
  · exact inv
  · split
    · exact inv
    · rename_i packet next taken
      obtain ⟨free, allocated, clients, progress, sent, ended⟩ :=
        rpcGetPacket_spec taken
      have owned : (next.push (.allocated request packet)).owned =
          packet :: state.owned := by
        rw [RpcState.owned, RpcState.owned, RpcState.push, progress]
        rfl
      have holders : (next.push (.allocated request packet)).holders =
          state.holders := by
        rw [RpcState.holders, RpcState.holders, RpcState.push, progress]
        rfl
      have unended : (next.push (.allocated request packet)).unended =
          state.unended := by
        rw [RpcState.unended, RpcState.unended, RpcState.push, progress]
        rfl
      refine ⟨?_, ?_, ?_, ?_, ?_, ?_, ?_⟩
      · intro other
        rw [owned, List.mem_cons, ← inv.allocated other]
        exact allocated other
      · rw [owned, List.nodup_cons, ← inv.allocated packet]
        exact ⟨free, inv.distinct⟩
      · intro client other
        rw [holders]
        change (next.clients client).pktAddr = _ ↔ _
        rw [clients]
        exact inv.held client other
      · rw [holders]
        exact clients ▸ inv.ends
      · rw [unended]
        exact sent ▸ ended ▸ inv.once
      · exact ended ▸ inv.own
      · intro entry member
        change entry ∈ _ :: next.progress at member
        rw [progress] at member
        rcases List.mem_cons.mp member with rfl | listed
        · trivial
        · exact inv.reads entry listed

theorem refused_inv {state : RpcState} {request : RpcRequest} {packet : Nat}
    (inv : RpcInv (state.push (.allocated request packet))) :
    RpcInv (state.push (.refused packet)) := by
  exact ⟨inv.allocated, inv.distinct, inv.held, inv.ends, inv.once, inv.own,
    inv.reads_push rfl trivial⟩

theorem claimClient_clients (request : RpcRequest) (packet : Nat)
    (state : RpcState) (client : Nat) :
    (client ≠ request.client →
      (claimClient request packet state).clients client =
        state.clients client) ∧
    ((claimClient request packet state).clients request.client).pktAddr =
        some packet ∧
    ((claimClient request packet state).clients request.client).endFunction =
        request.endFunction ∧
    ((claimClient request packet state).clients request.client).endParam =
        request.endParam := by
  refine ⟨fun different => Function.update_of_ne different _ _, ?_⟩
  rw [claimClient, RpcState.setClient]
  dsimp only
  rw [Function.update_self]
  cases request.operation with
  | bind sid => exact ⟨rfl, rfl, rfl⟩
  | call rpcNumber ssize recvbuf rsize => exact ⟨rfl, rfl, rfl⟩

theorem claimed_inv {state : RpcState} {request : RpcRequest} {packet : Nat}
    (inv : RpcInv (state.push (.allocated request packet)))
    (free : (state.clients request.client).pktAddr = none) :
    RpcInv ((claimClient request packet state).push
      (.claimed request packet)) := by
  have others {holder : SentRequest} (member : holder ∈ state.holders) :
      holder.request.client ≠ request.client := by
    intro same
    have inUse := (inv.held holder.request.client holder.packet).mpr
      ⟨holder, member, rfl, rfl⟩
    change (state.clients _).pktAddr = _ at inUse
    rw [same, free] at inUse
    cases inUse
  obtain ⟨-, taken, takenFunction, takenParam⟩ :=
    claimClient_clients request packet state 0
  refine ⟨inv.allocated, inv.distinct, ?_, ?_, inv.once, inv.own,
    inv.reads_push rfl trivial⟩
  · intro client other
    change ((claimClient request packet state).clients client).pktAddr = _ ↔
      ∃ holder ∈ { request := request, packet := packet } :: state.holders, _
    by_cases same : client = request.client
    · subst client
      rw [taken]
      constructor
      · intro equal
        exact ⟨_, List.mem_cons_self, rfl, Option.some.inj equal⟩
      · rintro ⟨holder, member, client, rfl⟩
        rcases List.mem_cons.mp member with rfl | listed
        · rfl
        · exact (others listed client).elim
    · rw [(claimClient_clients request packet state client).1 same]
      refine (inv.held client other).trans ?_
      constructor
      · rintro ⟨holder, member, holds⟩
        exact ⟨holder, List.mem_cons_of_mem _ member, holds⟩
      · rintro ⟨holder, member, rfl, holds⟩
        rcases List.mem_cons.mp member with rfl | listed
        · exact (same rfl).elim
        · exact ⟨holder, listed, rfl, holds⟩
  · intro holder member
    change holder ∈ { request := request, packet := packet } :: state.holders
      at member
    rcases List.mem_cons.mp member with rfl | listed
    · exact ⟨takenFunction, takenParam⟩
    · change ((claimClient request packet state).clients _).endFunction = _ ∧
        ((claimClient request packet state).clients _).endParam = _
      rw [(claimClient_clients request packet state _).1 (others listed)]
      exact inv.ends holder listed

theorem sent_inv {state : RpcState} {request : RpcRequest} {packet : Nat}
    (inv : RpcInv (state.push (.claimed request packet))) :
    RpcInv (RpcState.push (.awaiting { request := request, packet := packet })
      { fillPacket request packet state with
        sent := state.sent ++ [{ request := request, packet := packet }] }) := by
  refine ⟨?_, inv.distinct, inv.held, inv.ends, ?_, inv.own,
    inv.reads_push rfl trivial⟩
  · intro other
    exact (allocated_fillPacket request packet state other).trans
      (inv.allocated other)
  · change List.Perm (state.sent ++ [_]) (_ ++ _ :: state.unended)
    refine (List.perm_append_singleton _ _).trans ?_
    refine (List.Perm.cons _ inv.once).trans ?_
    exact List.perm_middle.symm

theorem released_inv {state : RpcState} {progress : Progress} {packet : Nat}
    (inv : RpcInv (state.push progress))
    (shape : progress = .refused packet ∨ progress = .finishing (some packet)) :
    RpcInv (rpcPacketFree state packet) := by
  have parts : progress.packet? = some packet ∧ progress.holder = none ∧
      progress.unended = none := by
    rcases shape with rfl | rfl <;> exact ⟨rfl, rfl, rfl⟩
  have owned : (state.push progress).owned = packet :: state.owned :=
    List.filterMap_cons_some parts.1
  have holders : (state.push progress).holders = state.holders :=
    List.filterMap_cons_none parts.2.1
  have unended : (state.push progress).unended = state.unended :=
    List.filterMap_cons_none parts.2.2
  have distinct := inv.distinct
  rw [owned, List.nodup_cons] at distinct
  refine ⟨?_, distinct.2, ?_, ?_, ?_, inv.own, ?_⟩
  · intro other
    have before := inv.allocated other
    rw [owned, List.mem_cons] at before
    rw [allocated_rpcPacketFree]
    constructor
    · rintro ⟨different, allocated⟩
      exact (before.mp allocated).resolve_left different
    · intro member
      refine ⟨?_, before.mpr (.inr member)⟩
      rintro rfl
      exact distinct.1 member
  · exact holders ▸ inv.held
  · exact holders ▸ inv.ends
  · exact unended ▸ inv.once
  · intro entry listed
    exact inv.reads entry (List.mem_cons_of_mem _ listed)

theorem ended_inv {state : RpcState} {sent : SentRequest}
    {endFunction endParam : Nat} {packet : Option Nat}
    (inv : RpcInv (state.push (.ending sent endFunction endParam packet))) :
    RpcInv (RpcState.push (.finishing packet)
      { state with
        ended := state.ended ++ [(sent, endFunction, endParam)] }) := by
  obtain ⟨ownFunction, ownParam⟩ := inv.reads _ List.mem_cons_self
  refine ⟨inv.allocated, inv.distinct, inv.held, inv.ends, ?_, ?_,
    inv.reads_push rfl trivial⟩
  · refine inv.once.trans ?_
    change List.Perm (state.ended.map Prod.fst ++ sent :: state.unended)
      ((state.ended ++ [(sent, endFunction, endParam)]).map Prod.fst ++
        state.unended)
    rw [List.map_append, List.map_singleton, List.append_assoc,
      List.singleton_append]
  · intro entry member
    rcases List.mem_append.mp member with before | last
    · exact inv.own entry before
    · rw [List.mem_singleton.mp last, ownFunction, ownParam]

theorem requestEnd_clients (sent : SentRequest) (reply : Reply)
    (state : RpcState) (client : Nat) :
    (client ≠ sent.request.client →
      (requestEnd sent reply state).clients client = state.clients client) ∧
    ((requestEnd sent reply state).clients sent.request.client).pktAddr =
      none := by
  refine ⟨fun different => Function.update_of_ne different _ _, ?_⟩
  rw [requestEnd, RpcState.push, RpcState.setClient]
  dsimp only
  rw [Function.update_self]
  cases sent.request.operation with
  | bind sid => rfl
  | call rpcNumber ssize recvbuf rsize => rfl

/-- The answer to a request frees its client and goes on with its packet. -/
theorem answered_inv {state : RpcState} {sent : SentRequest}
    (inv : RpcInv (state.push (.awaiting sent))) (reply : Reply) :
    RpcInv (requestEnd sent reply state) := by
  have inUse : (state.clients sent.request.client).pktAddr =
      some sent.packet :=
    (inv.held _ _).mpr ⟨sent, List.mem_cons_self, rfl, rfl⟩
  obtain ⟨sameFunction, sameParam⟩ := inv.ends sent List.mem_cons_self
  -- a second holder of the client would have the same packet
  have others {holder : SentRequest} (member : holder ∈ state.holders) :
      holder.request.client ≠ sent.request.client := by
    intro same
    have alsoInUse := (inv.held holder.request.client holder.packet).mpr
      ⟨holder, List.mem_cons_of_mem _ member, rfl, rfl⟩
    change (state.clients _).pktAddr = _ at alsoInUse
    rw [same, inUse] at alsoInUse
    have distinct := inv.distinct
    change (sent.packet :: state.owned).Nodup at distinct
    rw [Option.some.inj alsoInUse, List.nodup_cons] at distinct
    exact distinct.1 (RpcState.packet_mem_owned member)
  have answered := (requestEnd_clients sent reply state 0).2
  have owned : (requestEnd sent reply state).owned =
      sent.packet :: state.owned := by
    rw [RpcState.owned, requestEnd, RpcState.push]
    dsimp only
    rw [inUse]
    rfl
  refine ⟨?_, ?_, ?_, ?_, inv.once, inv.own,
    inv.reads_push rfl ⟨sameFunction, sameParam⟩⟩
  · rw [owned]
    exact inv.allocated
  · rw [owned]
    exact inv.distinct
  · intro client packet
    change _ ↔ ∃ holder ∈ state.holders, _
    by_cases same : client = sent.request.client
    · subst client
      rw [answered]
      constructor
      · exact nofun
      · rintro ⟨holder, member, client, -⟩
        exact (others member client).elim
    · rw [(requestEnd_clients sent reply state client).1 same]
      refine (inv.held client packet).trans ?_
      constructor
      · rintro ⟨holder, member, rfl, holds⟩
        rcases List.mem_cons.mp member with rfl | listed
        · exact (same rfl).elim
        · exact ⟨holder, listed, rfl, holds⟩
      · rintro ⟨holder, member, holds⟩
        exact ⟨holder, List.mem_cons_of_mem _ member, holds⟩
  · intro holder member
    rw [(requestEnd_clients sent reply state _).1 (others member)]
    exact inv.ends holder (List.mem_cons_of_mem _ member)

theorem resumeRequest_inv {state : RpcState} {progress : Progress}
    (inv : RpcInv (state.push progress)) {outside : Outside}
    (delivered : ∀ request packet, progress = .claimed request packet →
      outside.accepted = true) :
    RpcInv (resumeRequest outside state progress) := by
  cases progress with
  | allocated request packet =>
      rw [resumeRequest]
      split <;> rename_i inUse
      · exact refused_inv inv
      · exact claimed_inv inv (not_not.mp inUse)
  | claimed request packet =>
      rw [resumeRequest]
      dsimp only
      rw [if_pos (delivered request packet rfl)]
      exact sent_inv inv
  | refused packet => exact released_inv inv (.inl rfl)
  | awaiting sent => exact answered_inv inv outside.reply
  | ending sent endFunction endParam packet =>
      have present : endFunction ≠ 0 := by
        rw [(inv.reads _ List.mem_cons_self).1]
        exact sent.request.present
      rw [resumeRequest, if_pos present]
      exact ended_inv inv
  | finishing packet =>
      cases packet with
      | none =>
          exact ⟨inv.allocated, inv.distinct, inv.held, inv.ends, inv.once,
            inv.own, fun entry listed =>
              inv.reads entry (List.mem_cons_of_mem _ listed)⟩
      | some packet => exact released_inv inv (.inr rfl)

theorem rpcStep_inv {state next : RpcState} {event : Event}
    (inv : RpcInv state) (delivered : Delivered state event)
    (stepped : rpcStep state event = some next) : RpcInv next := by
  cases event with
  | start request =>
      obtain rfl := Option.some.inj stepped
      exact startRequest_inv inv request
  | resume index outside =>
      rw [rpcStep] at stepped
      split at stepped
      · cases stepped
      · rename_i progress listed
        obtain rfl := Option.some.inj stepped
        have first : state.progress.Perm
            (progress :: state.progress.eraseIdx index) := by
          obtain ⟨inside, rfl⟩ := List.getElem?_eq_some_iff.mp listed
          exact (List.getElem_cons_eraseIdx_perm inside).symm
        have listedFirst : RpcInv (RpcState.push progress
            { state with progress := state.progress.eraseIdx index }) :=
          inv.reorder first
        apply resumeRequest_inv listedFirst
        intro request packet claimed
        exact delivered request packet (listed.trans (congrArg some claimed))

/-! ### Between operations -/

theorem mem_unanswered {state : RpcState} {sent : SentRequest} :
    sent ∈ state.unanswered ↔ .awaiting sent ∈ state.progress := by
  rw [RpcState.unanswered, List.mem_filterMap]
  constructor
  · rintro ⟨progress, listed, isSent⟩
    cases progress with
    | awaiting other =>
        obtain rfl := Option.some.inj isSent
        exact listed
    | _ => cases isSent
  · intro listed
    exact ⟨_, listed, rfl⟩

theorem unanswered_sublist (progress : List Progress) :
    ((progress.filterMap Progress.unanswered).map SentRequest.packet).Sublist
      (progress.filterMap Progress.packet?) := by
  induction progress with
  | nil => exact List.Sublist.refl _
  | cons entry rest ih =>
      have kept := ih.trans ((List.sublist_cons_self entry rest).filterMap _)
      cases entry with
      | awaiting sent => exact ih.cons_cons sent.packet
      | _ => exact kept

theorem RpcInv.settled {state : RpcState} (inv : RpcInv state) :
    Settled state := by
  refine ⟨?_, ?_, inv.distinct.sublist (unanswered_sublist _), inv.once,
    inv.own⟩
  · intro client between
    rw [Option.ne_none_iff_exists']
    constructor
    · rintro ⟨packet, inUse⟩
      obtain ⟨sent, member, same, -⟩ := (inv.held client packet).mp inUse
      obtain ⟨progress, listed, holds⟩ := List.mem_filterMap.mp member
      cases progress with
      | claimed request other =>
          obtain rfl := Option.some.inj holds
          exact (between request other listed same).elim
      | awaiting other =>
          obtain rfl := Option.some.inj holds
          exact ⟨other, mem_unanswered.mpr listed, same⟩
      | _ => cases holds
    · rintro ⟨sent, member, same⟩
      exact ⟨sent.packet, (inv.held client sent.packet).mpr
        ⟨sent, List.mem_filterMap.mpr ⟨_, mem_unanswered.mp member, rfl⟩, same,
          rfl⟩⟩
  · intro quiet packet
    rw [inv.allocated]
    constructor
    · intro member
      obtain ⟨progress, listed, owns⟩ := List.mem_filterMap.mp member
      cases progress with
      | awaiting sent =>
          exact ⟨sent, mem_unanswered.mpr listed, Option.some.inj owns⟩
      | _ => exact (quiet _ listed rfl).elim
    · rintro ⟨sent, member, rfl⟩
      exact List.mem_filterMap.mpr ⟨_, mem_unanswered.mp member, rfl⟩

theorem errorsHarmless_accepted (state : RpcState) :
    ErrorsHarmless true state := by
  intro request
  rw [rpcOperation]
  split
  · exact fun _ => ⟨rfl, fun _ => Iff.rfl⟩
  · split
    · exact fun _ => ⟨rfl, fun _ => Iff.rfl⟩
    · rename_i packet next taken
      obtain ⟨free, allocated, clients, -⟩ := rpcGetPacket_spec taken
      split
      · refine fun _ => ⟨clients, ?_⟩
        intro other
        rw [allocated_rpcPacketFree, allocated other]
        constructor
        · rintro ⟨different, either⟩
          exact either.resolve_left different
        · intro before
          refine ⟨?_, .inr before⟩
          rintro rfl
          exact free before
      · intro failed
        exact (failed rfl).elim

/-- An operation without interruption is a run of the machine. -/
theorem rpcOperation_reach {state : RpcState}
    (reached : rpcMachine.Reach Delivered state) (request : RpcRequest) :
    rpcMachine.Reach Delivered (rpcOperation request true state).2 := by
  let outside : Outside :=
    { accepted := true, reply := { server := 0, buff := 0, cbuff := 0 } }
  have resumed {before : RpcState} {progress : Progress}
      (pushed : rpcMachine.Reach Delivered (before.push progress)) :
      rpcMachine.Reach Delivered (resumeRequest outside before progress) :=
    pushed.step (.resume 0 outside) (fun _ _ _ => rfl) rfl
  have started := reached.step (Event.start request) trivial rfl
  rw [startRequest] at started
  rw [rpcOperation]
  split at started <;> rename_i aligned
  · rw [if_pos aligned]
    exact reached
  · rw [if_neg aligned]
    split at started <;> rename_i taken
    · exact reached
    · rename_i packet next
      have looked := resumed started
      rw [resumeRequest] at looked
      dsimp only
      split at looked <;> rename_i inUse
      · rw [if_pos inUse]
        exact resumed looked
      · rw [if_neg inUse]
        exact resumed looked

theorem rpc_settled {state : RpcState}
    (reached : rpcMachine.Reach Delivered state) :
    Settled state ∧ ErrorsHarmless true state ∧
      ∀ request, rpcMachine.Reach Delivered
        (rpcOperation request true state).2 := by
  have inv : RpcInv state := reached.invariant rpcInv_initial
    fun _ _ _ inv delivered stepped => rpcStep_inv inv delivered stepped
  exact ⟨inv.settled, errorsHarmless_accepted state, rpcOperation_reach reached⟩

def printBind : RpcRequest :=
  { client := 5, operation := .bind 0x80000006, endFunction := 7, endParam := 9
    present := by decide }

theorem rpc_settled_bind : ∃ state, rpcMachine.Reach Delivered state ∧
    state.sent = [{ request := printBind, packet := 0 }] ∧
    state.ended = [({ request := printBind, packet := 0 }, 7, 9)] ∧
    Settled state := by
  let outside : Outside :=
    { accepted := true, reply := { server := 1, buff := 2, cbuff := 3 } }
  have met (state : RpcState) (index : Nat) :
      Delivered state (.resume index outside) := fun _ _ _ => rfl
  have start : rpcMachine.Reach Delivered rpcMachine.initial := .initial
  have allocated := start.step (Event.start printBind) trivial rfl
  have claimed := allocated.step (.resume 0 outside) (met _ _) rfl
  have sent := claimed.step (.resume 0 outside) (met _ _) rfl
  have answered := sent.step (.resume 0 outside) (met _ _) rfl
  have called := answered.step (.resume 0 outside) (met _ _) rfl
  have finished := called.step (.resume 0 outside) (met _ _) rfl
  exact ⟨_, finished, rfl, rfl, (rpc_settled finished).1⟩

/-- After a bind that could not be sent, the client is in use and nothing is
unanswered. -/
theorem rpc_not_settled : ¬ ∀ state,
    rpcMachine.Reach (fun _ _ => True) state →
      Settled state ∧ ∀ accepted, ErrorsHarmless accepted state := by
  intro always
  let outside : Outside :=
    { accepted := false, reply := { server := 1, buff := 2, cbuff := 3 } }
  have start : rpcMachine.Reach (fun _ _ => True) rpcMachine.initial := .initial
  have allocated := start.step (Event.start printBind) trivial rfl
  have claimed := allocated.step (.resume 0 outside) trivial rfl
  have refused := claimed.step (.resume 0 outside) trivial rfl
  have returned := refused.step (.resume 0 outside) trivial rfl
  have settled := (always _ returned).1
  obtain ⟨sent, member, -⟩ := (settled.inUse printBind.client nofun).mp nofun
  cases member

end KernelReloaded.SifRpc
