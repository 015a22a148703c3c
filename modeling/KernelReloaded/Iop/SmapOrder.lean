/-
Frames leave the transmit queue in order, and buffers return to the pool.

Two slips of the source break this.  A frame stored into the empty queue is
released although it is queued, so the pool may hand its buffer out again, and a
frame that `SMap_Send` refuses is never released.  The results here are about the
runs that stay clear of both, and of requests larger than a buffer.
-/

import KernelReloaded.Iop.SmapQueue

namespace KernelReloaded.Smap

open Memory

/-! ### What is wanted -/

/-- Accepted frames are passed on in order, once and with their bytes; a buffer
of the sender that is in use waits in the queue or for it. -/
structure Orderly (state : SmapState) : Prop where
  inOrder : state.accepted =
    state.passed ++ state.queue.toList.map state.frame
  returned : ∀ index, state.owner index = .sender →
    (state.buffers index).ref ≠ 0 →
      index ∈ state.queue.toList ∨ state.sending = some index

def handedOut (state : SmapState) : Event → Option Nat
  | .request bytes dmaDone =>
      if state.sending = none then (allocFrame dmaDone bytes .sender state).1
      else none
  | .receive bytes dmaDone _ =>
      if rxMinSize ≤ bytes.length ∧ bytes.length ≤ rxMaxSize then
        (allocFrame dmaDone bytes .receiver state).1
      else none
  | _ => none

/-- If the first request's buffer counts as free, a smaller one is free too. -/
def PoolSafe (dmaDone : Int → Bool) (state : SmapState) : Prop :=
  ∀ index, state.queue.toList.head? = some index →
    (state.buffers index).ref = 0 →
      ∃ smaller < index,
        ((pbufCheckTransfers dmaDone state).buffers smaller).ref = 0

/-- The condition on an event: allocations find a free buffer before that of
the first request, requests fit a buffer, and a frame that comes to the empty
queue is not refused. -/
def Met (state : SmapState) : Event → Prop
  | .request bytes dmaDone =>
      PoolSafe dmaDone state ∧ bytes.length ≤ frameSize
  | .receive bytes dmaDone _ =>
      rxMinSize ≤ bytes.length ∧ bytes.length ≤ rxMaxSize →
        PoolSafe dmaDone state
  | .attempt answer =>
      state.queue.count = 0 → answer ≠ .err ∧ answer ≠ .con
  | _ => True

/-! ### The invariant -/

/-- A buffer that belongs to the `smap_send` in progress. -/
structure Held (state : SmapState) (index : Nat) : Prop where
  inPool : index < numberOfBuffers
  unqueued : index ∉ state.queue.toList
  used : (state.buffers index).ref ≠ 0
  noTransfer : (state.buffers index).id = 0
  short : (state.buffers index).len ≤ frameSize

structure SmapInv (state : SmapState) : Prop where
  orderly : Orderly state
  distinct : state.queue.toList.Nodup
  room : state.queue.count ≤ maxReqCnt
  inPool : ∀ index ∈ state.queue.toList, index < numberOfBuffers
  noTransfer : ∀ index ∈ state.queue.toList, (state.buffers index).id = 0
  short : ∀ index ∈ state.queue.toList, (state.buffers index).len ≤ frameSize
  /-- Only the first request may have lost its reference. -/
  later : ∀ index ∈ state.queue.toList.tail, (state.buffers index).ref ≠ 0
  held : ∀ index, state.sending = some index → Held state index

theorem smapInv_initial : SmapInv smapMachine.initial := by
  have empty : smapMachine.initial.queue.toList = [] := rfl
  refine ⟨⟨rfl, fun index owned => by cases owned⟩, ?_, Nat.zero_le _, ?_, ?_,
    ?_, ?_, fun index sending => by cases sending⟩
  · rw [empty]
    exact List.nodup_nil
  all_goals
    rw [empty]
    exact nofun

/-- The queue's part of the invariant only depends on the queued buffers. -/
theorem SmapInv.carry {state next : SmapState} (inv : SmapInv state)
    (sameQueue : next.queue = state.queue)
    (records : next.accepted = state.accepted ∧ next.passed = state.passed)
    (kept : ∀ index ∈ state.queue.toList,
      next.buffers index = state.buffers index ∧
        next.frame index = state.frame index)
    (returned : ∀ index, next.owner index = .sender →
      (next.buffers index).ref ≠ 0 →
        index ∈ state.queue.toList ∨ next.sending = some index)
    (held : ∀ index, next.sending = some index → Held next index) :
    SmapInv next := by
  have frames : next.queue.toList.map next.frame =
      state.queue.toList.map state.frame := by
    rw [sameQueue]
    exact List.map_congr_left fun index member => (kept index member).2
  have sameBuffer {index : Nat} (member : index ∈ next.queue.toList) :
      index ∈ state.queue.toList ∧ next.buffers index = state.buffers index := by
    rw [sameQueue] at member
    exact ⟨member, (kept index member).1⟩
  exact
    { orderly :=
        { inOrder := by
            rw [records.1, records.2, frames]
            exact inv.orderly.inOrder
          returned := sameQueue ▸ returned }
      distinct := sameQueue ▸ inv.distinct
      room := sameQueue ▸ inv.room
      inPool := sameQueue ▸ inv.inPool
      noTransfer := by
        intro index member
        rw [(sameBuffer member).2]
        exact inv.noTransfer index (sameBuffer member).1
      short := by
        intro index member
        rw [(sameBuffer member).2]
        exact inv.short index (sameBuffer member).1
      later := by
        intro index member
        rw [(sameBuffer (List.mem_of_mem_tail member)).2]
        rw [sameQueue] at member
        exact inv.later index member
      held := held }

/-! ### Allocation -/

theorem pbufCheckTransfers_buffer (dmaDone : Int → Bool) {state : SmapState}
    {index : Nat} (noTransfer : (state.buffers index).id = 0) :
    (pbufCheckTransfers dmaDone state).buffers index = state.buffers index :=
  if_neg fun complete => complete.2.2.1 noTransfer

theorem pbufCheckTransfers_ref (dmaDone : Int → Bool) (state : SmapState)
    (index : Nat)
    (used : ((pbufCheckTransfers dmaDone state).buffers index).ref ≠ 0) :
    (state.buffers index).ref ≠ 0 := by
  by_contra unused
  apply used
  rw [pbufCheckTransfers]
  dsimp only
  rw [if_neg fun complete => complete.2.1 unused, unused]

theorem frame_copyBytes {state next : SmapState} {index other : Nat}
    {bytes : List Byte} (different : other ≠ index)
    (fits : bytes.length ≤ frameSize)
    (short : (state.buffers other).len ≤ frameSize)
    (sameBuffer : next.buffers other = state.buffers other)
    (copied : next.payload =
      copyBytes state.payload (frameSize * index) bytes) :
    next.frame other = state.frame other := by
  rw [SmapState.frame, SmapState.frame, sameBuffer, copied]
  apply List.map_congr_left
  intro offset member
  have inside := List.mem_range.mp member
  have size : frameSize = 1536 := rfl
  apply if_neg
  rintro ⟨low, high⟩
  rw [size] at low high fits short
  rcases Nat.lt_or_gt_of_ne different with before | behind <;> omega

theorem freeBuffer_spec {state : SmapState} {index : Nat}
    (found : freeBuffer state = some index) :
    index < numberOfBuffers ∧ (state.buffers index).ref = 0 ∧
      ∀ smaller < index, (state.buffers smaller).ref ≠ 0 := by
  rw [freeBuffer, List.find?_range_eq_some] at found
  obtain ⟨free, member, first⟩ := found
  refine ⟨List.mem_range.mp member, by simpa using free, ?_⟩
  intro smaller before
  simpa using first smaller before

/-- A safe pool hands out neither a queued buffer nor the sender's. -/
theorem freeBuffer_unguarded {state : SmapState} (inv : SmapInv state)
    {dmaDone : Int → Bool} (safe : PoolSafe dmaDone state) {index : Nat}
    (found : freeBuffer (pbufCheckTransfers dmaDone state) = some index) :
    index ∉ state.queue.toList ∧ state.sending ≠ some index := by
  obtain ⟨-, free, first⟩ := freeBuffer_spec found
  constructor
  · intro queued
    rw [pbufCheckTransfers_buffer dmaDone (inv.noTransfer index queued)] at free
    cases shape : state.queue.toList with
    | nil =>
        rw [shape] at queued
        cases queued
    | cons head rest =>
        rw [shape] at queued
        rcases List.mem_cons.mp queued with rfl | behind
        · obtain ⟨smaller, before, smallerFree⟩ :=
            safe index (by rw [shape]; rfl) free
          exact first smaller before smallerFree
        · exact inv.later index (by rw [shape]; exact behind) free
  · intro sending
    have held := inv.held index sending
    rw [pbufCheckTransfers_buffer dmaDone held.noTransfer] at free
    exact held.used free

def Guarded (state : SmapState) (index : Nat) : Prop :=
  index ∈ state.queue.toList ∨ state.sending = some index

/-- What an allocation does to a state whose queue is in order. -/
structure Allocated (state : SmapState) (owner : Owner) (index : Option Nat)
    (next : SmapState) : Prop where
  sameQueue : next.queue = state.queue
  sameSending : next.sending = state.sending
  records : next.accepted = state.accepted ∧ next.passed = state.passed
  guarded : ∀ other, Guarded state other → some other ≠ index ∧
    next.buffers other = state.buffers other ∧
    next.frame other = state.frame other
  others : ∀ other, some other ≠ index → next.owner other = state.owner other ∧
    ((next.buffers other).ref ≠ 0 → (state.buffers other).ref ≠ 0)
  obtained : ∀ other, index = some other → other < numberOfBuffers ∧
    next.owner other = owner ∧ (next.buffers other).ref = 1 ∧
    (next.buffers other).id = 0 ∧ (next.buffers other).len ≤ frameSize

theorem allocFrame_spec {state : SmapState} (inv : SmapInv state)
    {dmaDone : Int → Bool} (safe : PoolSafe dmaDone state)
    {bytes : List Byte} (fits : bytes.length ≤ frameSize) (owner : Owner) :
    Allocated state owner (allocFrame dmaDone bytes owner state).1
      (allocFrame dmaDone bytes owner state).2 := by
  have size : frameSize = 1536 := rfl
  have idle (other : Nat) (guarded : Guarded state other) :
      (state.buffers other).id = 0 ∧ (state.buffers other).len ≤ frameSize := by
    rcases guarded with queued | sending
    · exact ⟨inv.noTransfer other queued, inv.short other queued⟩
    · exact ⟨(inv.held other sending).noTransfer, (inv.held other sending).short⟩
  have checked (other : Nat) (guarded : Guarded state other) :=
    pbufCheckTransfers_buffer dmaDone (idle other guarded).1
  rw [allocFrame]
  cases found : freeBuffer (pbufCheckTransfers dmaDone state) with
  | none =>
      refine ⟨rfl, rfl, ⟨rfl, rfl⟩, ?_, ?_, nofun⟩
      · intro other guarded
        refine ⟨nofun, checked other guarded, ?_⟩
        rw [SmapState.frame, SmapState.frame, checked other guarded]
        rfl
      · intro other _
        exact ⟨rfl, pbufCheckTransfers_ref dmaDone state other⟩
  | some index =>
      obtain ⟨inPool, free, -⟩ := freeBuffer_spec found
      obtain ⟨unqueued, notSending⟩ := freeBuffer_unguarded inv safe found
      refine ⟨rfl, rfl, ⟨rfl, rfl⟩, ?_, ?_, ?_⟩
      · intro other guarded
        have different : other ≠ index := by
          rintro rfl
          rcases guarded with queued | sending
          · exact unqueued queued
          · exact notSending sending
        have sameBuffer := checked other guarded
        refine ⟨fun same => different (Option.some.inj same), ?_, ?_⟩
        · exact (Function.update_of_ne different _ _).trans sameBuffer
        · exact frame_copyBytes different fits (idle other guarded).2
            ((Function.update_of_ne different _ _).trans sameBuffer) rfl
      · intro other otherIndex
        have different : other ≠ index := fun same =>
          otherIndex (congrArg some same)
        refine ⟨Function.update_of_ne different _ _, ?_⟩
        intro used
        apply pbufCheckTransfers_ref dmaDone state other
        rwa [← Function.update_of_ne different (f :=
          (pbufCheckTransfers dmaDone state).buffers)]
      · intro other same
        obtain rfl := Option.some.inj same
        have buffer : (((pbufCheckTransfers dmaDone state).setBuffer index
            { len := bytes.length % 65536
              ref := ((pbufCheckTransfers dmaDone state).buffers index).ref + 1
              id := 0 }).buffers index) =
            { len := bytes.length % 65536, ref := 1, id := 0 } := by
          rw [free]
          exact Function.update_self ..
        refine ⟨inPool, Function.update_self .., ?_⟩
        dsimp only
        rw [buffer]
        exact ⟨rfl, rfl, (Nat.mod_le _ _).trans fits⟩

/-! ### Steps of the sender and the receiver -/

theorem Held.transfer {state next : SmapState} {index : Nat}
    (held : Held state index) (sameQueue : next.queue = state.queue)
    (sameBuffer : next.buffers index = state.buffers index) :
    Held next index := by
  refine ⟨held.inPool, ?_, ?_, ?_, ?_⟩
  · rw [sameQueue]
    exact held.unqueued
  · rw [sameBuffer]
    exact held.used
  · rw [sameBuffer]
    exact held.noTransfer
  · rw [sameBuffer]
    exact held.short

theorem SmapInv.received {state next last : SmapState} (inv : SmapInv state)
    {index : Option Nat} (spec : Allocated state .receiver index next)
    (same : last.queue = next.queue ∧ last.sending = next.sending ∧
      last.accepted = next.accepted ∧ last.passed = next.passed ∧
      last.payload = next.payload ∧ last.owner = next.owner)
    (others : ∀ other, some other ≠ index →
      last.buffers other = next.buffers other) : SmapInv last := by
  obtain ⟨queue, sending, accepted, passed, payload, owner⟩ := same
  have guarded (other : Nat) (guard : Guarded state other) :
      last.buffers other = state.buffers other ∧
        last.frame other = state.frame other := by
    obtain ⟨different, sameBuffer, sameFrame⟩ := spec.guarded other guard
    refine ⟨(others other different).trans sameBuffer, ?_⟩
    rw [← sameFrame, SmapState.frame, SmapState.frame, others other different,
      payload]
  apply inv.carry (queue.trans spec.sameQueue)
    ⟨accepted.trans spec.records.1, passed.trans spec.records.2⟩
  · intro other queued
    exact guarded other (.inl queued)
  · intro other owned used
    rw [owner] at owned
    have different : some other ≠ index := by
      intro obtained
      rw [(spec.obtained other obtained.symm).2.1] at owned
      cases owned
    obtain ⟨sameOwner, wasUsed⟩ := spec.others other different
    rw [others other different] at used
    rw [sending, spec.sameSending]
    exact inv.orderly.returned other (sameOwner ▸ owned) (wasUsed used)
  · intro other isSending
    rw [sending, spec.sameSending] at isSending
    exact (inv.held other isSending).transfer (queue.trans spec.sameQueue)
      (guarded other (.inr isSending)).1

theorem receiveFrame_inv {state : SmapState} (inv : SmapInv state)
    {bytes : List Byte} {dmaDone : Int → Bool} {id : Int}
    (safe : rxMinSize ≤ bytes.length ∧ bytes.length ≤ rxMaxSize →
      PoolSafe dmaDone state) :
    SmapInv (receiveFrame bytes dmaDone id state) := by
  have size : rxMaxSize ≤ frameSize := by decide
  rw [receiveFrame]
  split <;> rename_i sized
  · have spec := allocFrame_spec inv (safe sized) (sized.2.trans size)
      .receiver
    cases taken : allocFrame dmaDone bytes .receiver state with
    | mk index next =>
        rw [taken] at spec
        cases index with
        | none =>
            exact inv.received spec ⟨rfl, rfl, rfl, rfl, rfl, rfl⟩
              fun other _ => rfl
        | some index =>
            refine inv.received spec ⟨rfl, rfl, rfl, rfl, rfl, rfl⟩ ?_
            intro other different
            exact Function.update_of_ne
              (fun same => different (congrArg some same)) _ _
  · exact inv

theorem request_inv {state : SmapState} (inv : SmapInv state)
    {bytes : List Byte} {dmaDone : Int → Bool} (idle : state.sending = none)
    (safe : PoolSafe dmaDone state) (fits : bytes.length ≤ frameSize) :
    SmapInv { (allocFrame dmaDone bytes .sender state).2 with
      sending := (allocFrame dmaDone bytes .sender state).1 } := by
  have spec := allocFrame_spec inv safe fits .sender
  cases taken : allocFrame dmaDone bytes .sender state with
  | mk index next =>
      rw [taken] at spec
      dsimp only at spec ⊢
      refine inv.carry spec.sameQueue spec.records ?_ ?_ ?_
      · intro other queued
        exact (spec.guarded other (.inl queued)).2
      · intro other owned used
        by_cases obtained : some other = index
        · exact .inr obtained.symm
        · obtain ⟨sameOwner, wasUsed⟩ := spec.others other obtained
          rcases inv.orderly.returned other (sameOwner ▸ owned)
            (wasUsed used) with queued | sending
          · exact .inl queued
          · rw [idle] at sending
            cases sending
      · intro other obtained
        obtain ⟨inPool, -, ref, id, len⟩ := spec.obtained other obtained
        refine ⟨inPool, ?_, ?_, id, len⟩
        · intro queued
          rw [spec.sameQueue] at queued
          exact (spec.guarded other (.inl queued)).1 obtained.symm
        · exact ref ▸ Nat.one_ne_zero

/-! ### Steps of the queue -/

theorem pbufFree_self (state : SmapState) (index : Nat) :
    (pbufFree state index).buffers index =
      { state.buffers index with id := 0, ref := 0 } :=
  Function.update_self ..

theorem storeLast_self (state : SmapState) (index : Nat) :
    (storeLast state index).buffers index =
      { state.buffers index with ref := (state.buffers index).ref + 1 } :=
  Function.update_self ..

theorem pbufFree_buffer {state : SmapState} {index other : Nat}
    (different : other ≠ index) :
    (pbufFree state index).buffers other = state.buffers other :=
  Function.update_of_ne different _ _

theorem SmapInv.queued_of_used {state : SmapState} (inv : SmapInv state)
    {index : Nat} (sending : state.sending = some index) {other : Nat}
    (different : other ≠ index) (owned : state.owner other = .sender)
    (used : (state.buffers other).ref ≠ 0) : other ∈ state.queue.toList := by
  rcases inv.orderly.returned other owned used with queued | same
  · exact queued
  · rw [sending] at same
    exact (different (Option.some.inj same).symm).elim

theorem sentAtOnce_inv {state : SmapState} (inv : SmapInv state) {index : Nat}
    (sending : state.sending = some index) (empty : state.queue.count = 0) :
    SmapInv { pbufFree (pass (accept state index) index) index with
      sending := none } := by
  have noRequests := state.queue.toList_eq_nil_iff.mpr empty
  have inOrder := inv.orderly.inOrder
  rw [noRequests, List.map_nil, List.append_nil] at inOrder
  refine ⟨⟨?_, ?_⟩, inv.distinct, inv.room, inv.inPool, ?_, ?_, ?_, nofun⟩
  · change state.accepted ++ [state.frame index] =
      (state.passed ++ [state.frame index]) ++ state.queue.toList.map _
    rw [noRequests, List.map_nil, List.append_nil, inOrder]
  · intro other owned used
    by_cases same : other = index
    · subst other
      exact (used (congrArg Pbuf.ref (pbufFree_self _ _))).elim
    · have freed : (pbufFree (pass (accept state index) index) index).buffers
          other = state.buffers other := pbufFree_buffer same
      dsimp only at used
      rw [freed] at used
      exact .inl (inv.queued_of_used sending same owned used)
  · change ∀ other ∈ state.queue.toList, _
    rw [noRequests]
    exact nofun
  · change ∀ other ∈ state.queue.toList, _
    rw [noRequests]
    exact nofun
  · change ∀ other ∈ state.queue.toList.tail, _
    rw [noRequests]
    exact nofun

/-- The frame in progress is stored behind the requests, with some reference
count.  Only in front may that be zero. -/
theorem stored_inv {state next : SmapState} (inv : SmapInv state) {index : Nat}
    (sending : state.sending = some index)
    (room : state.queue.count < maxReqCnt) (idle : next.sending = none)
    (queue : next.queue = state.queue.storeLast index)
    (records : next.accepted = state.accepted ++ [state.frame index] ∧
      next.passed = state.passed)
    (memory : next.payload = state.payload ∧ next.owner = state.owner)
    (others : ∀ other, other ≠ index →
      next.buffers other = state.buffers other)
    (stored : (next.buffers index).id = 0 ∧
      (next.buffers index).len = (state.buffers index).len)
    (counted : state.queue.count ≠ 0 → (next.buffers index).ref ≠ 0) :
    SmapInv next := by
  have held := inv.held index sending
  have requests : next.queue.toList = state.queue.toList ++ [index] := by
    rw [queue, Ring.toList_storeLast _ room]
  have frames : ∀ other, next.frame other = state.frame other := by
    intro other
    rw [SmapState.frame, SmapState.frame, memory.1]
    by_cases same : other = index
    · rw [same, stored.2]
    · rw [others other same]
  have queuedOther {other : Nat} (queued : other ∈ state.queue.toList) :
      other ≠ index := by
    rintro rfl
    exact held.unqueued queued
  -- What holds of the queued buffers and of the new one holds of the queue.
  have each (holds : Nat → Pbuf → Prop) (before : ∀ other ∈ state.queue.toList,
      holds other (state.buffers other)) (last : holds index (next.buffers index)) :
      ∀ other ∈ next.queue.toList, holds other (next.buffers other) := by
    intro other member
    rw [requests] at member
    rcases List.mem_append.mp member with queued | isLast
    · rw [others other (queuedOther queued)]
      exact before other queued
    · rw [List.mem_singleton.mp isLast]
      exact last
  have inOrder : next.accepted =
      next.passed ++ next.queue.toList.map next.frame := by
    rw [records.1, records.2, requests, List.map_append, List.map_singleton,
      frames, List.map_congr_left (fun other _ => frames other),
      inv.orderly.inOrder, List.append_assoc]
  have returned : ∀ other, next.owner other = .sender →
      (next.buffers other).ref ≠ 0 →
        other ∈ next.queue.toList ∨ next.sending = some other := by
    intro other owned used
    rw [memory.2] at owned
    rw [requests]
    left
    by_cases same : other = index
    · exact List.mem_append_right _ (List.mem_singleton.mpr same)
    · rw [others other same] at used
      exact List.mem_append_left _ (inv.queued_of_used sending same owned used)
  have distinct : next.queue.toList.Nodup := by
    rw [requests, List.nodup_append]
    refine ⟨inv.distinct, List.nodup_singleton _, ?_⟩
    intro other queued last isLast
    rw [List.mem_singleton.mp isLast]
    exact queuedOther queued
  have count : next.queue.count ≤ maxReqCnt := by
    rw [← Ring.length_toList, requests, List.length_append, Ring.length_toList,
      List.length_singleton]
    exact room
  have later : ∀ other ∈ next.queue.toList.tail,
      (next.buffers other).ref ≠ 0 := by
    intro other member
    rw [requests] at member
    by_cases empty : state.queue.count = 0
    · rw [state.queue.toList_eq_nil_iff.mpr empty] at member
      cases member
    · have nonempty : state.queue.toList ≠ [] := fun none =>
        empty (state.queue.toList_eq_nil_iff.mp none)
      rw [List.tail_append_of_ne_nil nonempty] at member
      rcases List.mem_append.mp member with queued | isLast
      · rw [others other (queuedOther (List.mem_of_mem_tail queued))]
        exact inv.later other queued
      · rw [List.mem_singleton.mp isLast]
        exact counted empty
  exact
    { orderly := ⟨inOrder, returned⟩
      distinct := distinct
      room := count
      inPool := each (fun other _ => other < numberOfBuffers) inv.inPool
        held.inPool
      noTransfer := each (fun _ buffer => buffer.id = 0) inv.noTransfer stored.1
      short := each (fun _ buffer => buffer.len ≤ frameSize) inv.short
        (stored.2.trans_le held.short)
      later := later
      held := by
        intro other isSending
        rw [idle] at isSending
        cases isSending }

theorem attempt_inv {state : SmapState} (inv : SmapInv state) {index : Nat}
    (sending : state.sending = some index) {answer : SmapStatus}
    (notRefused : state.queue.count = 0 → answer ≠ .err ∧ answer ≠ .con) :
    SmapInv { (addToQueue answer state index).2 with
      sending := if (addToQueue answer state index).1 = .tx then some index
        else none } := by
  have held := inv.held index sending
  have eight : maxReqCnt = 8 := rfl
  have buffer := storeLast_self (accept state index) index
  have sameLen : ((storeLast (accept state index) index).buffers index).len =
      (state.buffers index).len := by
    rw [buffer]
    rfl
  by_cases empty : state.queue.count = 0
  · obtain ⟨notErr, notCon⟩ := notRefused empty
    cases answer with
    | ok =>
        rw [addToQueue, if_pos empty]
        exact sentAtOnce_inv inv sending empty
    | tx =>
        rw [addToQueue, if_pos empty]
        refine stored_inv inv sending (by omega) rfl rfl ⟨rfl, rfl⟩ ⟨rfl, rfl⟩
          ?_ ⟨?_, ?_⟩ (fun counted => (counted empty).elim)
        · intro other different
          exact (pbufFree_buffer different).trans
            (Function.update_of_ne different _ _)
        · exact congrArg Pbuf.id (pbufFree_self _ _)
        · exact (congrArg Pbuf.len (pbufFree_self _ _)).trans sameLen
    | err => exact (notErr rfl).elim
    | con => exact (notCon rfl).elim
  · by_cases room : state.queue.count < maxReqCnt
    · rw [addToQueue.eq_def, if_neg empty, if_pos room]
      refine stored_inv inv sending room rfl rfl ⟨rfl, rfl⟩ ⟨rfl, rfl⟩ ?_
        ⟨?_, ?_⟩ ?_
      · intro other different
        exact Function.update_of_ne different _ _
      · exact (congrArg Pbuf.id buffer).trans held.noTransfer
      · exact sameLen
      · intro _ lost
        exact Nat.succ_ne_zero _ ((congrArg Pbuf.ref buffer).symm.trans lost)
    · rw [addToQueue.eq_def, if_neg empty, if_neg room]
      dsimp only
      rw [if_pos rfl, ← sending]
      exact inv

theorem SmapInv.timeout {state : SmapState} (inv : SmapInv state)
    (timeoutCnt : Int) : SmapInv { state with timeoutCnt := timeoutCnt } :=
  ⟨⟨inv.orderly.inOrder, inv.orderly.returned⟩, inv.distinct, inv.room,
    inv.inPool, inv.noTransfer, inv.short, inv.later,
    fun index sending => (inv.held index sending).transfer rfl rfl⟩

theorem sentFirst_inv {state : SmapState} (inv : SmapInv state)
    (nonempty : 0 < state.queue.count) :
    SmapInv
      { pbufFree (pass state (state.queue.slots state.queue.first))
          (state.queue.slots state.queue.first) with
        queue := state.queue.dropFirst } := by
  have shape := state.queue.toList_of_count_pos nonempty
  generalize state.queue.slots state.queue.first = request at shape ⊢
  have distinct := inv.distinct
  rw [shape, List.nodup_cons] at distinct
  have queued {other : Nat} (member : other ∈ state.queue.dropFirst.toList) :
      other ∈ state.queue.toList ∧ other ≠ request := by
    rw [shape]
    refine ⟨List.mem_cons_of_mem _ member, ?_⟩
    rintro rfl
    exact distinct.1 member
  have others {other : Nat} (different : other ≠ request) :
      (pbufFree (pass state request) request).buffers other =
        state.buffers other := pbufFree_buffer different
  have frames (other : Nat) (member : other ∈ state.queue.dropFirst.toList) :
      (pbufFree (pass state request) request).frame other =
        state.frame other := by
    rw [SmapState.frame, SmapState.frame, others (queued member).2]
    rfl
  have inOrder : state.accepted = (state.passed ++ [state.frame request]) ++
      state.queue.dropFirst.toList.map
        (pbufFree (pass state request) request).frame := by
    rw [List.map_congr_left frames, inv.orderly.inOrder, shape, List.map_cons,
      List.append_assoc, List.singleton_append]
  have returned (other : Nat) (owned : state.owner other = .sender)
      (used : ((pbufFree (pass state request) request).buffers other).ref ≠ 0) :
      other ∈ state.queue.dropFirst.toList ∨ state.sending = some other := by
    have different : other ≠ request := by
      rintro rfl
      exact used (congrArg Pbuf.ref (pbufFree_self _ _))
    rw [others different] at used
    rcases inv.orderly.returned other owned used with member | sending
    · rw [shape] at member
      exact Or.inl ((List.mem_cons.mp member).resolve_left different)
    · exact Or.inr sending
  -- What holds of all queued buffers still holds of those behind the first.
  have each (holds : Pbuf → Prop) (before : ∀ other ∈ state.queue.toList,
      holds (state.buffers other)) :
      ∀ other ∈ state.queue.dropFirst.toList,
        holds ((pbufFree (pass state request) request).buffers other) := by
    intro other member
    rw [others (queued member).2]
    exact before other (queued member).1
  have later : ∀ other ∈ state.queue.dropFirst.toList.tail,
      ((pbufFree (pass state request) request).buffers other).ref ≠ 0 := by
    intro other member
    have behind := List.mem_of_mem_tail member
    rw [others (queued behind).2]
    exact inv.later other (by rw [shape]; exact behind)
  have held (other : Nat) (sending : state.sending = some other) :
      Held { pbufFree (pass state request) request with
        queue := state.queue.dropFirst } other := by
    have held := inv.held other sending
    have different : other ≠ request := by
      rintro rfl
      exact held.unqueued (by rw [shape]; exact List.mem_cons_self)
    have same := others different
    exact
      { inPool := held.inPool
        unqueued := fun member => held.unqueued (queued member).1
        used := fun unused => held.used (same ▸ unused)
        noTransfer := (congrArg Pbuf.id same).trans held.noTransfer
        short := (congrArg Pbuf.len same).trans_le held.short }
  exact
    { orderly := ⟨inOrder, returned⟩
      distinct := distinct.2
      room := (Nat.sub_le _ _).trans inv.room
      inPool := fun other member => inv.inPool other (queued member).1
      noTransfer := each (fun buffer => buffer.id = 0) inv.noTransfer
      short := each (fun buffer => buffer.len ≤ frameSize) inv.short
      later := later
      held := held }

/-- Serving the queue, by induction on the number of requests. -/
theorem sendRequests_inv (answers : Nat → SmapStatus) (requests calls : Nat)
    {state : SmapState} (inv : SmapInv state)
    (counted : state.queue.count = requests) :
    SmapInv (sendRequests answers requests calls state) := by
  induction requests generalizing calls state with
  | zero => exact inv
  | succ requests ih =>
      rw [sendRequests]
      dsimp only
      split
      · exact inv.timeout 0
      · refine ih (calls + 1) (sentFirst_inv (inv.timeout 0) ?_) ?_
        · exact counted ▸ Nat.succ_pos requests
        · change state.queue.count - 1 = requests
          rw [counted, Nat.add_sub_cancel]

theorem queueHandler_inv (answers : Nat → SmapStatus) {state : SmapState}
    (inv : SmapInv state) : SmapInv (queueHandler answers state) :=
  sendRequests_inv answers _ 0 inv rfl

theorem timer_inv (answers : Nat → SmapStatus) {state : SmapState}
    (inv : SmapInv state) : SmapInv (timer answers state) := by
  rw [timer]
  dsimp only
  split
  · exact inv
  · split
    · exact queueHandler_inv answers (inv.timeout _)
    · exact inv.timeout _

/-! ### Runs -/

theorem smapStep_inv {state next : SmapState} {event : Event}
    (inv : SmapInv state) (met : Met state event)
    (stepped : smapStep state event = some next) : SmapInv next := by
  cases event with
  | request bytes dmaDone =>
      cases sending : state.sending with
      | some index =>
          rw [smapStep, sending] at stepped
          cases stepped
      | none =>
          rw [smapStep, sending] at stepped
          obtain rfl := Option.some.inj stepped
          exact request_inv inv sending met.1 met.2
  | attempt answer =>
      cases sending : state.sending with
      | none =>
          rw [smapStep, sending] at stepped
          cases stepped
      | some index =>
          rw [smapStep, sending] at stepped
          obtain rfl := Option.some.inj stepped
          exact attempt_inv inv sending met
  | txInterrupt answers =>
      obtain rfl := Option.some.inj stepped
      exact queueHandler_inv answers inv
  | tick answers =>
      obtain rfl := Option.some.inj stepped
      exact timer_inv answers inv
  | receive bytes dmaDone id =>
      obtain rfl := Option.some.inj stepped
      exact receiveFrame_inv inv met

theorem allocFrame_unqueued {state : SmapState} (inv : SmapInv state)
    {dmaDone : Int → Bool} (safe : PoolSafe dmaDone state) {bytes : List Byte}
    {owner : Owner} {index : Nat}
    (obtained : (allocFrame dmaDone bytes owner state).1 = some index) :
    index ∉ state.queue.toList := by
  rw [allocFrame] at obtained
  dsimp only at obtained
  split at obtained
  · cases obtained
  · rename_i taken found
    obtain rfl := Option.some.inj obtained
    exact (freeBuffer_unguarded inv safe found).1

theorem handedOut_unqueued {state : SmapState} {event : Event}
    (inv : SmapInv state) (met : Met state event) {index : Nat}
    (taken : handedOut state event = some index) :
    index ∉ state.queue.toList := by
  cases event with
  | request bytes dmaDone =>
      rw [handedOut] at taken
      split at taken
      · exact allocFrame_unqueued inv met.1 taken
      · cases taken
  | receive bytes dmaDone id =>
      rw [handedOut] at taken
      split at taken <;> rename_i sized
      · exact allocFrame_unqueued inv (met sized) taken
      · cases taken
  | attempt answer => cases taken
  | txInterrupt answers => cases taken
  | tick answers => cases taken

/-- In every run that meets the condition, frames leave in order and buffers
return, and the pool never hands out a queued buffer. -/
theorem smap_orderly {state : SmapState} (reached : smapMachine.Reach Met state) :
    Orderly state ∧ ∀ event, Met state event →
      ∀ index, handedOut state event = some index →
        index ∉ state.queue.toList := by
  have inv : SmapInv state := reached.invariant smapInv_initial
    fun _ _ _ inv met stepped => smapStep_inv inv met stepped
  exact ⟨inv.orderly, fun event met index taken =>
    handedOut_unqueued inv met taken⟩

/-- A frame waits in the queue for a TX interrupt and is sent. -/
theorem smap_orderly_waiting : ∃ state, smapMachine.Reach Met state ∧
    state.passed = [[1]] ∧ state.accepted = [[1]] ∧ Orderly state ∧
      (state.buffers 0).ref = 0 := by
  have safe : Met smapMachine.initial (.request [1] fun _ => false) := by
    refine ⟨?_, by decide⟩
    intro index first
    cases first
  have start : smapMachine.Reach Met smapMachine.initial := .initial
  have taken := start.step (.request [1] fun _ => false) safe rfl
  have notRefused (state : SmapState) : Met state (.attempt .tx) := by
    intro _
    exact ⟨nofun, nofun⟩
  have waiting := taken.step (.attempt .tx) (notRefused _) rfl
  have free (state : SmapState) : Met state (.txInterrupt fun _ => .ok) :=
    trivial
  have sent := waiting.step (.txInterrupt fun _ => .ok) (free _) rfl
  exact ⟨_, sent, by decide, by decide, (smap_orderly sent).1, by decide⟩

/-- A frame is stored into the empty queue; the next request takes its buffer
and overwrites it. -/
theorem smap_not_orderly : ¬ ∀ state, smapMachine.Reach (fun _ _ => True) state →
    Orderly state ∧ ∀ event index, handedOut state event = some index →
      index ∉ state.queue.toList := by
  intro always
  have start : smapMachine.Reach (fun _ _ => True) smapMachine.initial :=
    .initial
  have taken := start.step (.request [1] fun _ => false) trivial rfl
  have waiting := taken.step (.attempt .tx) trivial rfl
  have reused := waiting.step (.request [2] fun _ => false) trivial rfl
  have inOrder := (always _ reused).1.inOrder
  revert inOrder
  decide

end KernelReloaded.Smap
