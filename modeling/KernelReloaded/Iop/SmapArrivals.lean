/-
The receive ring of the Ethernet controller is a queue of frames.

The controller writes a frame to its memory and fills in the next empty descriptor;
without one, or without room besides the frames still there, a frame is lost before
the driver could know.  `HandleRXInt` goes through the descriptors up to an empty
one, hands the good frames on and empties each descriptor.  An inbox says what that
amounts to, and every run of the ring is one of the inbox.
-/

import KernelReloaded.Iop.SmapWire

namespace KernelReloaded.SmapArrivals

open Memory Smap Circular SmapTransmit

def rxBufBase : Nat := 0x4000

def rxBufSize : Nat := 16 * 1024

def bdRxEmpty : BitVec 16 := 1 <<< 15

def bdRxErrMask : BitVec 16 := 0x3FF

/-! ### The driver -/

structure RxState where
  bds : Nat → SMapBD
  rxIndex : Nat
  rxPtr : Nat
  rxMem : Nat → Byte
  /-- The descriptor the controller is to fill next. -/
  next : Nat
  /-- Frames handed to `SMapLowLevelInput`. -/
  delivered : List (List Byte)

/-- No data in the descriptor. -/
def isEmpty (bd : SMapBD) : Bool := bd.ctrlStat &&& bdRxEmpty != 0

def isGood (ctrlStat : BitVec 16) (length : Nat) : Bool :=
  ctrlStat &&& bdRxErrMask == 0 && (rxMinSize ≤ length && length ≤ rxMaxSize)

def rxBDInit (state : RxState) : RxState :=
  { state with
    rxPtr := 0
    rxIndex := 0
    bds := fun index =>
      if index < bdMaxEntry then { ctrlStat := bdRxEmpty, length := 0, pointer := 0 }
      else state.bds index }

/-- The loop of `CopyFromFIFO`; the controller advances its read pointer with each
word. -/
def copyFromFIFO (memory : Nat → Byte) : (words pointer : Nat) → List Byte
  | 0, _ => []
  | words + 1, pointer =>
      get rxBufSize pointer 4 memory ++
        copyFromFIFO memory words ((pointer + 4) % rxBufSize)

/-- Where `HandleRXInt` starts to read. -/
def readAddress (pointer : Nat) : Nat := (pointer - rxBufBase) % rxBufSize / 4 * 4

/-- A buffer is allocated for the frame. -/
def deliver (bd : SMapBD) (state : RxState) : RxState :=
  { state with
    rxPtr := readAddress bd.pointer
    delivered := state.delivered ++
      [(copyFromFIFO state.rxMem (txLen bd.length / 4) (readAddress bd.pointer)).take
        bd.length] }

/-- The descriptor is given back. -/
def release (state : RxState) : RxState :=
  let bd := state.bds state.rxIndex
  { state with
    bds := Function.update state.bds state.rxIndex { bd with ctrlStat := bdRxEmpty }
    rxIndex := bdNext state.rxIndex }

/-- The loop of `HandleRXInt`; `alloc` says which of the calls of `pbuf_alloc` get a
buffer. -/
def receive (alloc : Nat → Bool) : (rounds calls : Nat) → (noError : Bool) →
    RxState → Bool × RxState
  | 0, _, noError, state => (noError, state)
  | rounds + 1, calls, noError, state =>
      let bd := state.bds state.rxIndex
      if isEmpty bd then
        (noError, state)
      else if isGood bd.ctrlStat bd.length then
        if alloc calls then
          receive alloc rounds (calls + 1) noError (release (deliver bd state))
        else
          receive alloc rounds (calls + 1) false (release state)
      else
        receive alloc rounds calls false (release state)

def handleRXInt (alloc : Nat → Bool) (state : RxState) : Bool × RxState :=
  receive alloc (bdMaxEntry + 1) 0 true state

/-! ### The controller -/

structure Arrival where
  status : BitVec 16
  pointer : Nat
  bytes : List Byte

/-- Two blocks of the memory have no byte in common. -/
def Apart (first firstLength second secondLength : Nat) : Prop :=
  ∀ near < firstLength, ∀ far < secondLength,
    (first + near) % rxBufSize ≠ (second + far) % rxBufSize

instance (first firstLength second secondLength : Nat) :
    Decidable (Apart first firstLength second secondLength) :=
  inferInstanceAs (Decidable (∀ near < firstLength, ∀ far < secondLength, _))

/-- A frame begins with a word of the memory. -/
def Arrival.Placed (arrival : Arrival) : Prop :=
  arrival.pointer % 4 = 0 ∧ rxBufBase ≤ arrival.pointer ∧
    arrival.bytes.length ≤ rxBufSize

instance (arrival : Arrival) : Decidable arrival.Placed :=
  inferInstanceAs (Decidable (_ ∧ _ ∧ _))

/-- The controller has an empty descriptor and room for the frame. -/
def Taken (arrival : Arrival) (state : RxState) : Prop :=
  isEmpty (state.bds state.next) = true ∧ arrival.Placed ∧
    ∀ index < bdMaxEntry, isEmpty (state.bds index) = false →
      Apart arrival.pointer arrival.bytes.length (state.bds index).pointer
        (state.bds index).length

instance (arrival : Arrival) (state : RxState) : Decidable (Taken arrival state) :=
  inferInstanceAs (Decidable (_ ∧ _ ∧ ∀ index < bdMaxEntry, _ → _))

def arrive (arrival : Arrival) (state : RxState) : RxState :=
  { state with
    bds := Function.update state.bds state.next
      { ctrlStat := arrival.status &&& ~~~bdRxEmpty
        length := arrival.bytes.length
        pointer := arrival.pointer }
    rxMem := put rxBufSize (arrival.pointer - rxBufBase) arrival.bytes state.rxMem
    next := bdNext state.next }

inductive Event where
  | arrive (arrival : Arrival)
  | rxInterrupt (alloc : Nat → Bool)

/-- A frame that is not taken is lost. -/
def rxStep (state : RxState) : Event → RxState
  | .arrive arrival => if Taken arrival state then arrive arrival state else state
  | .rxInterrupt alloc => (handleRXInt alloc state).2

/-- After `SMap_Init`. -/
def started (rxMem : Nat → Byte) : RxState :=
  rxBDInit
    { bds := fun _ => { ctrlStat := 0, length := 0, pointer := 0 }
      rxIndex := 0
      rxPtr := 0
      rxMem := rxMem
      next := 0
      delivered := [] }

/-! ### What it is for -/

/-- Frames that arrived wait for an interrupt. -/
structure Inbox where
  waiting : List Arrival
  delivered : List (List Byte)

def Inbox.Room (inbox : Inbox) (arrival : Arrival) : Prop :=
  inbox.waiting.length < bdMaxEntry ∧ arrival.Placed ∧
    ∀ other ∈ inbox.waiting,
      Apart arrival.pointer arrival.bytes.length other.pointer other.bytes.length

instance (inbox : Inbox) (arrival : Arrival) : Decidable (inbox.Room arrival) :=
  inferInstanceAs (Decidable (_ ∧ _ ∧ ∀ other ∈ inbox.waiting, _))

def Arrival.good (arrival : Arrival) : Bool :=
  isGood (arrival.status &&& ~~~bdRxEmpty) arrival.bytes.length

/-- The good frames that get a buffer, which only they ask for. -/
def picked (alloc : Nat → Bool) : (calls : Nat) → List Arrival → List (List Byte)
  | _, [] => []
  | calls, arrival :: rest =>
      if arrival.good then
        if alloc calls then arrival.bytes :: picked alloc (calls + 1) rest
        else picked alloc (calls + 1) rest
      else picked alloc calls rest

def Inbox.step (inbox : Inbox) : Event → Inbox
  | .arrive arrival =>
      if inbox.Room arrival then
        { inbox with waiting := inbox.waiting ++ [arrival] }
      else
        inbox
  | .rxInterrupt alloc =>
      { waiting := []
        delivered := inbox.delivered ++ picked alloc 0 inbox.waiting }

/-! ### The ring goes along with the inbox -/

def Arrival.bd (arrival : Arrival) : SMapBD where
  ctrlStat := arrival.status &&& ~~~bdRxEmpty
  length := arrival.bytes.length
  pointer := arrival.pointer

structure Holds (state : RxState) (inbox : Inbox) : Prop where
  few : inbox.waiting.length ≤ bdMaxEntry
  index : state.rxIndex < bdMaxEntry
  next : state.next = (state.rxIndex + inbox.waiting.length) % bdMaxEntry
  filled : ∀ place arrival, inbox.waiting[place]? = some arrival →
    state.bds ((state.rxIndex + place) % bdMaxEntry) = arrival.bd
  held : ∀ arrival ∈ inbox.waiting, arrival.Placed ∧
    get rxBufSize arrival.pointer arrival.bytes.length state.rxMem = arrival.bytes
  empty : ∀ place < bdMaxEntry, inbox.waiting.length ≤ place →
    isEmpty (state.bds ((state.rxIndex + place) % bdMaxEntry)) = true
  delivered : state.delivered = inbox.delivered

variable {state : RxState} {inbox : Inbox} {arrival : Arrival}

theorem isEmpty_bd (arrival : Arrival) : isEmpty arrival.bd = false := by
  have cleared : arrival.status &&& ~~~bdRxEmpty &&& bdRxEmpty = 0 := by
    rw [BitVec.and_assoc, BitVec.and_comm (~~~bdRxEmpty), BitVec.and_not_self]
    exact BitVec.and_zero
  rw [isEmpty, Arrival.bd, cleared]
  rfl

theorem isEmpty_released (length pointer : Nat) :
    isEmpty (SMapBD.mk bdRxEmpty length pointer) = true := by
  simp [isEmpty, bdRxEmpty]

/-- The base is a whole turn. -/
theorem sub_base_mod {pointer : Nat} (above : rxBufBase ≤ pointer) (offset : Nat) :
    (pointer - rxBufBase + offset) % rxBufSize = (pointer + offset) % rxBufSize := by
  rw [rxBufBase] at above
  rw [rxBufBase, rxBufSize]
  omega

theorem get_sub_base {pointer : Nat} (above : rxBufBase ≤ pointer) (length : Nat)
    (memory : Nat → Byte) :
    get rxBufSize (pointer - rxBufBase) length memory =
      get rxBufSize pointer length memory := by
  simp only [Circular.get, sub_base_mod above]

theorem put_sub_base {pointer : Nat} (above : rxBufBase ≤ pointer) (items : List Byte)
    (memory : Nat → Byte) :
    put rxBufSize (pointer - rxBufBase) items memory =
      put rxBufSize pointer items memory := by
  have same := sub_base_mod above 0
  rw [Nat.add_zero, Nat.add_zero] at same
  rw [← put_mod, same, put_mod]

theorem holds_started (rxMem : Nat → Byte) :
    Holds (started rxMem) { waiting := [], delivered := [] } where
  few := Nat.zero_le _
  index := Nat.succ_pos 63
  next := rfl
  filled := by simp
  held := by simp
  empty := by
    intro place _ _
    have below : place % bdMaxEntry < bdMaxEntry := Nat.mod_lt place (Nat.succ_pos 63)
    simp [started, rxBDInit, below, isEmpty, bdRxEmpty]
  delivered := rfl

theorem Holds.filled_at (holds : Holds state inbox) {other : Arrival}
    (waits : other ∈ inbox.waiting) :
    ∃ place < inbox.waiting.length,
      state.bds ((state.rxIndex + place) % bdMaxEntry) = other.bd := by
  obtain ⟨place, inside, rfl⟩ := List.mem_iff_getElem.mp waits
  exact ⟨place, inside, holds.filled place _ (List.getElem?_eq_getElem inside)⟩

/-- Every descriptor is as far from the driver's as its place in the inbox says. -/
theorem place_of_index {first index : Nat} (below : index < bdMaxEntry)
    (inside : first < bdMaxEntry) :
    ∃ place < bdMaxEntry, (first + place) % bdMaxEntry = index := by
  refine ⟨(index + bdMaxEntry - first) % bdMaxEntry,
    Nat.mod_lt _ (Nat.zero_lt_of_lt below), ?_⟩
  rw [bdMaxEntry] at below inside ⊢
  omega

theorem Holds.isEmpty_next (holds : Holds state inbox) :
    isEmpty (state.bds state.next) = true ↔ inbox.waiting.length < bdMaxEntry := by
  have few := holds.few
  rw [holds.next]
  constructor
  · intro empty
    by_contra full
    have all : inbox.waiting.length = bdMaxEntry := by omega
    have first := holds.filled 0 _ (List.getElem?_eq_getElem (by
      rw [all]
      exact Nat.succ_pos 63))
    rw [all, Nat.add_mod_right] at empty
    rw [Nat.add_zero] at first
    rw [first, isEmpty_bd] at empty
    cases empty
  · intro room
    exact holds.empty _ room (Nat.le_refl _)

theorem Holds.taken_iff (holds : Holds state inbox) :
    Taken arrival state ↔ inbox.Room arrival := by
  rw [Taken, Inbox.Room, holds.isEmpty_next]
  constructor
  · rintro ⟨room, placed, apart⟩
    refine ⟨room, placed, ?_⟩
    intro other waits
    obtain ⟨place, -, isBd⟩ := holds.filled_at waits
    have alone := apart ((state.rxIndex + place) % bdMaxEntry)
      (Nat.mod_lt _ (Nat.succ_pos 63))
    rw [isBd] at alone
    exact alone (isEmpty_bd other)
  · rintro ⟨room, placed, apart⟩
    refine ⟨room, placed, ?_⟩
    intro index below full
    obtain ⟨place, inside, rfl⟩ := place_of_index below holds.index
    by_cases waits : place < inbox.waiting.length
    · rw [holds.filled place _ (List.getElem?_eq_getElem waits)]
      exact apart _ (List.getElem_mem waits)
    · rw [holds.empty place inside (by omega)] at full
      cases full

theorem Holds.arrive (holds : Holds state inbox) (room : inbox.Room arrival) :
    Holds (SmapArrivals.arrive arrival state)
      { inbox with waiting := inbox.waiting ++ [arrival] } := by
  obtain ⟨below, placed, apart⟩ := room
  have other {place : Nat} (inside : place < bdMaxEntry)
      (isOther : place ≠ inbox.waiting.length) (bd : SMapBD) :
      Function.update state.bds state.next bd ((state.rxIndex + place) % bdMaxEntry) =
        state.bds ((state.rxIndex + place) % bdMaxEntry) := by
    rw [holds.next]
    apply Function.update_of_ne
    rcases Nat.lt_or_gt_of_ne isOther with before | behind
    · exact Ring.mod_add_ne_mod_add before (by omega)
    · exact (Ring.mod_add_ne_mod_add behind (by omega)).symm
  constructor
  case few =>
    rw [List.length_append, List.length_singleton]
    exact below
  case index => exact holds.index
  case next =>
    change bdNext state.next = _
    rw [holds.next, bdNext_mod, List.length_append, List.length_singleton, Nat.add_assoc]
    rfl
  case filled =>
    intro place waits isWaiting
    change Function.update state.bds state.next arrival.bd
      ((state.rxIndex + place) % bdMaxEntry) = waits.bd
    have inside := (List.getElem?_eq_some_iff.mp isWaiting).1
    rw [List.length_append, List.length_singleton] at inside
    by_cases isLast : place = inbox.waiting.length
    · rw [isLast, List.getElem?_concat_length] at isWaiting
      rw [isLast, ← holds.next, Function.update_self, Option.some.inj isWaiting]
    · rw [other (by omega) isLast]
      rw [List.getElem?_append_left (by omega)] at isWaiting
      exact holds.filled place waits isWaiting
  case held =>
    intro waits isWaiting
    change waits.Placed ∧ Circular.get rxBufSize waits.pointer waits.bytes.length
      (put rxBufSize (arrival.pointer - rxBufBase) arrival.bytes state.rxMem) = waits.bytes
    rw [put_sub_base placed.2.1]
    rcases List.mem_append.mp isWaiting with old | new
    · obtain ⟨isPlaced, same⟩ := holds.held waits old
      rw [get_put_apart _ (apart waits old)]
      exact ⟨isPlaced, same⟩
    · rw [List.mem_singleton.mp new, get_put _ placed.2.2 (Nat.le_refl _),
        List.take_length]
      exact ⟨placed, rfl⟩
  case empty =>
    intro place inside behind
    change isEmpty (Function.update state.bds state.next arrival.bd
      ((state.rxIndex + place) % bdMaxEntry)) = true
    rw [List.length_append, List.length_singleton] at behind
    rw [other inside (by omega)]
    exact holds.empty place inside (by omega)
  case delivered => exact holds.delivered

/-! ### An interrupt -/

theorem copyFromFIFO_eq (memory : Nat → Byte) (words pointer : Nat) :
    copyFromFIFO memory words pointer =
      Circular.get rxBufSize pointer (4 * words) memory := by
  induction words generalizing pointer with
  | zero => rfl
  | succ words ih =>
      have split : 4 * (words + 1) = 4 + 4 * words := by omega
      rw [copyFromFIFO, ih, get_mod, split, get_add]

variable {rest : List Arrival} {delivered : List (List Byte)}

theorem Holds.first
    (holds : Holds state { waiting := arrival :: rest, delivered := delivered }) :
    state.bds state.rxIndex = arrival.bd := by
  have isFirst := holds.filled 0 arrival rfl
  rwa [Nat.add_zero, Nat.mod_eq_of_lt holds.index] at isFirst

theorem Holds.release
    (holds : Holds state { waiting := arrival :: rest, delivered := delivered }) :
    Holds (SmapArrivals.release state) { waiting := rest, delivered := delivered } := by
  have few : rest.length + 1 ≤ bdMaxEntry := holds.few
  have index := Nat.mod_eq_of_lt holds.index
  have onward : bdNext state.rxIndex = (state.rxIndex + 1) % bdMaxEntry := by
    rw [← bdNext_mod, index]
  have further (place : Nat) : (bdNext state.rxIndex + place) % bdMaxEntry =
      (state.rxIndex + (place + 1)) % bdMaxEntry := by
    rw [onward, Nat.mod_add_mod, Nat.add_assoc, Nat.add_comm 1]
  have other {place : Nat} (inside : place + 1 < bdMaxEntry) (bd : SMapBD) :
      Function.update state.bds state.rxIndex bd
          ((state.rxIndex + (place + 1)) % bdMaxEntry) =
        state.bds ((state.rxIndex + (place + 1)) % bdMaxEntry) := by
    have apart : (state.rxIndex + 0) % bdMaxEntry ≠
        (state.rxIndex + (place + 1)) % bdMaxEntry :=
      Ring.mod_add_ne_mod_add (Nat.succ_pos place) (by omega)
    rw [Nat.add_zero, index] at apart
    exact Function.update_of_ne apart.symm _ _
  constructor
  case few => exact Nat.le_of_succ_le few
  case index =>
    change bdNext state.rxIndex < bdMaxEntry
    rw [onward]
    exact Nat.mod_lt _ (Nat.succ_pos 63)
  case next =>
    change state.next = (bdNext state.rxIndex + rest.length) % bdMaxEntry
    rw [further]
    exact holds.next
  case filled =>
    intro place waits isWaiting
    have inside := (List.getElem?_eq_some_iff.mp isWaiting).1
    have below : place < rest.length := inside
    change Function.update state.bds state.rxIndex _
      ((bdNext state.rxIndex + place) % bdMaxEntry) = waits.bd
    rw [further, other (by omega)]
    exact holds.filled (place + 1) waits isWaiting
  case held =>
    intro waits isWaiting
    exact holds.held waits (List.mem_cons_of_mem arrival isWaiting)
  case empty =>
    intro place inside behind
    change isEmpty (Function.update state.bds state.rxIndex _
      ((bdNext state.rxIndex + place) % bdMaxEntry)) = true
    rw [further]
    by_cases isLast : place + 1 = bdMaxEntry
    · rw [isLast, Nat.add_mod_right, index, Function.update_self]
      exact isEmpty_released _ _
    · rw [other (by omega)]
      exact holds.empty (place + 1) (by omega) (Nat.succ_le_succ behind)
  case delivered => exact holds.delivered

/-- A frame begins at a word of the memory, so no bit of its place is lost. -/
theorem readAddress_eq {pointer : Nat} (isWord : pointer % 4 = 0) :
    readAddress pointer = (pointer - rxBufBase) % rxBufSize := by
  apply Nat.div_mul_cancel
  apply (Nat.dvd_mod_iff (show 4 ∣ rxBufSize by decide)).mpr
  exact Nat.dvd_sub (Nat.dvd_of_mod_eq_zero isWord) (show 4 ∣ rxBufBase by decide)

theorem Holds.frame_eq
    (holds : Holds state { waiting := arrival :: rest, delivered := delivered }) :
    (copyFromFIFO state.rxMem (txLen arrival.bytes.length / 4)
      (readAddress arrival.pointer)).take arrival.bytes.length = arrival.bytes := by
  obtain ⟨placed, same⟩ := holds.held arrival List.mem_cons_self
  have words : 4 * (txLen arrival.bytes.length / 4) = txLen arrival.bytes.length := by
    rw [txLen]
    omega
  rw [copyFromFIFO_eq, words, readAddress_eq placed.1,
    take_get (length_le_txLen _), get_mod, get_sub_base placed.2.1, same]

theorem Holds.congr {other : RxState} {delivered : List (List Byte)}
    (holds : Holds state inbox) (bds : other.bds = state.bds)
    (index : other.rxIndex = state.rxIndex) (next : other.next = state.next)
    (memory : other.rxMem = state.rxMem) (isDelivered : other.delivered = delivered) :
    Holds other { inbox with delivered := delivered } where
  few := holds.few
  index := by
    rw [index]
    exact holds.index
  next := by
    rw [index, next]
    exact holds.next
  filled := by
    rw [bds, index]
    exact holds.filled
  held := by
    rw [memory]
    exact holds.held
  empty := by
    rw [bds, index]
    exact holds.empty
  delivered := isDelivered

theorem Holds.deliver
    (holds : Holds state { waiting := arrival :: rest, delivered := delivered }) :
    Holds (SmapArrivals.deliver arrival.bd state)
      { waiting := arrival :: rest, delivered := delivered ++ [arrival.bytes] } := by
  have length : arrival.bd.length = arrival.bytes.length := rfl
  have pointer : arrival.bd.pointer = arrival.pointer := rfl
  have frame : (SmapArrivals.deliver arrival.bd state).delivered =
      delivered ++ [arrival.bytes] := by
    simp only [SmapArrivals.deliver, length, pointer, holds.frame_eq, holds.delivered]
  exact holds.congr (by rw [SmapArrivals.deliver]) (by rw [SmapArrivals.deliver])
    (by rw [SmapArrivals.deliver]) (by rw [SmapArrivals.deliver]) frame

theorem picked_sublist (alloc : Nat → Bool) (calls : Nat) (waiting : List Arrival) :
    (picked alloc calls waiting).Sublist (waiting.map Arrival.bytes) := by
  induction waiting generalizing calls with
  | nil => exact List.Sublist.refl _
  | cons arrival rest ih =>
      rw [picked, List.map_cons]
      split
      · split
        · exact (ih (calls + 1)).cons_cons _
        · exact (ih (calls + 1)).cons _
      · exact (ih calls).cons _

theorem picked_length_le (alloc : Nat → Bool) (calls : Nat) (waiting : List Arrival) :
    (picked alloc calls waiting).length ≤ waiting.length := by
  have shorter := (picked_sublist alloc calls waiting).length_le
  rwa [List.length_map] at shorter

/-- The answer is no error when every frame was handed on. -/
theorem receive_holds (alloc : Nat → Bool) (rounds calls : Nat) (noError : Bool)
    (waiting : List Arrival) {delivered : List (List Byte)}
    (holds : Holds state { waiting := waiting, delivered := delivered })
    (enough : waiting.length < rounds) :
    Holds (receive alloc rounds calls noError state).2
        { waiting := [], delivered := delivered ++ picked alloc calls waiting } ∧
      ((receive alloc rounds calls noError state).1 = true ↔
        noError = true ∧ (picked alloc calls waiting).length = waiting.length) := by
  induction waiting generalizing rounds calls noError state delivered with
  | nil =>
      obtain ⟨rounds, rfl⟩ := Nat.exists_eq_add_one.mpr enough
      have empty : isEmpty (state.bds state.rxIndex) = true := by
        have first := holds.empty 0 (Nat.succ_pos 63) (Nat.le_refl _)
        rwa [Nat.add_zero, Nat.mod_eq_of_lt holds.index] at first
      rw [receive]
      simp only [empty, if_true, picked, List.append_nil]
      exact ⟨holds, by simp⟩
  | cons arrival rest ih =>
      obtain ⟨rounds, rfl⟩ := Nat.exists_eq_add_one.mpr (Nat.zero_lt_of_lt enough)
      have left : rest.length < rounds := Nat.lt_of_succ_lt_succ enough
      have most := picked_length_le alloc calls rest
      rw [receive]
      simp only [holds.first, isEmpty_bd, Bool.false_eq_true, if_false]
      by_cases good : arrival.good = true
      · have isGood : isGood arrival.bd.ctrlStat arrival.bd.length = true := good
        rw [if_pos isGood]
        by_cases got : alloc calls = true
        · obtain ⟨ends, answer⟩ := ih rounds (calls + 1) noError holds.deliver.release left
          rw [if_pos got, picked, if_pos good, if_pos got, List.append_cons]
          refine ⟨ends, answer.trans ?_⟩
          rw [List.length_cons, List.length_cons, Nat.add_right_cancel_iff]
        · obtain ⟨ends, answer⟩ := ih rounds (calls + 1) false holds.release left
          have most := picked_length_le alloc (calls + 1) rest
          rw [if_neg got, picked, if_pos good, if_neg got]
          refine ⟨ends, answer.trans ?_⟩
          simp only [Bool.false_eq_true, false_and, List.length_cons, false_iff]
          omega
      · have notGood : ¬ isGood arrival.bd.ctrlStat arrival.bd.length = true := good
        obtain ⟨ends, answer⟩ := ih rounds calls false holds.release left
        have most := picked_length_le alloc calls rest
        rw [if_neg notGood, picked, if_neg good]
        refine ⟨ends, answer.trans ?_⟩
        simp only [Bool.false_eq_true, false_and, List.length_cons, false_iff]
        omega

theorem handleRXInt_holds (alloc : Nat → Bool) (holds : Holds state inbox) :
    Holds (handleRXInt alloc state).2 (inbox.step (.rxInterrupt alloc)) ∧
      ((handleRXInt alloc state).1 = true ↔
        (picked alloc 0 inbox.waiting).length = inbox.waiting.length) := by
  have enough : inbox.waiting.length < bdMaxEntry + 1 := Nat.lt_succ_of_le holds.few
  obtain ⟨ends, answer⟩ := receive_holds alloc (bdMaxEntry + 1) 0 true inbox.waiting
    holds enough
  exact ⟨ends, answer.trans (and_iff_right rfl)⟩

/-! ### Runs -/

theorem Holds.step (holds : Holds state inbox) (event : Event) :
    Holds (rxStep state event) (inbox.step event) := by
  cases event with
  | arrive arrival =>
      rw [rxStep, Inbox.step]
      by_cases taken : Taken arrival state
      · have room := holds.taken_iff.mp taken
        rw [if_pos taken, if_pos room]
        exact holds.arrive room
      · have noRoom := mt holds.taken_iff.mpr taken
        rw [if_neg taken, if_neg noRoom]
        exact holds
  | rxInterrupt alloc => exact (handleRXInt_holds alloc holds).1

theorem holds_foldl (rxMem : Nat → Byte) (events : List Event) :
    Holds (events.foldl rxStep (started rxMem))
      (events.foldl Inbox.step { waiting := [], delivered := [] }) := by
  induction events using List.reverseRecOn with
  | nil => exact holds_started rxMem
  | append_singleton before event ih =>
      rw [List.foldl_append, List.foldl_append]
      exact ih.step event

/-- The ring delivers what the inbox does, in every run, and an interrupt answers no
error exactly when it hands on every frame that waited. -/
theorem received_inOrder (rxMem : Nat → Byte) (events : List Event) :
    let state := events.foldl rxStep (started rxMem)
    let inbox := events.foldl Inbox.step { waiting := [], delivered := [] }
    state.delivered = inbox.delivered ∧
      ∀ alloc, (handleRXInt alloc state).1 = true ↔
        (handleRXInt alloc state).2.delivered =
          inbox.delivered ++ inbox.waiting.map Arrival.bytes := by
  have holds := holds_foldl rxMem events
  refine ⟨holds.delivered, ?_⟩
  intro alloc
  obtain ⟨ends, answer⟩ := handleRXInt_holds alloc holds
  rw [answer, ends.delivered, Inbox.step, List.append_cancel_left_eq]
  have sublist := picked_sublist alloc 0
    (events.foldl Inbox.step { waiting := [], delivered := [] }).waiting
  constructor
  · intro same
    exact sublist.eq_of_length (by rw [same, List.length_map])
  · intro same
    rw [same, List.length_map]

end KernelReloaded.SmapArrivals
