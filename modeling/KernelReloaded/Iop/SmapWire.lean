/-
Frames leave the Ethernet controller in the order they were accepted.

Frames are numbered in the order of their acceptance.  The number of a frame gives
its descriptor modulo the size of the ring, and the length of all frames before it
gives its place in the memory modulo the size of that.  The driver's two indices and
the controller's are three such numbers: frames before the first are taken back,
frames before the second are sent, and the third is behind the last frame.

The indices tell an empty ring from a full one as little as an empty memory from a
full one, and no test asks for a free descriptor.  The free size of a memory whose
frames run around the end is the slip of the driver: it computes the size that is
taken.  So the order is kept in the runs where each frame accepted does fit and
leaves a descriptor.
-/

import KernelReloaded.Iop.SmapTransmit

namespace KernelReloaded.SmapTransmit

open Memory Smap Circular

/-! ### Places -/

variable {frames : List (List Byte)} {frame : List Byte} {count : Nat}

theorem place_succ (isFrame : frames[count]? = some frame) :
    place frames (count + 1) = place frames count + txLen frame.length := by
  rw [place, place, List.take_add_one, isFrame, List.map_append, List.sum_append]
  simp

theorem place_append (frame : List Byte) (inside : count ≤ frames.length) :
    place (frames ++ [frame]) count = place frames count := by
  rw [place, place, List.take_append_of_le_length inside]

theorem place_length_append (frames : List (List Byte)) (frame : List Byte) :
    place (frames ++ [frame]) (frames ++ [frame]).length =
      place frames frames.length + txLen frame.length := by
  have last : (frames ++ [frame])[frames.length]? = some frame := by simp
  rw [List.length_append, List.length_singleton, place_succ last,
    place_append frame (Nat.le_refl _)]

theorem place_mono (frames : List (List Byte)) {near far : Nat} (before : near ≤ far) :
    place frames near ≤ place frames far := by
  obtain ⟨more, rfl⟩ := Nat.exists_eq_add_of_le before
  rw [place, place, List.take_add, List.map_append, List.sum_append]
  exact Nat.le_add_right _ _

theorem place_le (isFrame : frames[count]? = some frame) :
    place frames count + txLen frame.length ≤ place frames frames.length := by
  rw [← place_succ isFrame]
  exact place_mono frames (List.getElem?_eq_some_iff.mp isFrame).1

theorem length_le_txLen (length : Nat) : length ≤ txLen length := by
  rw [txLen]
  omega

theorem bdNext_mod (count : Nat) : bdNext (count % bdMaxEntry) =
    (count + 1) % bdMaxEntry := by
  have below := Nat.mod_lt count (Nat.succ_pos 63)
  rw [bdNext, bdMaxEntry]
  by_cases last : count % 64 < 64 - 1
  · rw [if_pos last]
    omega
  · rw [if_neg last]
    omega

/-! ### What `CopyToFIFO` writes -/

theorem copyToFIFO_eq (source : Image) (words offset pointer : Nat)
    (memory : Nat → Byte) :
    copyToFIFO source words offset pointer memory =
      put txBufSize pointer
        ((List.range (4 * words)).map fun index => source (offset + index)) memory := by
  induction words generalizing offset pointer memory with
  | zero => rfl
  | succ words ih =>
      have split : (List.range (4 * (words + 1))).map
            (fun index => source (offset + index)) =
          [source offset, source (offset + 1), source (offset + 2),
            source (offset + 3)] ++
          (List.range (4 * words)).map fun index => source (offset + 4 + index) := by
        have four : 4 * (words + 1) = 4 + 4 * words := by omega
        rw [four, List.range_add, List.map_append, List.map_map]
        congr 1
        apply List.map_congr_left
        intro index _
        dsimp only [Function.comp]
        rw [Nat.add_assoc]
      rw [copyToFIFO, ih, put_mod, split, put_append]
      rfl

theorem copyToTXBuffer_before (parts : List (List Byte)) (buffer : Image)
    {dest cell : Nat} (before : cell < dest) :
    copyToTXBuffer parts dest buffer cell = buffer cell := by
  induction parts generalizing dest buffer with
  | nil => rfl
  | cons part rest ih =>
      rw [copyToTXBuffer, ih _ (by omega), Smap.copyBytes, if_neg (by omega)]

theorem copyToTXBuffer_at (parts : List (List Byte)) (buffer : Image) (dest : Nat)
    {index : Nat} {byte : Byte} (isByte : parts.flatten[index]? = some byte) :
    copyToTXBuffer parts dest buffer (dest + index) = byte := by
  induction parts generalizing dest buffer index with
  | nil => simp at isByte
  | cons part rest ih =>
      rw [List.flatten_cons, List.getElem?_append] at isByte
      rw [copyToTXBuffer]
      split at isByte
      case isTrue inside =>
        rw [copyToTXBuffer_before _ _ (by omega), Smap.copyBytes, if_pos (by omega),
          Nat.add_sub_cancel_left, List.getD_eq_getElem?_getD, isByte,
          Option.getD_some]
      case isFalse outside =>
        have behind : dest + index = dest + part.length + (index - part.length) := by
          omega
        rw [behind]
        exact ih _ _ isByte

theorem frameSource_at (packet : Packet) (state : TxState) {index : Nat} {byte : Byte}
    (isByte : packet.bytes[index]? = some byte) :
    (frameSource packet state).1 index = byte := by
  rw [frameSource]
  split
  case isTrue direct =>
    have inside := (List.getElem?_eq_some_iff.mp isByte).1
    have alone : index < packet.payload.length := direct.1 ▸ inside
    rw [Packet.bytes, List.getElem?_append_left alone] at isByte
    dsimp only
    rw [List.getD_eq_getElem?_getD, isByte, Option.getD_some]
  case isFalse =>
    have copied := copyToTXBuffer_at (packet.payload :: packet.rest) state.txBuf 0 isByte
    rwa [Nat.zero_add] at copied

/-- The frame that comes to lie in the memory. -/
theorem take_frameSource (packet : Packet) (state : TxState) :
    ((List.range (4 * (txLen packet.totLen / 4))).map fun index =>
      (frameSource packet state).1 (0 + index)).take packet.totLen = packet.bytes := by
  apply List.ext_getElem?
  intro index
  have fits : packet.totLen ≤ 4 * (txLen packet.totLen / 4) := by
    rw [txLen]
    omega
  by_cases inside : index < packet.totLen
  · have isByte := List.getElem?_eq_getElem (l := packet.bytes) inside
    rw [List.getElem?_take_of_lt inside, List.getElem?_map,
      List.getElem?_range (by omega), Option.map_some, Nat.zero_add,
      frameSource_at packet state isByte, isByte]
  · rw [List.getElem?_eq_none (Nat.le_of_not_lt inside), List.getElem?_eq_none]
    exact Nat.le_trans (List.length_take_le _ _) (Nat.le_of_not_lt inside)

/-! ### The invariant -/

structure TxInv (state : TxState) : Prop where
  sent_le : state.sent.length ≤ state.accepted.length
  reclaimed_le : state.reclaimed ≤ state.sent.length
  room : state.accepted.length < state.reclaimed + bdMaxEntry
  space : place state.accepted state.accepted.length ≤
    place state.accepted state.reclaimed + txBufSize
  indexStart : state.indexStart = state.reclaimed % bdMaxEntry
  indexEnd : state.indexEnd = state.accepted.length % bdMaxEntry
  next : state.next = state.sent.length % bdMaxEntry
  ptrStart : state.ptrStart = place state.accepted state.reclaimed % txBufSize
  ptrEnd : state.ptrEnd = place state.accepted state.accepted.length % txBufSize
  onWire : state.sent = state.accepted.take state.sent.length
  filled : ∀ count frame, state.accepted[count]? = some frame →
    state.reclaimed ≤ count →
      (state.bds (count % bdMaxEntry)).length = frame.length ∧
        (state.bds (count % bdMaxEntry)).pointer =
          place state.accepted count % txBufSize + txBufBase
  ready : ∀ count, state.sent.length ≤ count → count < state.accepted.length →
    (state.bds (count % bdMaxEntry)).ctrlStat = bdTxReady ||| bdTxGenFcs ||| bdTxGenPad
  idle : ∀ count, state.accepted.length ≤ count →
    count < state.sent.length + bdMaxEntry →
      (state.bds (count % bdMaxEntry)).ready = false
  held : ∀ count frame, state.accepted[count]? = some frame →
    state.sent.length ≤ count →
      get txBufSize (place state.accepted count) frame.length state.txMem = frame

variable {state : TxState}

theorem slot_ne {near far : Nat} (before : near < far) (turn : far < near + bdMaxEntry) :
    near % bdMaxEntry ≠ far % bdMaxEntry := by
  rw [bdMaxEntry] at turn ⊢
  omega

theorem txInv_started (linkValid : Bool) (txBuf : Image) (txMem : Nat → Byte) :
    TxInv (started linkValid txBuf txMem) where
  sent_le := Nat.le_refl _
  reclaimed_le := Nat.le_refl _
  room := Nat.succ_pos 63
  space := Nat.zero_le _
  indexStart := rfl
  indexEnd := rfl
  next := rfl
  ptrStart := rfl
  ptrEnd := rfl
  onWire := rfl
  filled := by simp [started, txBDInit]
  ready := by simp [started, txBDInit]
  idle := by
    intro count _ inside
    simp [started, txBDInit, SMapBD.ready]
  held := by simp [started, txBDInit]

theorem TxInv.frameAt_eq (inv : TxInv state)
    (isFrame : state.accepted[count]? = some frame) (unsent : state.sent.length ≤ count) :
    frameAt state (count % bdMaxEntry) = frame := by
  obtain ⟨length, pointer⟩ :=
    inv.filled count frame isFrame (Nat.le_trans inv.reclaimed_le unsent)
  rw [frameAt, length, pointer, Nat.add_sub_cancel, get_mod]
  exact inv.held count frame isFrame unsent

theorem TxInv.pending_eq (inv : TxInv state) :
    state.pending = state.accepted.drop state.sent.length := by
  apply List.ext_getElem?
  intro index
  rw [TxState.pending, List.getElem?_map, List.getElem?_drop, inv.next]
  by_cases inside : index < state.accepted.length - state.sent.length
  · have isFrame := List.getElem?_eq_getElem (l := state.accepted)
      (i := state.sent.length + index) (by omega)
    rw [List.getElem?_range inside, Option.map_some, isFrame, Nat.mod_add_mod,
      inv.frameAt_eq isFrame (Nat.le_add_right _ _)]
  · have behind := inv.sent_le
    rw [List.getElem?_eq_none (by simp; omega), List.getElem?_eq_none (by omega)]
    rfl

theorem TxInv.inOrder (inv : TxInv state) : InOrder state := by
  have split := List.take_append_drop state.sent.length state.accepted
  rw [← inv.onWire] at split
  rw [InOrder, inv.pending_eq, split]

/-! ### A frame is accepted -/

theorem getElem?_concat (frames : List (List Byte)) (bytes : List Byte) {count : Nat}
    {frame : List Byte} (isFrame : (frames ++ [bytes])[count]? = some frame) :
    frames[count]? = some frame ∨ count = frames.length ∧ frame = bytes := by
  rw [List.getElem?_append] at isFrame
  split at isFrame
  case isTrue inside => exact .inl isFrame
  case isFalse outside =>
    have last := (List.getElem?_eq_some_iff.mp isFrame).1
    have first : count - frames.length = 0 := by simpa using last
    rw [first] at isFrame
    exact .inr ⟨by omega, (Option.some.inj isFrame).symm⟩

/-- What a new frame leaves of the memory, and where it lies itself. -/
theorem TxInv.held_sendFrame {packet : Packet} (inv : TxInv state)
    (fits : state.occupied + txLen packet.totLen ≤ txBufSize)
    (isFrame : (state.accepted ++ [packet.bytes])[count]? = some frame)
    (unsent : state.sent.length ≤ count) :
    get txBufSize (place (state.accepted ++ [packet.bytes]) count) frame.length
      (SmapTransmit.sendFrame packet state).txMem = frame := by
  have words : 4 * (txLen packet.totLen / 4) = txLen packet.totLen := by
    rw [txLen]
    omega
  have memory : (SmapTransmit.sendFrame packet state).txMem =
      put txBufSize (place state.accepted state.accepted.length)
        ((List.range (4 * (txLen packet.totLen / 4))).map fun index =>
          (frameSource packet state).1 (0 + index)) state.txMem := by
    rw [SmapTransmit.sendFrame]
    dsimp only
    rw [copyToFIFO_eq, inv.ptrEnd, put_mod]
  rw [TxState.occupied] at fits
  rw [memory]
  rcases getElem?_concat _ _ isFrame with old | ⟨rfl, rfl⟩
  · have inside := (List.getElem?_eq_some_iff.mp old).1
    have later : place state.accepted state.reclaimed ≤ place state.accepted count :=
      place_mono _ (Nat.le_trans inv.reclaimed_le unsent)
    have short := length_le_txLen frame.length
    have before := place_le old
    rw [place_append _ (Nat.le_of_lt inside), get_put_before _ (by omega),
      inv.held count frame old unsent]
    rw [List.length_map, List.length_range, words]
    omega
  · have short := length_le_txLen packet.totLen
    rw [place_append _ (Nat.le_refl _), get_put, ← Packet.totLen,
      take_frameSource packet state]
    · rw [List.length_map, List.length_range, words]
      omega
    · rw [List.length_map, List.length_range, words]
      exact short

theorem TxInv.sendFrame {packet : Packet} (inv : TxInv state)
    (fits : state.occupied + txLen packet.totLen ≤ txBufSize)
    (free : state.waiting + 1 < bdMaxEntry) :
    TxInv (SmapTransmit.sendFrame packet state) := by
  have sent := inv.sent_le
  have taken := inv.reclaimed_le
  have last : (state.accepted ++ [packet.bytes]).length = state.accepted.length + 1 := by
    simp
  rw [TxState.waiting] at free
  constructor
  case sent_le =>
    change state.sent.length ≤ (state.accepted ++ [packet.bytes]).length
    omega
  case reclaimed_le => exact taken
  case room =>
    change (state.accepted ++ [packet.bytes]).length < state.reclaimed + bdMaxEntry
    omega
  case space =>
    change place (state.accepted ++ [packet.bytes])
        (state.accepted ++ [packet.bytes]).length ≤
      place (state.accepted ++ [packet.bytes]) state.reclaimed + txBufSize
    rw [TxState.occupied] at fits
    rw [place_length_append, place_append _ (by omega), ← Packet.totLen]
    omega
  case indexStart => exact inv.indexStart
  case indexEnd =>
    change bdNext state.indexEnd = (state.accepted ++ [packet.bytes]).length % bdMaxEntry
    rw [inv.indexEnd, bdNext_mod, last]
  case next => exact inv.next
  case ptrStart =>
    change state.ptrStart =
      place (state.accepted ++ [packet.bytes]) state.reclaimed % txBufSize
    rw [place_append _ (by omega), inv.ptrStart]
  case ptrEnd =>
    change (state.ptrEnd + txLen packet.totLen) % txBufSize =
      place (state.accepted ++ [packet.bytes])
        (state.accepted ++ [packet.bytes]).length % txBufSize
    rw [place_length_append, inv.ptrEnd, Nat.mod_add_mod, Packet.totLen]
  case onWire =>
    change state.sent = (state.accepted ++ [packet.bytes]).take state.sent.length
    rw [List.take_append_of_le_length sent]
    exact inv.onWire
  case filled =>
    intro count frame isFrame untaken
    change (Function.update state.bds state.indexEnd _ (count % bdMaxEntry)).length = _ ∧
      (Function.update state.bds state.indexEnd _ (count % bdMaxEntry)).pointer =
        place (state.accepted ++ [packet.bytes]) count % txBufSize + txBufBase
    rcases getElem?_concat _ _ isFrame with old | ⟨rfl, rfl⟩
    · have inside := (List.getElem?_eq_some_iff.mp old).1
      have room := inv.room
      have later : state.reclaimed ≤ count := untaken
      rw [inv.indexEnd, Function.update_of_ne (slot_ne inside (by omega)),
        place_append _ (Nat.le_of_lt inside)]
      exact inv.filled count frame old untaken
    · rw [inv.indexEnd, Function.update_self, place_append _ (Nat.le_refl _),
        ← inv.ptrEnd]
      exact ⟨rfl, rfl⟩
  case ready =>
    intro count unsent inside
    change (Function.update state.bds state.indexEnd _ (count % bdMaxEntry)).ctrlStat = _
    have room := inv.room
    have below : count < (state.accepted ++ [packet.bytes]).length := inside
    have later : state.sent.length ≤ count := unsent
    rw [inv.indexEnd]
    by_cases isNew : count = state.accepted.length
    · rw [isNew, Function.update_self]
    · rw [Function.update_of_ne (slot_ne (by omega) (by omega))]
      exact inv.ready count unsent (by omega)
  case idle =>
    intro count behind inside
    change (Function.update state.bds state.indexEnd _ (count % bdMaxEntry)).ready = false
    have above : (state.accepted ++ [packet.bytes]).length ≤ count := behind
    have below : count < state.sent.length + bdMaxEntry := inside
    rw [inv.indexEnd, Function.update_of_ne (slot_ne (by omega) (by omega)).symm]
    exact inv.idle count (by omega) inside
  case held =>
    intro count frame isFrame unsent
    exact inv.held_sendFrame fits isFrame unsent

/-! ### The controller sends one -/

theorem ready_of_status (status : BitVec 16) (length pointer : Nat) :
    (SMapBD.mk (status &&& ~~~bdTxReady) length pointer).ready = false := by
  have cleared : status &&& ~~~bdTxReady &&& bdTxReady = 0 := by
    rw [BitVec.and_assoc, BitVec.and_comm (~~~bdTxReady), BitVec.and_not_self]
    exact BitVec.and_zero
  rw [SMapBD.ready, cleared]
  rfl

theorem TxInv.getElem?_sent (inv : TxInv state)
    (unsent : state.sent.length < state.accepted.length) :
    state.accepted[state.sent.length]? = some (frameAt state state.next) := by
  have isFrame := List.getElem?_eq_getElem unsent
  rw [inv.next, inv.frameAt_eq isFrame (Nat.le_refl _), isFrame]

theorem TxInv.transmit (inv : TxInv state) (status : BitVec 16) :
    TxInv (SmapTransmit.transmit status state) := by
  have sent := inv.sent_le
  have taken := inv.reclaimed_le
  have room := inv.room
  rw [SmapTransmit.transmit]
  split
  case isFalse => exact inv
  case isTrue isReady =>
    have unsent : state.sent.length < state.accepted.length := by
      by_contra all
      have waits := inv.idle state.sent.length (by omega) (by rw [bdMaxEntry]; omega)
      rw [← inv.next, isReady] at waits
      cases waits
    have isFrame := inv.getElem?_sent unsent
    have more : (state.sent ++ [frameAt state state.next]).length =
      state.sent.length + 1 := by simp
    have other {count : Nat} (apart : count % bdMaxEntry ≠ state.sent.length % bdMaxEntry)
        (bd : SMapBD) : Function.update state.bds state.next bd (count % bdMaxEntry) =
          state.bds (count % bdMaxEntry) := by
      rw [inv.next]
      exact Function.update_of_ne apart _ _
    constructor
    case sent_le =>
      change (state.sent ++ [frameAt state state.next]).length ≤ state.accepted.length
      omega
    case reclaimed_le =>
      change state.reclaimed ≤ (state.sent ++ [frameAt state state.next]).length
      omega
    case room => exact inv.room
    case space => exact inv.space
    case indexStart => exact inv.indexStart
    case indexEnd => exact inv.indexEnd
    case next =>
      change bdNext state.next =
        (state.sent ++ [frameAt state state.next]).length % bdMaxEntry
      rw [more, inv.next, bdNext_mod]
    case ptrStart => exact inv.ptrStart
    case ptrEnd => exact inv.ptrEnd
    case onWire =>
      change state.sent ++ [frameAt state state.next] =
        state.accepted.take (state.sent ++ [frameAt state state.next]).length
      rw [more, List.take_add_one, isFrame, ← inv.onWire]
      rfl
    case filled =>
      intro count frame isOther untaken
      obtain ⟨length, pointer⟩ := inv.filled count frame isOther untaken
      by_cases same : count % bdMaxEntry = state.sent.length % bdMaxEntry
      · dsimp only
        rw [same, inv.next, Function.update_self, ← same]
        exact ⟨length, pointer⟩
      · dsimp only
        rw [other same]
        exact ⟨length, pointer⟩
    case ready =>
      intro count later inside
      have behind : (state.sent ++ [frameAt state state.next]).length ≤ count := later
      have below : count < state.accepted.length := inside
      dsimp only
      rw [other (slot_ne (by omega) (by omega)).symm]
      exact inv.ready count (by omega) inside
    case idle =>
      intro count behind inside
      have below : count < (state.sent ++ [frameAt state state.next]).length + bdMaxEntry :=
        inside
      dsimp only
      by_cases same : count % bdMaxEntry = state.sent.length % bdMaxEntry
      · rw [same, inv.next, Function.update_self]
        exact ready_of_status status _ _
      · rw [other same]
        apply inv.idle count behind
        by_contra turned
        have turn : count = state.sent.length + bdMaxEntry := by omega
        exact same (by rw [turn, Nat.add_mod_right])
    case held =>
      intro count frame isOther later
      have behind : (state.sent ++ [frameAt state state.next]).length ≤ count := later
      exact inv.held count frame isOther (by omega)

/-! ### A descriptor comes back -/

theorem TxInv.retire (inv : TxInv state) (isSent : state.reclaimed < state.sent.length) :
    TxInv (SmapTransmit.retire state) := by
  have sent := inv.sent_le
  have room := inv.room
  have isFrame := List.getElem?_eq_getElem (l := state.accepted) (i := state.reclaimed)
    (by omega)
  obtain ⟨length, -⟩ := inv.filled state.reclaimed _ isFrame (Nat.le_refl _)
  have onward := place_succ isFrame
  constructor
  case sent_le => exact inv.sent_le
  case reclaimed_le => exact isSent
  case room =>
    change state.accepted.length < state.reclaimed + 1 + bdMaxEntry
    omega
  case space =>
    change place state.accepted state.accepted.length ≤
      place state.accepted (state.reclaimed + 1) + txBufSize
    have space := inv.space
    omega
  case indexStart =>
    change bdNext state.indexStart = (state.reclaimed + 1) % bdMaxEntry
    rw [inv.indexStart, bdNext_mod]
  case indexEnd => exact inv.indexEnd
  case next => exact inv.next
  case ptrStart =>
    change (state.ptrStart + txLen (state.bds state.indexStart).length) % txBufSize =
      place state.accepted (state.reclaimed + 1) % txBufSize
    rw [inv.ptrStart, inv.indexStart, length, Nat.mod_add_mod, onward]
  case ptrEnd => exact inv.ptrEnd
  case onWire => exact inv.onWire
  case filled =>
    intro count frame isOther untaken
    change (Function.update state.bds state.indexStart _ (count % bdMaxEntry)).length = _ ∧
      (Function.update state.bds state.indexStart _ (count % bdMaxEntry)).pointer = _
    have inside := (List.getElem?_eq_some_iff.mp isOther).1
    have below : count < state.accepted.length := inside
    have later : state.reclaimed + 1 ≤ count := untaken
    rw [inv.indexStart, Function.update_of_ne (slot_ne (by omega) (by omega)).symm]
    exact inv.filled count frame isOther (by omega)
  case ready =>
    intro count unsent inside
    change (Function.update state.bds state.indexStart _ (count % bdMaxEntry)).ctrlStat = _
    have below : count < state.accepted.length := inside
    have later : state.sent.length ≤ count := unsent
    rw [inv.indexStart, Function.update_of_ne (slot_ne (by omega) (by omega)).symm]
    exact inv.ready count unsent inside
  case idle =>
    intro count behind inside
    change (Function.update state.bds state.indexStart _ (count % bdMaxEntry)).ready = false
    rw [inv.indexStart]
    by_cases same : count % bdMaxEntry = state.reclaimed % bdMaxEntry
    · rw [same, Function.update_self]
      exact rfl
    · rw [Function.update_of_ne same]
      exact inv.idle count behind inside
  case held => exact inv.held

/-! ### An interrupt -/

/-- A descriptor that waits to be sent already counts as an error: the bits that ask
for a checksum and for padding are those of two errors. -/
theorem waiting_failed {bd : SMapBD}
    (isWaiting : bd.ctrlStat = bdTxReady ||| bdTxGenFcs ||| bdTxGenPad) :
    bd.ready = true ∧ bd.failed = true := by
  rw [SMapBD.ready, SMapBD.failed, isWaiting]
  decide

theorem TxInv.indices_eq_iff (inv : TxInv state) :
    state.indexStart = state.indexEnd ↔ state.reclaimed = state.accepted.length := by
  have before := Nat.le_trans inv.reclaimed_le inv.sent_le
  rw [inv.indexStart, inv.indexEnd]
  constructor
  · intro same
    by_contra apart
    exact slot_ne (by omega) inv.room same
  · intro same
    rw [same]

/-- What an interrupt leaves. -/
structure Reclaimed (state next : TxState) : Prop where
  inv : TxInv next
  accepted : next.accepted = state.accepted
  sent : next.sent = state.sent
  reclaimed : next.reclaimed = state.sent.length

/-- No descriptor to be taken back has an error. -/
def AllWell (state : TxState) : Prop :=
  ∀ count, state.reclaimed ≤ count → count < state.sent.length →
    (state.bds (count % bdMaxEntry)).failed = false

theorem AllWell.retire_iff (inv : TxInv state)
    (isSent : state.reclaimed < state.sent.length) :
    AllWell state ↔ (state.bds state.indexStart).failed = false ∧
      AllWell (retire state) := by
  have room := inv.room
  have sent := inv.sent_le
  have same {count : Nat} (later : state.reclaimed < count)
      (below : count < state.sent.length) (bd : SMapBD) :
      Function.update state.bds state.indexStart bd (count % bdMaxEntry) =
        state.bds (count % bdMaxEntry) := by
    rw [inv.indexStart]
    exact Function.update_of_ne (slot_ne later (by omega)).symm _ _
  constructor
  · intro well
    refine ⟨?_, ?_⟩
    · rw [inv.indexStart]
      exact well state.reclaimed (Nat.le_refl _) isSent
    · intro count later below
      rw [SmapTransmit.retire]
      dsimp only
      rw [same later below]
      exact well count (Nat.le_of_succ_le later) below
  · rintro ⟨first, rest⟩ count later below
    by_cases isFirst : count = state.reclaimed
    · rw [isFirst, ← inv.indexStart]
      exact first
    · have well := rest count (show state.reclaimed + 1 ≤ count by omega) below
      rw [SmapTransmit.retire] at well
      dsimp only at well
      rwa [same (by omega) below] at well

theorem TxInv.settled (inv : TxInv state) (all : state.reclaimed = state.sent.length) :
    Reclaimed state state ∧ AllWell state := by
  refine ⟨⟨inv, rfl, rfl, all⟩, ?_⟩
  intro count later below
  omega

/-- A descriptor that was sent is taken back by the next round. -/
theorem TxInv.unready (inv : TxInv state) (isSent : state.reclaimed < state.sent.length) :
    (state.bds state.indexStart).ready = false := by
  have sent := inv.sent_le
  have idle := inv.idle (state.reclaimed + bdMaxEntry) (Nat.le_of_lt inv.room) (by omega)
  rwa [Nat.add_mod_right, ← inv.indexStart] at idle

theorem reclaim_spec (rounds : Nat) (noError : Bool) (inv : TxInv state)
    (enough : state.waiting < rounds) :
    Reclaimed state (reclaim rounds noError state).2 ∧
      ((reclaim rounds noError state).1 = true ↔
        noError = true ∧ state.sent.length = state.accepted.length ∧ AllWell state) := by
  induction rounds generalizing state noError with
  | zero => cases enough
  | succ rounds ih =>
      have sent := inv.sent_le
      have taken := inv.reclaimed_le
      rw [reclaim]
      by_cases empty : state.indexStart = state.indexEnd
      · have all := inv.indices_eq_iff.mp empty
        obtain ⟨settled, well⟩ := inv.settled (by omega)
        have same : state.ptrEnd = state.ptrStart := by
          rw [inv.ptrEnd, inv.ptrStart, all]
        have whole : { state with ptrStart := state.ptrEnd } = state :=
          congrArg (fun place => { state with ptrStart := place }) same
        rw [if_pos empty, whole]
        refine ⟨settled, fun isTrue => ⟨isTrue, by omega, well⟩, fun isTrue => isTrue.1⟩
      · rw [if_neg empty]
        by_cases isSent : state.reclaimed < state.sent.length
        · have waits : (SmapTransmit.retire state).waiting < rounds := by
            have one : state.accepted.length - state.reclaimed < rounds + 1 := enough
            change state.accepted.length - (state.reclaimed + 1) < rounds
            omega
          obtain ⟨reclaimed, flag⟩ :=
            ih (noError && !(state.bds state.indexStart).failed) (inv.retire isSent) waits
          simp only [inv.unready isSent, Bool.false_eq_true, if_false]
          refine ⟨⟨reclaimed.inv, reclaimed.accepted, reclaimed.sent,
            reclaimed.reclaimed⟩, flag.trans ?_⟩
          rw [Bool.and_eq_true, Bool.not_eq_true', AllWell.retire_iff inv isSent]
          exact ⟨fun ⟨⟨before, first⟩, all, rest⟩ => ⟨before, all, first, rest⟩,
            fun ⟨before, all, first, rest⟩ => ⟨⟨before, first⟩, all, rest⟩⟩
        · have unsent : state.reclaimed ≠ state.accepted.length :=
            fun all => empty (inv.indices_eq_iff.mpr all)
          obtain ⟨isReady, failed⟩ :=
            waiting_failed (inv.ready state.reclaimed (by omega) (by omega))
          rw [← inv.indexStart] at isReady failed
          simp only [isReady, failed, Bool.not_true, Bool.and_false, if_true]
          refine ⟨(inv.settled (by omega)).1, ?_⟩
          constructor
          · intro isTrue
            cases isTrue
          · rintro ⟨-, all, -⟩
            omega

theorem handleTXInt_spec (inv : TxInv state) :
    Reclaimed state (handleTXInt state).2 ∧
      ((handleTXInt state).1 = true ↔
        state.sent.length = state.accepted.length ∧ AllWell state) := by
  have room := inv.room
  have waits : state.accepted.length - state.reclaimed < bdMaxEntry := by
    have some : 0 < bdMaxEntry := by decide
    omega
  have spec := reclaim_spec bdMaxEntry true inv waits
  simpa [handleTXInt] using spec

/-! ### Runs -/

theorem smapSend_eq (packet : Packet) (gnp : Nat → Bool) (state : TxState) :
    smapSend packet gnp state = (.ok, sendFrame packet state) ∧
        txLen packet.totLen ≤ computeFreeSize state ∨
      (smapSend packet gnp state).1 ≠ .ok ∧ (smapSend packet gnp state).2 = state := by
  grind [smapSend]

theorem smapSend_ok {packet : Packet} {gnp : Nat → Bool}
    (accepted : (smapSend packet gnp state).1 = .ok) :
    txLen packet.totLen ≤ computeFreeSize state ∧
      (smapSend packet gnp state).2 = sendFrame packet state := by
  rcases smapSend_eq packet gnp state with ⟨sent, fits⟩ | ⟨refused, -⟩
  · exact ⟨fits, congrArg Prod.snd sent⟩
  · exact absurd accepted refused

theorem smapSend_refused {packet : Packet} {gnp : Nat → Bool}
    (refused : (smapSend packet gnp state).1 ≠ .ok) :
    (smapSend packet gnp state).2 = state := by
  rcases smapSend_eq packet gnp state with ⟨sent, -⟩ | ⟨-, same⟩
  · exact absurd (congrArg Prod.fst sent) refused
  · exact same

theorem txStep_inv (event : Event) (inv : TxInv state) (met : Met state event) :
    TxInv (txStep state event) := by
  cases event with
  | send packet gnp =>
      by_cases accepted : (smapSend packet gnp state).1 = .ok
      · obtain ⟨fits, free⟩ := met accepted
        rw [txStep, (smapSend_ok accepted).2]
        exact inv.sendFrame fits free
      · rw [txStep, smapSend_refused accepted]
        exact inv
  | transmit status => exact inv.transmit status
  | txInterrupt => exact (handleTXInt_spec inv).1.inv

/-- One frame less waits behind each transmission, until none does. -/
theorem TxInv.transmit_all (inv : TxInv state) (statuses : List (BitVec 16))
    (enough : state.accepted.length = state.sent.length + statuses.length) :
    (statuses.foldl (fun state status => SmapTransmit.transmit status state)
      state).sent = state.accepted := by
  induction statuses generalizing state with
  | nil =>
      rw [List.length_nil, Nat.add_zero] at enough
      rw [List.foldl_nil, inv.onWire, ← enough, List.take_length]
  | cons status rest ih =>
      rw [List.length_cons] at enough
      have unsent : state.sent.length < state.accepted.length := by omega
      have isReady := (waiting_failed (inv.ready _ (Nat.le_refl _) unsent)).1
      rw [← inv.next] at isReady
      have next := ih (inv.transmit status)
      rw [SmapTransmit.transmit, if_pos isReady] at next
      rw [List.foldl_cons, SmapTransmit.transmit, if_pos isReady]
      apply next
      dsimp only
      rw [List.length_append, List.length_singleton]
      omega

variable {linkValid : Bool} {txBuf : Image} {txMem : Nat → Byte} {events : List Event}

theorem txInv_foldl
    (meets : ∀ before event after, events = before ++ event :: after →
      Met (before.foldl txStep (started linkValid txBuf txMem)) event)
    (done : List Event) (reached : done <+: events) :
    TxInv (done.foldl txStep (started linkValid txBuf txMem)) :=
  foldl_invariant (txInv_started linkValid txBuf txMem)
    (fun _ event inv met => txStep_inv event inv met)
    (fun before event after split _ => meets before event after split)
    done reached

/-- When every frame accepted fits, the frames are sent in order, whole and once, and
none of them stays behind. -/
theorem frames_inOrder
    (meets : ∀ before event after, events = before ++ event :: after →
      Met (before.foldl txStep (started linkValid txBuf txMem)) event) :
    (∀ done, done <+: events →
        InOrder (done.foldl txStep (started linkValid txBuf txMem))) ∧
      let state := events.foldl txStep (started linkValid txBuf txMem)
      ∀ statuses : List (BitVec 16), statuses.length = state.pending.length →
        (statuses.foldl (fun state status => transmit status state) state).sent =
          state.accepted := by
  have inv := txInv_foldl meets
  constructor
  · intro done reached
    exact (inv done reached).inOrder
  · intro state statuses enough
    have last := inv events List.prefix_rfl
    apply last.transmit_all
    rw [enough, last.pending_eq, List.length_drop]
    have sent := last.sent_le
    omega

/-- A frame of the largest size. -/
def largePacket : Packet where
  payload := List.replicate 1514 0
  rest := []
  behind := fun _ => 0
  aligned := true

/-- Two frames are taken back, the third runs around the end of the memory and is sent
with an error, and the fourth waits. -/
def turnEvents : List Event :=
  [.send largePacket fun _ => false, .send largePacket fun _ => false, .transmit 0,
    .transmit 0, .txInterrupt, .send largePacket fun _ => false, .transmit 1,
    .send largePacket fun _ => false]

theorem met_turnEvents : ∀ before event after, turnEvents = before ++ event :: after →
    Met (before.foldl txStep (started true (fun _ => 0) (fun _ => 0))) event := by
  apply RunMeets.split
  refine ⟨fun _ => ?_, fun _ => ?_, trivial, trivial, trivial, fun _ => ?_, trivial,
    fun _ => ?_, trivial⟩
  · decide +kernel
  · decide +kernel
  · decide +kernel
  · decide +kernel

theorem frames_inOrder_turn :
    (∀ done, done <+: turnEvents →
        InOrder (done.foldl txStep (started true (fun _ => 0) (fun _ => 0)))) ∧
      let state := turnEvents.foldl txStep (started true (fun _ => 0) (fun _ => 0))
      ∀ statuses : List (BitVec 16), statuses.length = state.pending.length →
        (statuses.foldl (fun state status => transmit status state) state).sent =
          state.accepted :=
  frames_inOrder met_turnEvents

/-! ### What is free -/

/-- Around the end the driver takes what is occupied for what is free. -/
theorem TxInv.computeFreeSize_eq (inv : TxInv state) :
    computeFreeSize state =
      if state.ptrEnd < state.ptrStart then state.occupied
      else if state.occupied = txBufSize then txBufSize
      else txBufSize - state.occupied := by
  have space := inv.space
  have mono := place_mono state.accepted (Nat.le_trans inv.reclaimed_le inv.sent_le)
  obtain ⟨more, isEnd⟩ := Nat.exists_eq_add_of_le mono
  have occupied : state.occupied = more := by
    rw [TxState.occupied]
    omega
  have fits : more ≤ txBufSize := by omega
  have below := Nat.mod_lt (place state.accepted state.reclaimed)
    (show 0 < txBufSize by decide)
  rw [computeFreeSize, inv.ptrStart, inv.ptrEnd, occupied, isEnd]
  generalize place state.accepted state.reclaimed = start at below ⊢
  by_cases full : more = txBufSize
  · subst full
    rw [Nat.add_mod_right, if_neg (Nat.lt_irrefl _), if_neg (Nat.lt_irrefl _), if_pos rfl,
      Nat.sub_self, Nat.sub_zero]
  · have turn : more < txBufSize := by omega
    have rest : (start + more) % txBufSize = start % txBufSize + more ∨
        (start + more) % txBufSize + txBufSize = start % txBufSize + more :=
      add_mod_cases turn
    rw [if_neg full]
    generalize start % txBufSize = near at below rest ⊢
    generalize (start + more) % txBufSize = far at rest ⊢
    rcases rest with straight | around
    · rw [if_neg (by omega), if_neg (by omega)]
      omega
    · rw [if_pos (by omega), if_pos (by omega)]
      omega

/-- An interrupt takes back all descriptors sent, and answers no error exactly when
none of them has one and none is left. -/
theorem handleTXInt_settles
    (meets : ∀ before event after, events = before ++ event :: after →
      Met (before.foldl txStep (started linkValid txBuf txMem)) event) :
    let state := events.foldl txStep (started linkValid txBuf txMem)
    (handleTXInt state).2.waiting = state.accepted.length - state.sent.length ∧
      (handleTXInt state).2.pending = state.pending ∧
      ((handleTXInt state).1 = true ↔ state.pending = [] ∧ AllWell state) := by
  have inv := txInv_foldl meets events List.prefix_rfl
  generalize events.foldl txStep (started linkValid txBuf txMem) = state at inv ⊢
  obtain ⟨settled, flag⟩ := handleTXInt_spec inv
  have sent := inv.sent_le
  dsimp only
  refine ⟨?_, ?_, ?_⟩
  · rw [TxState.waiting, settled.accepted, settled.reclaimed]
  · rw [settled.inv.pending_eq, inv.pending_eq, settled.accepted, settled.sent]
  · rw [flag, inv.pending_eq, List.drop_eq_nil_iff]
    exact and_congr_left fun _ => by omega

theorem handleTXInt_settles_turn :
    let state := turnEvents.foldl txStep (started true (fun _ => 0) (fun _ => 0))
    (handleTXInt state).2.waiting = state.accepted.length - state.sent.length ∧
      (handleTXInt state).2.pending = state.pending ∧
      ((handleTXInt state).1 = true ↔ state.pending = [] ∧ AllWell state) :=
  handleTXInt_settles met_turnEvents

end KernelReloaded.SmapTransmit
