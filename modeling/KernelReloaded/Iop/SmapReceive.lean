/-
The EE buffer of the IOP network module.

The RPC thread sets the buffer in two steps, with the size at 0 in between, and
the interrupt of the receiver passes on the frames.  The pool of frame buffers
and the transmit queue run along.

`given`, `last`, `copies` and `transfers` are records of the run and are never
read by the code.
-/

import KernelReloaded.Core.Rounding
import KernelReloaded.Core.WordBlocks
import KernelReloaded.Iop.SmapQueue

namespace KernelReloaded.SmapReceive

open Memory Rounding Smap WordBlocks

def dmaTransferSize : Word := 64

def nrOfSmapRxMsgs : Nat := 16

/-! ### State -/

/-- The copy of a frame to be sent. -/
structure Copy where
  index : Nat
  start : Nat
  size : Nat

/-- A message for the EE with the transfer of its frame. -/
structure Transfer where
  /-- The two arguments of the last SMAP_CMD_SET_BUFFER. -/
  given : Word × Word
  nr : Nat
  payload : Word
  size : Nat
  /-- The frame transferred to the same buffer just before. -/
  previous : Option (Word × Nat)

structure InputState where
  smap : SmapState
  eeBuffer : Word
  eeBufferPos : Word
  eeBufferSize : Word
  nr : Nat
  /-- The size argument of the command in progress. -/
  setting : Option Word
  given : Word × Word
  last : Option (Word × Nat)
  copies : List Copy
  transfers : List Transfer

/-! ### The code -/

def alignOffset (eeBuffer : Word) : Word :=
  let offset := dmaTransferSize - (eeBuffer &&& (dmaTransferSize - 1))
  if offset = dmaTransferSize then 0 else offset

/-- Up to the assignment of `ee_buffer`. -/
def setBuffer (buffer size : Word) (state : InputState) : InputState :=
  { state with
    eeBufferSize := 0
    eeBuffer := buffer
    setting := some size
    given := (buffer, size)
    last := none }

def finishSetBuffer (size : Word) (state : InputState) : InputState :=
  if (0 : Word).ult size then
    let offset := alignOffset state.eeBuffer
    { state with
      eeBuffer := state.eeBuffer + offset
      eeBufferPos := 0
      eeBufferSize := size - offset
      setting := none }
  else
    { state with setting := none }

def roundPos (pos : Word) (totLen : Nat) : Word :=
  pos + BitVec.ofNat 32 totLen + dmaTransferSize - 1 &&& ~~~(dmaTransferSize - 1)

/-- The position of the next frame. -/
def framePos (totLen : Nat) (state : InputState) : Word :=
  if state.eeBufferSize.ult (state.eeBufferPos + BitVec.ofNat 32 totLen) then 0
  else state.eeBufferPos

def smapLowLevelInput (totLen : Nat) (state : InputState) : InputState :=
  if (0 : Word).ult state.eeBufferSize then
    let pos := framePos totLen state
    let payload := state.eeBuffer + pos
    { state with
      eeBufferPos := roundPos pos totLen
      nr := (state.nr + 1) % nrOfSmapRxMsgs
      last := some (payload, totLen)
      transfers :=
        { given := state.given, nr := state.nr, payload := payload, size := totLen
          previous := state.last } :: state.transfers }
  else
    state

/-- Whether `HandleRXInt` accepts a frame and has a buffer for it. -/
def TakesFrame (bytes : List Byte) (dmaDone : Int → Bool) (state : InputState) :
    Prop :=
  rxMinSize ≤ bytes.length ∧ bytes.length ≤ rxMaxSize ∧
    (freeBuffer (pbufCheckTransfers dmaDone state.smap)).isSome = true

instance (bytes : List Byte) (dmaDone : Int → Bool) (state : InputState) :
    Decidable (TakesFrame bytes dmaDone state) :=
  inferInstanceAs (Decidable (_ ∧ _ ∧ _))

/-- The buffer's transfer id stays 0 without an EE buffer. -/
def handleRxInt (bytes : List Byte) (dmaDone : Int → Bool) (id : Int)
    (state : InputState) : InputState :=
  let smap := receiveFrame bytes dmaDone
    (if (0 : Word).ult state.eeBufferSize then id else 0) state.smap
  if TakesFrame bytes dmaDone state then
    smapLowLevelInput bytes.length { state with smap := smap }
  else
    { state with smap := smap }

/-- The frame is copied to the slot of the buffer that is allocated. -/
def recordCopy (bytes : List Byte) (next : SmapState) (state : InputState) :
    InputState :=
  match next.sending with
  | none => { state with smap := next }
  | some index =>
      { state with
        smap := next
        copies :=
          { index := index, start := frameSize * index, size := bytes.length } ::
            state.copies }

/-! ### Steps -/

inductive InputEvent where
  /-- SMAP_CMD_SEND, up to the call of `SMapLowLevelOutput`. -/
  | send (bytes : List Byte) (dmaDone : Int → Bool)
  | setBuffer (buffer size : Word)
  | finishSetBuffer
  /-- The command for the address, and the ones that are not known. -/
  | other
  | receive (bytes : List Byte) (dmaDone : Int → Bool) (id : Int)
  | attempt (answer : SmapStatus)
  | txInterrupt (answers : Nat → SmapStatus)
  | tick (answers : Nat → SmapStatus)

/-- There is one RPC thread. -/
def InputState.Idle (state : InputState) : Prop :=
  state.setting = none ∧ state.smap.sending = none

instance (state : InputState) : Decidable state.Idle :=
  inferInstanceAs (Decidable (_ ∧ _))

def inputStep (state : InputState) : InputEvent → Option InputState
  | .send bytes dmaDone =>
      if state.Idle then
        (smapStep state.smap (.request bytes dmaDone)).map
          fun next => recordCopy bytes next state
      else none
  | .setBuffer buffer size =>
      if state.Idle then some (setBuffer buffer size state) else none
  | .finishSetBuffer => state.setting.map fun size => finishSetBuffer size state
  | .other => if state.Idle then some state else none
  | .receive bytes dmaDone id => some (handleRxInt bytes dmaDone id state)
  | .attempt answer =>
      (smapStep state.smap (.attempt answer)).map
        fun next => { state with smap := next }
  | .txInterrupt answers =>
      (smapStep state.smap (.txInterrupt answers)).map
        fun next => { state with smap := next }
  | .tick answers =>
      (smapStep state.smap (.tick answers)).map
        fun next => { state with smap := next }

def inputMachine : Machine InputState InputEvent :=
  { initial :=
      { smap := smapMachine.initial
        eeBuffer := 0
        eeBufferPos := 0
        eeBufferSize := 0
        nr := 0
        setting := none
        given := (0, 0)
        last := none
        copies := []
        transfers := [] }
    step := inputStep }

/-! ### What is wanted -/

def Copy.Right (copy : Copy) : Prop :=
  ∀ address, copy.start ≤ address → address < copy.start + copy.size →
    frameSize * copy.index ≤ address ∧ address < frameSize * (copy.index + 1)

/-- The part of the buffer behind its first aligned address holds two frames of
the largest size. -/
def HoldsTwo (given : Word × Word) : Prop :=
  (alignOffset given.1).toNat + 2 * frameSize ≤ given.2.toNat

structure Transfer.Right (transfer : Transfer) : Prop where
  inside : Inside transfer.payload transfer.size transfer.given.1
    transfer.given.2.toNat
  aligned : transfer.payload.toNat % 64 = 0
  apart : HoldsTwo transfer.given → ∀ previous ∈ transfer.previous,
    Apart transfer.payload transfer.size previous.1 previous.2

structure InputState.Right (state : InputState) : Prop where
  copies : ∀ copy ∈ state.copies, copy.Right
  transfers : ∀ transfer ∈ state.transfers, transfer.Right

/-- The frame fits behind the first aligned address, the sum of its position and
length does not wrap, and going back to the start is safe: the frame before it is
not where it comes to lie. -/
structure FrameMet (totLen : Nat) (state : InputState) : Prop where
  fits : (alignOffset state.given.1).toNat + totLen ≤ state.given.2.toNat
  sum : state.eeBufferPos.toNat + totLen < 4294967296
  back : HoldsTwo state.given →
    state.eeBufferSize.toNat < state.eeBufferPos.toNat + totLen →
      ∀ previous ∈ state.last, totLen ≤ (previous.1 - state.eeBuffer).toNat

def Met (state : InputState) : InputEvent → Prop
  | .send bytes dmaDone =>
      (freeBuffer (pbufCheckTransfers dmaDone state.smap)).isSome = true →
        bytes.length ≤ frameSize
  | .receive bytes dmaDone _ =>
      TakesFrame bytes dmaDone state → 0 < state.eeBufferSize.toNat →
        FrameMet bytes.length state
  | _ => True

/-! ### The words -/

theorem toNat_alignOffset (eeBuffer : Word) :
    (alignOffset eeBuffer).toNat = (64 - eeBuffer.toNat % 64) % 64 := by
  have isMask : dmaTransferSize - 1 = lowBits 32 6 := by decide
  have size : dmaTransferSize.toNat = 64 := rfl
  have low : (eeBuffer &&& lowBits 32 6).toNat = eeBuffer.toNat % 64 :=
    toNat_and_lowBits eeBuffer (by decide)
  have offset : (dmaTransferSize - (eeBuffer &&& lowBits 32 6)).toNat =
      64 - eeBuffer.toNat % 64 := by
    rw [BitVec.toNat_sub, low, size]
    omega
  rw [alignOffset, isMask]
  split
  case isTrue whole =>
    rw [whole, size] at offset
    have zero : (0 : Word).toNat = 0 := rfl
    omega
  case isFalse part =>
    have other : 64 - eeBuffer.toNat % 64 ≠ 64 := by
      intro same
      exact part (BitVec.eq_of_toNat_eq (by rw [offset, same, size]))
    omega

theorem alignOffset_aligned (eeBuffer : Word) :
    (eeBuffer + alignOffset eeBuffer).toNat % 64 = 0 := by
  have offset := toNat_alignOffset eeBuffer
  rw [BitVec.toNat_add]
  omega

theorem toNat_roundPos (pos : Word) (totLen : Nat) (small : totLen < 4294967296) :
    (roundPos pos totLen).toNat =
      (pos.toNat + totLen + 63) / 64 * 64 % 4294967296 := by
  have isMask : dmaTransferSize - 1 = lowBits 32 6 := by decide
  rw [roundPos, toNat_roundUp isMask (by decide), BitVec.toNat_add,
    BitVec.toNat_ofNat]
  omega

theorem toNat_framePos (state : InputState) (totLen : Nat)
    (small : totLen < 4294967296) :
    (framePos totLen state).toNat =
      if state.eeBufferSize.toNat <
          (state.eeBufferPos.toNat + totLen) % 4294967296 then 0
      else state.eeBufferPos.toNat := by
  have sum : (state.eeBufferPos + BitVec.ofNat 32 totLen).toNat =
      (state.eeBufferPos.toNat + totLen) % 4294967296 := by
    rw [BitVec.toNat_add, BitVec.toNat_ofNat, Nat.mod_eq_of_lt small]
  rw [framePos, BitVec.ult, sum]
  split
  case isTrue beyond => rw [if_pos (of_decide_eq_true beyond)]; rfl
  case isFalse within =>
    rw [if_neg fun beyond => within (decide_eq_true beyond)]

/-! ### The buffer -/

/-- Where the last frame is, and the position behind it. -/
structure Behind (state : InputState) (payload : Word) (size : Nat) (place : Nat) :
    Prop where
  payload : payload = state.eeBuffer + BitVec.ofNat 32 place
  some : 0 < size
  small : size ≤ rxMaxSize
  aligned : (alignOffset state.given.1).toNat ≤ state.given.2.toNat
  within : place + size ≤ state.eeBufferSize.toNat
  pos : state.eeBufferPos.toNat = (place + size + 63) / 64 * 64 % 4294967296

/-- A buffer that is in use. -/
structure Buffered (state : InputState) : Prop where
  start : state.eeBuffer = state.given.1 + alignOffset state.given.1
  size : state.eeBufferSize = state.given.2 - alignOffset state.given.1
  pos : state.eeBufferPos.toNat % 64 = 0
  first : state.last = none → state.eeBufferPos = 0
  later : ∀ previous ∈ state.last, ∃ place,
    Behind state previous.1 previous.2 place

def InputState.frame (state : InputState) (totLen : Nat) : Transfer :=
  { given := state.given, nr := state.nr
    payload := state.eeBuffer + framePos totLen state, size := totLen
    previous := state.last }

theorem Buffered.inside_iff {state : InputState} (buffered : Buffered state)
    {totLen : Nat} (some : 0 < totLen) (small : totLen < 4294967296) :
    Inside (state.frame totLen).payload totLen state.given.1
        state.given.2.toNat ↔
      (alignOffset state.given.1).toNat + (framePos totLen state).toNat + totLen ≤
        state.given.2.toNat := by
  have offset := toNat_alignOffset state.given.1
  have pos := toNat_framePos state totLen small
  have aligned := buffered.pos
  have bound := state.eeBufferPos.isLt
  have payload : (state.frame totLen).payload = state.given.1 +
      BitVec.ofNat 32 ((alignOffset state.given.1).toNat +
        (framePos totLen state).toNat) := by
    rw [BitVec.ofNat_add, BitVec.ofNat_toNat, BitVec.ofNat_toNat,
      BitVec.setWidth_eq, BitVec.setWidth_eq, ← BitVec.add_assoc,
      ← buffered.start]
    rfl
  rw [payload]
  refine WordBlocks.inside_iff ?_ some state.given.2.isLt
  rw [pos]
  split <;> omega

theorem Buffered.frame_aligned {state : InputState} (buffered : Buffered state)
    {totLen : Nat} (small : totLen < 4294967296) :
    (state.frame totLen).payload.toNat % 64 = 0 := by
  have start := alignOffset_aligned state.given.1
  have pos := toNat_framePos state totLen small
  have aligned := buffered.pos
  rw [← buffered.start] at start
  have position : (framePos totLen state).toNat % 64 = 0 := by
    rw [pos]
    split <;> omega
  change (state.eeBuffer + framePos totLen state).toNat % 64 = 0
  rw [BitVec.toNat_add]
  omega

/-- The size in use, when the first aligned address is in the buffer. -/
theorem Buffered.room {state : InputState} (buffered : Buffered state)
    (aligned : (alignOffset state.given.1).toNat ≤ state.given.2.toNat) :
    state.eeBufferSize.toNat =
      state.given.2.toNat - (alignOffset state.given.1).toNat := by
  have bound := state.given.2.isLt
  rw [buffered.size, BitVec.toNat_sub]
  omega

theorem Buffered.fits_iff {state : InputState} (buffered : Buffered state)
    {totLen : Nat} (some : 0 < totLen) (small : totLen ≤ rxMaxSize) :
    (alignOffset state.given.1).toNat + (framePos totLen state).toNat + totLen ≤
        state.given.2.toNat ↔
      (alignOffset state.given.1).toNat + totLen ≤ state.given.2.toNat ∧
        state.eeBufferPos.toNat + totLen < 4294967296 := by
  have most : rxMaxSize = 1518 := rfl
  have pos := toNat_framePos state totLen (by omega)
  have offset := toNat_alignOffset state.given.1
  have bound := state.given.2.isLt
  have posBound := state.eeBufferPos.isLt
  by_cases aligned : (alignOffset state.given.1).toNat ≤ state.given.2.toNat
  · have room := buffered.room aligned
    have reach : state.eeBufferPos.toNat < state.eeBufferSize.toNat + 64 := by
      cases isLast : state.last with
      | none =>
          have first : state.eeBufferPos.toNat = 0 :=
            congrArg BitVec.toNat (buffered.first isLast)
          omega
      | some previous =>
          obtain ⟨place, behind⟩ := buffered.later previous isLast
          have within := behind.within
          have pos := behind.pos
          omega
    rw [pos]
    split <;> omega
  · constructor <;> intro fits <;> omega

theorem Buffered.apart_iff {state : InputState} (buffered : Buffered state)
    {totLen : Nat} (some : 0 < totLen) (small : totLen ≤ rxMaxSize)
    (sum : state.eeBufferPos.toNat + totLen < 4294967296)
    {previous : Word × Nat} (isLast : previous ∈ state.last) :
    Apart (state.frame totLen).payload totLen previous.1 previous.2 ↔
      (state.eeBufferSize.toNat < state.eeBufferPos.toNat + totLen →
        totLen ≤ (previous.1 - state.eeBuffer).toNat) := by
  have most : rxMaxSize = 1518 := rfl
  have pos := toNat_framePos state totLen (by omega)
  have bound := state.eeBufferSize.isLt
  obtain ⟨place, payload, other, otherSmall, aligned, within, behind⟩ :=
    buffered.later previous isLast
  have room := buffered.room aligned
  have distance : (previous.1 - state.eeBuffer).toNat = place := by
    rw [payload, toNat_distance state.eeBuffer (by omega)]
  have place' : (state.frame totLen).payload =
      state.eeBuffer + BitVec.ofNat 32 (framePos totLen state).toNat := by
    rw [BitVec.ofNat_toNat, BitVec.setWidth_eq]
    rfl
  have inBuffer : (framePos totLen state).toNat + totLen ≤ 4294967296 := by
    rw [pos]
    split <;> omega
  rw [distance, place', payload, WordBlocks.apart_iff inBuffer (by omega) some other,
    pos]
  split <;> omega

theorem Buffered.right_iff {state : InputState} (buffered : Buffered state)
    {totLen : Nat} (some : 0 < totLen) (small : totLen ≤ rxMaxSize) :
    (state.frame totLen).Right ↔ FrameMet totLen state := by
  have most : rxMaxSize = 1518 := rfl
  have inside := (buffered.inside_iff some (by omega)).trans
    (buffered.fits_iff some small)
  constructor
  · intro right
    obtain ⟨fits, sum⟩ := inside.mp right.inside
    refine ⟨fits, sum, ?_⟩
    intro two beyond previous isLast
    exact (buffered.apart_iff some small sum isLast).mp
      (right.apart two previous isLast) beyond
  · intro met
    refine ⟨inside.mpr ⟨met.fits, met.sum⟩,
      buffered.frame_aligned (by omega), ?_⟩
    intro two previous isLast
    exact (buffered.apart_iff some small met.sum isLast).mpr
      fun beyond => met.back two beyond previous isLast

theorem Buffered.lowLevelInput {state : InputState} (buffered : Buffered state)
    {totLen : Nat} (some : 0 < totLen) (small : totLen ≤ rxMaxSize)
    (used : (0 : Word).ult state.eeBufferSize) (met : FrameMet totLen state) :
    Buffered (smapLowLevelInput totLen state) := by
  have most : rxMaxSize = 1518 := rfl
  have inside := (buffered.fits_iff some small).mpr ⟨met.fits, met.sum⟩
  have aligned : (alignOffset state.given.1).toNat ≤ state.given.2.toNat := by
    omega
  have room := buffered.room aligned
  have bound := state.eeBufferSize.isLt
  have pos := toNat_roundPos (framePos totLen state) totLen (by omega)
  rw [smapLowLevelInput, if_pos used]
  refine ⟨buffered.start, buffered.size, ?_, nofun, ?_⟩
  · dsimp only
    omega
  · intro previous isLast
    cases isLast
    refine ⟨(framePos totLen state).toNat, ?_, some, small, aligned, ?_, pos⟩
    · dsimp only
      rw [BitVec.ofNat_toNat, BitVec.setWidth_eq]
    · dsimp only
      omega

theorem finishSetBuffer_buffered {state : InputState} {size : Word}
    (given : state.given = (state.eeBuffer, size)) (fresh : state.last = none)
    (some : (0 : Word).ult size) : Buffered (finishSetBuffer size state) := by
  rw [finishSetBuffer, if_pos some]
  refine ⟨?_, ?_, rfl, fun _ => rfl, ?_⟩
  · dsimp only
    rw [given]
  · dsimp only
    rw [given]
  · intro previous isLast
    rw [fresh] at isLast
    cases isLast

/-! ### Copies -/

theorem copy_right_iff (index size : Nat) :
    Copy.Right { index := index, start := frameSize * index, size := size } ↔
      size ≤ frameSize := by
  have slot : frameSize = 1536 := rfl
  rw [Copy.Right, slot]
  dsimp only
  constructor
  · intro right
    by_contra beyond
    have last := right (1536 * index + 1536) (by omega) (by omega)
    omega
  · intro fits address after before
    omega

/-! ### Runs -/

structure InputInv (state : InputState) : Prop where
  right : state.Right
  setting : ∀ size ∈ state.setting, state.given = (state.eeBuffer, size) ∧
    state.eeBufferSize = 0 ∧ state.last = none
  buffered : 0 < state.eeBufferSize.toNat → Buffered state

theorem inputInv_initial : InputInv inputMachine.initial where
  right := ⟨nofun, nofun⟩
  setting := nofun
  buffered := fun used => absurd used (Nat.lt_irrefl 0)

/-- The pool, the queue and the records of copies are apart from the buffer. -/
theorem InputInv.withCopies {state : InputState} (inv : InputInv state)
    (smap : SmapState) {copies : List Copy}
    (right : ∀ copy ∈ copies, copy.Right) :
    InputInv { state with smap := smap, copies := copies } where
  right := ⟨right, inv.right.transfers⟩
  setting := inv.setting
  buffered := by
    intro used
    obtain ⟨start, size, pos, first, later⟩ := inv.buffered used
    refine ⟨start, size, pos, first, ?_⟩
    intro previous isLast
    obtain ⟨place, behind⟩ := later previous isLast
    exact ⟨place, behind.payload, behind.some, behind.small, behind.aligned,
      behind.within, behind.pos⟩

theorem InputInv.withSmap {state : InputState} (inv : InputInv state)
    (smap : SmapState) : InputInv { state with smap := smap } :=
  inv.withCopies smap inv.right.copies

theorem frameMet_withSmap {state : InputState} {smap : SmapState} {totLen : Nat} :
    FrameMet totLen { state with smap := smap } ↔ FrameMet totLen state :=
  ⟨fun met => ⟨met.fits, met.sum, met.back⟩,
    fun met => ⟨met.fits, met.sum, met.back⟩⟩

theorem right_withTransfer {state next : InputState} (transfer : Transfer)
    (right : state.Right) (copies : next.copies = state.copies)
    (transfers : next.transfers = transfer :: state.transfers) :
    next.Right ↔ transfer.Right := by
  constructor
  · intro all
    exact all.transfers transfer (transfers ▸ List.mem_cons_self)
  · intro new
    refine ⟨copies ▸ right.copies, ?_⟩
    rw [transfers]
    exact List.forall_mem_cons.mpr ⟨new, right.transfers⟩

theorem right_withCopy {state next : InputState} (copy : Copy)
    (right : state.Right) (copies : next.copies = copy :: state.copies)
    (transfers : next.transfers = state.transfers) :
    next.Right ↔ copy.Right := by
  constructor
  · intro all
    exact all.copies copy (copies ▸ List.mem_cons_self)
  · intro new
    refine ⟨?_, transfers ▸ right.transfers⟩
    rw [copies]
    exact List.forall_mem_cons.mpr ⟨new, right.copies⟩

theorem ult_iff (word : Word) : (0 : Word).ult word = true ↔ 0 < word.toNat := by
  rw [BitVec.ult, decide_eq_true_iff]
  rfl

theorem smapLowLevelInput_right_iff {state : InputState} (inv : InputInv state)
    {totLen : Nat} (some : 0 < totLen) (small : totLen ≤ rxMaxSize) :
    (smapLowLevelInput totLen state).Right ↔
      (0 < state.eeBufferSize.toNat → FrameMet totLen state) := by
  rw [smapLowLevelInput]
  by_cases used : 0 < state.eeBufferSize.toNat
  · rw [if_pos ((ult_iff _).mpr used)]
    refine (right_withTransfer (state.frame totLen) inv.right ?_ ?_).trans ?_
    · rfl
    · rfl
    rw [(inv.buffered used).right_iff some small]
    exact ⟨fun met _ => met, fun met => met used⟩
  · rw [if_neg fun word => used ((ult_iff _).mp word)]
    exact iff_of_true inv.right fun word => absurd word used

theorem smapLowLevelInput_inv {state : InputState} (inv : InputInv state)
    {totLen : Nat} (some : 0 < totLen) (small : totLen ≤ rxMaxSize)
    (met : 0 < state.eeBufferSize.toNat → FrameMet totLen state) :
    InputInv (smapLowLevelInput totLen state) := by
  have right := (smapLowLevelInput_right_iff inv some small).mpr met
  by_cases used : 0 < state.eeBufferSize.toNat
  · have word := (ult_iff _).mpr used
    have kept := (inv.buffered used).lowLevelInput some small word (met used)
    rw [smapLowLevelInput, if_pos word] at right kept ⊢
    refine ⟨right, ?_, fun _ => kept⟩
    intro size setting
    have disabled := (inv.setting size setting).2.1
    rw [disabled] at used
    exact absurd used (Nat.lt_irrefl 0)
  · rw [smapLowLevelInput, if_neg fun word => used ((ult_iff _).mp word)]
    exact inv

theorem TakesFrame.length {bytes : List Byte} {dmaDone : Int → Bool}
    {state : InputState} (takes : TakesFrame bytes dmaDone state) :
    0 < bytes.length ∧ bytes.length ≤ rxMaxSize :=
  ⟨Nat.lt_of_lt_of_le (by decide) takes.1, takes.2.1⟩

theorem handleRxInt_right_iff {state : InputState} (inv : InputInv state)
    (bytes : List Byte) (dmaDone : Int → Bool) (id : Int) :
    (handleRxInt bytes dmaDone id state).Right ↔
      Met state (.receive bytes dmaDone id) := by
  rw [handleRxInt, Met]
  by_cases takes : TakesFrame bytes dmaDone state
  · obtain ⟨some, small⟩ := takes.length
    rw [if_pos takes, smapLowLevelInput_right_iff (inv.withSmap _) some small]
    constructor
    · intro met _takes used
      exact frameMet_withSmap.mp (met used)
    · intro met used
      exact frameMet_withSmap.mpr (met takes used)
  · rw [if_neg takes]
    exact iff_of_true (inv.withSmap _).right fun other => absurd other takes

theorem handleRxInt_inv {state : InputState} (inv : InputInv state)
    {bytes : List Byte} {dmaDone : Int → Bool} {id : Int}
    (met : Met state (.receive bytes dmaDone id)) :
    InputInv (handleRxInt bytes dmaDone id state) := by
  rw [Met] at met
  rw [handleRxInt]
  by_cases takes : TakesFrame bytes dmaDone state
  · obtain ⟨some, small⟩ := takes.length
    rw [if_pos takes]
    exact smapLowLevelInput_inv (inv.withSmap _) some small
      fun used => frameMet_withSmap.mpr (met takes used)
  · rw [if_neg takes]
    exact inv.withSmap _

/-- An allocation for a frame to be sent. -/
theorem smapStep_request {smap : SmapState} (idle : smap.sending = none)
    (bytes : List Byte) (dmaDone : Int → Bool) :
    ∃ next, smapStep smap (.request bytes dmaDone) = some next ∧
      next.sending = freeBuffer (pbufCheckTransfers dmaDone smap) := by
  rw [smapStep, idle]
  dsimp only
  refine ⟨_, rfl, ?_⟩
  dsimp only
  unfold allocFrame
  dsimp only
  cases freeBuffer (pbufCheckTransfers dmaDone smap) <;> rfl

theorem inputStep_send {state : InputState} (idle : state.Idle)
    (bytes : List Byte) (dmaDone : Int → Bool) :
    ∃ next, inputStep state (.send bytes dmaDone) =
        some (recordCopy bytes next state) ∧
      next.sending = freeBuffer (pbufCheckTransfers dmaDone state.smap) := by
  obtain ⟨next, requested, sending⟩ := smapStep_request idle.2 bytes dmaDone
  refine ⟨next, ?_, sending⟩
  rw [inputStep, if_pos idle, requested, Option.map_some]

theorem recordCopy_right_iff {state : InputState} (inv : InputInv state)
    (bytes : List Byte) (next : SmapState) :
    (recordCopy bytes next state).Right ↔
      (next.sending.isSome = true → bytes.length ≤ frameSize) := by
  rw [recordCopy]
  cases next.sending with
  | none => exact iff_of_true (inv.withSmap next).right nofun
  | some index =>
      refine (right_withCopy
        { index := index, start := frameSize * index, size := bytes.length }
        inv.right ?_ ?_).trans ?_
      · rfl
      · rfl
      rw [copy_right_iff]
      exact ⟨fun fits _ => fits, fun fits => fits rfl⟩

theorem recordCopy_inv {state : InputState} (inv : InputInv state)
    {bytes : List Byte} {next : SmapState}
    (right : (recordCopy bytes next state).Right) :
    InputInv (recordCopy bytes next state) := by
  rw [recordCopy] at right ⊢
  cases sending : next.sending with
  | none => exact inv.withSmap next
  | some index =>
      rw [sending] at right
      exact inv.withCopies next right.copies

theorem finishSetBuffer_inv {state : InputState} (inv : InputInv state)
    {size : Word} (setting : state.setting = some size) :
    InputInv (finishSetBuffer size state) := by
  obtain ⟨given, disabled, fresh⟩ := inv.setting size setting
  by_cases some : (0 : Word).ult size
  · have buffered := finishSetBuffer_buffered given fresh some
    rw [finishSetBuffer, if_pos some] at buffered ⊢
    exact ⟨⟨inv.right.copies, inv.right.transfers⟩, nofun, fun _ => buffered⟩
  · rw [finishSetBuffer, if_neg some]
    refine ⟨⟨inv.right.copies, inv.right.transfers⟩, nofun, ?_⟩
    intro used
    have none : state.eeBufferSize.toNat = 0 := congrArg BitVec.toNat disabled
    exact absurd used (Nat.not_lt.mpr (Nat.le_of_eq none))

theorem setBuffer_inv {state : InputState} (inv : InputInv state)
    (buffer size : Word) : InputInv (setBuffer buffer size state) := by
  refine ⟨⟨inv.right.copies, inv.right.transfers⟩, ?_, ?_⟩
  · intro other setting
    cases setting
    exact ⟨rfl, rfl, rfl⟩
  · intro used
    exact absurd used (Nat.lt_irrefl 0)

/-- A step without a copy or a transfer is always right. -/
theorem InputInv.kept {next : InputState} (inv : InputInv next) :
    (next.Right ↔ True) ∧ (True → InputInv next) :=
  ⟨iff_of_true inv.right trivial, fun _ => inv⟩

/-- A step is right exactly when it meets the condition, and then the invariant is
kept. -/
theorem inputStep_right_iff {state next : InputState} {event : InputEvent}
    (inv : InputInv state) (stepped : inputStep state event = some next) :
    (next.Right ↔ Met state event) ∧ (Met state event → InputInv next) := by
  cases event with
  | send bytes dmaDone =>
      obtain ⟨idle, _⟩ := Option.ite_none_right_eq_some.mp stepped
      obtain ⟨allocated, recorded, sending⟩ := inputStep_send idle bytes dmaDone
      obtain rfl := Option.some.inj (recorded.symm.trans stepped)
      have right := recordCopy_right_iff inv bytes allocated
      rw [sending] at right
      exact ⟨right, fun met => recordCopy_inv inv (right.mpr met)⟩
  | receive bytes dmaDone id =>
      obtain rfl := Option.some.inj stepped
      exact ⟨handleRxInt_right_iff inv bytes dmaDone id,
        fun met => handleRxInt_inv inv met⟩
  | setBuffer buffer size =>
      obtain ⟨_, same⟩ := Option.ite_none_right_eq_some.mp stepped
      obtain rfl := Option.some.inj same
      exact (setBuffer_inv inv buffer size).kept
  | finishSetBuffer =>
      obtain ⟨size, setting, rfl⟩ := Option.map_eq_some_iff.mp stepped
      exact (finishSetBuffer_inv inv setting).kept
  | other =>
      obtain ⟨_, same⟩ := Option.ite_none_right_eq_some.mp stepped
      obtain rfl := Option.some.inj same
      exact inv.kept
  | attempt answer =>
      obtain ⟨smap, _, rfl⟩ := Option.map_eq_some_iff.mp stepped
      exact (inv.withSmap smap).kept
  | txInterrupt answers =>
      obtain rfl := Option.some.inj stepped
      exact (inv.withSmap _).kept
  | tick answers =>
      obtain rfl := Option.some.inj stepped
      exact (inv.withSmap _).kept

instance holdsTwoDecidable (given : Word × Word) : Decidable (HoldsTwo given) :=
  inferInstanceAs (Decidable (_ ≤ _))

instance frameMetDecidable (totLen : Nat) (state : InputState) :
    Decidable (FrameMet totLen state) :=
  decidable_of_iff (_ ∧ _ ∧ _)
    ⟨fun ⟨fits, sum, back⟩ => { fits, sum, back },
      fun met => ⟨met.fits, met.sum, met.back⟩⟩

def decidableMet (state : InputState) : (event : InputEvent) → Decidable (Met state event)
  | .send bytes dmaDone => inferInstanceAs (Decidable
      ((freeBuffer (pbufCheckTransfers dmaDone state.smap)).isSome = true →
        bytes.length ≤ frameSize))
  | .receive bytes dmaDone _ => inferInstanceAs (Decidable
      (TakesFrame bytes dmaDone state → 0 < state.eeBufferSize.toNat →
        FrameMet bytes.length state))
  | .setBuffer _ _ | .finishSetBuffer | .other | .attempt _ | .txInterrupt _
  | .tick _ => isTrue trivial

instance metDecidable (state : InputState) (event : InputEvent) :
    Decidable (Met state event) :=
  decidableMet state event

/-- A buffer that is not aligned and has room for two frames.  The third frame goes
back to its start. -/
def threeFrames : List InputEvent :=
  let frame := List.replicate 1500 0
  [.setBuffer 0x1004 0xC40, .finishSetBuffer, .receive frame (fun _ => false) 1,
    .receive frame (fun _ => true) 2, .receive frame (fun _ => true) 3]

end KernelReloaded.SmapReceive
