/-
Transfers of any size in `SifSetDma`.

The tags are counted by the bytes of a transfer and stored by its quadwords, and
the quadwords are computed with 32 bits.  A list without transfers is accepted
too; its loop counts down from the largest `u32` and goes beyond the list.

The tags of a transfer are the ones that are in the ring after it has been
stored and were not before; their number is the difference of `pending`.
-/

import KernelReloaded.Sbios.DmaStat

namespace KernelReloaded.SifDma

variable (layout : Layout)

/-! ### The code -/

/-- A transfer with any 32-bit size. -/
structure WordTransfer where
  src : Nat
  dest : Nat
  size : Nat
  attr : Nat
  content : Nat → BitVec 128
  word : size < 4294967296

def WordTransfer.IsTag (transfer : WordTransfer) : Prop :=
  transfer.attr &&& attrDmatag ≠ 0

instance (transfer : WordTransfer) : Decidable transfer.IsTag :=
  inferInstanceAs (Decidable (_ ≠ _))

/-- The sum of the size and the rounding is a word. -/
def wordQuadwords (size : Nat) : Nat :=
  (size + qwcSize - 1) % 4294967296 / qwcSize

def storeTransfer (transfer : WordTransfer) (id : DmatagId) (state : DmaState) :
    DmaState :=
  let qwc := wordQuadwords transfer.size
  let irq := transfer.attr &&& attrIntI ≠ 0
  let state := setNextDmatag state
  let slot := state.index
  let header (size : Nat) (data : Nat → BitVec 128) : IopDmatag :=
    { addr := (transfer.dest &&& 0x00ffffff) |||
        (if transfer.attr &&& attrIntO ≠ 0 then 0x40000000 else 0) |||
        (if transfer.attr &&& attrErt ≠ 0 then 0x80000000 else 0)
      size := size * 4 % 4294967296
      data := data }
  if transfer.IsTag then
    let state := storeTag state
      { idQwc := dmatagIdQwc id qwc irq, addr := layout.slot slot }
    storeIopTag state slot
      (header (qwc + 4294967295) (state.iopTags slot).data)
  else
    let dataQwc := if 8 ≤ qwc then qwcPayloadFirstPkt else qwc
    let state :=
      if 8 ≤ qwc then
        let state := storeTag state
          { idQwc := dmatagIdQwc .ref 8 false, addr := layout.slot slot }
        let state := setNextDmatag state
        storeTag state
          { idQwc := dmatagIdQwc id (qwc - qwcPayloadFirstPkt) irq
            addr := physaddr
              (transfer.src + qwcPayloadFirstPkt * qwcSize) }
      else
        storeTag state
          { idQwc := dmatagIdQwc id (qwc + 1) irq, addr := layout.slot slot }
    storeIopTag state slot (header qwc fun qword =>
      if qword < dataQwc then transfer.content qword
      else (state.iopTags slot).data qword)

def WordTransfer.countedTags (transfer : WordTransfer) : Nat :=
  if transfer.IsTag ∨ transfer.size ≤ qwcPayloadFirstPkt * qwcSize then 1 else 2

/-- The array of a call, with what lies behind it in memory. -/
structure SetDmaCall where
  transfer : Nat → WordTransfer
  tcount : Nat
  signed : tcount < 2147483648

/-- There are too few transfers for the count to wrap. -/
def countTags (transfer : Nat → WordTransfer) : (i t ntags : Nat) → Nat
  | 0, _, ntags => ntags
  | i + 1, t, ntags =>
      countTags transfer i (t + 1) (ntags + (transfer t).countedTags)

def storeTransfers (transfer : Nat → WordTransfer) :
    (i t : Nat) → DmaState → DmaState
  | 0, t, state => storeTransfer layout (transfer t) .refe state
  | i + 1, t, state =>
      storeTransfers transfer i (t + 1)
        (storeTransfer layout (transfer t) .ref state)

def SetDmaCall.ntags (call : SetDmaCall) : Nat :=
  countTags call.transfer call.tcount 0 0

def SetDmaCall.Accepts (call : SetDmaCall) (state : DmaState) : Prop :=
  call.ntags ≤ sifGetNumberOfFreeDmaTags layout state

instance (call : SetDmaCall) (state : DmaState) :
    Decidable (call.Accepts layout state) :=
  inferInstanceAs (Decidable (_ ≤ _))

def setUp (state : DmaState) : DmaState :=
  sifDmaSetupTag layout (sifGetNumberOfFreeDmaTags layout state) state

/-- The counter of the loop is a `u32`. -/
def SetDmaCall.built (call : SetDmaCall) (state : DmaState) : DmaState :=
  storeTransfers layout call.transfer ((call.tcount + 4294967295) % 4294967296) 0
    (setUp layout state)

def SetDmaCall.newId (call : SetDmaCall) (state : DmaState) : Nat :=
  let start := (state.index + 1) % 31
  let count := if start = 0 then state.count + 1 else state.count
  (count <<< 16) % 4294967296 ||| start <<< 8 ||| (call.ntags &&& 0xff)

def setDmaWords (call : SetDmaCall) (state : DmaState) : Nat × DmaState :=
  if call.Accepts layout state then
    (call.newId state, startChannel (call.built layout state))
  else
    (0, startChannel state)

/-! ### Runs -/

inductive WordEvent where
  | setDma (call : SetDmaCall)
  | dmac

/-- How many tags the loop over the transfers stores. -/
def SetDmaCall.consumed (call : SetDmaCall) (state : DmaState) : Nat :=
  (call.built layout state).pending - (setUp layout state).pending

def wordStep (state : StatState) : WordEvent → Option StatState
  | .dmac =>
      (dmacStep layout state.dma).map fun next => { state with dma := next }
  | .setDma call =>
      let (id, next) := setDmaWords layout call state.dma
      if call.Accepts layout state.dma then
        some
          { dma := next
            written := state.written + call.consumed layout state.dma
            calls :=
              { id := id, first := state.written, ntags := call.ntags } ::
                state.calls }
      else
        some { state with dma := next }

def wordMachine : Machine StatState WordEvent :=
  { initial := { dma := (sifMachine layout).initial, written := 0, calls := [] }
    step := wordStep layout }

/-! ### What is wanted -/

/-- The quadwords of a number of tags from an index on. -/
def tagQuadwords (tags : Nat → Dmatag) (index : Nat) : Nat → Nat
  | 0 => 0
  | count + 1 => (tags (index % 31)).qwc + tagQuadwords tags (index + 1) count

/-- The first tag of a transfer has the index of its IOP tag.  One quadword is the
IOP tag itself; with the flag it is counted in the size. -/
def WordTransfer.Described (transfer : WordTransfer) (before after : DmaState) :
    Prop :=
  ∃ data, (if transfer.IsTag then data + 1 else data) = quadwords transfer.size ∧
    tagQuadwords after.tags (before.index + 1) (after.pending - before.pending) =
      data + 1 ∧
    (after.iopTags ((before.index + 1) % 31)).size = 4 * data

/-- The first transfers of a call, none of which is the last one. -/
def storedFront (transfer : Nat → WordTransfer) : Nat → DmaState → DmaState
  | 0, state => state
  | i + 1, state =>
      storeTransfer layout (transfer i) .ref (storedFront transfer i state)

/-- A tag of the call is in its place in the ring. -/
def DmaCall.InRing (call : DmaCall) (written : Nat) : Prop :=
  ∃ offset < call.ntags, written ≤ call.first + offset + 31

/-- What holds of a call that is not turned down. -/
structure CallRight (call : SetDmaCall) (state : StatState) : Prop where
  consumed : call.consumed layout state.dma = call.ntags
  described : ∀ i < call.tcount,
    let before := storedFront layout call.transfer i (setUp layout state.dma)
    (call.transfer i).Described before (storeTransfer layout (call.transfer i)
      (if i + 1 = call.tcount then .refe else .ref) before)
  id : 0 < call.tcount → (setDmaWords layout call state.dma).1 ≠ 0 ∧
    ∀ other ∈ state.calls, other.InRing state.written →
      (setDmaWords layout call state.dma).1 ≠ other.id

/-- The size suits the quadword count of a tag. -/
def WordTransfer.Sized (transfer : WordTransfer) : Prop :=
  if transfer.IsTag then 1 ≤ transfer.size ∧ transfer.size ≤ 65535 * qwcSize
  else transfer.size ≤ (65535 + qwcPayloadFirstPkt) * qwcSize

def SetDmaCall.Sized (call : SetDmaCall) : Prop :=
  0 < call.tcount ∧ ∀ i < call.tcount, (call.transfer i).Sized

/-- A call is turned down, or its transfers can be described. -/
def CallMet (state : StatState) : WordEvent → Prop
  | .dmac => True
  | .setDma call => call.Accepts layout state.dma → call.Sized

/-! ### One transfer -/

theorem wordQuadwords_lt (size : Nat) : wordQuadwords size < 268435456 := by
  change (size + 16 - 1) % 4294967296 / 16 < 268435456
  omega

def WordTransfer.storedTags (transfer : WordTransfer) : Nat :=
  if transfer.IsTag then 1
  else if 8 ≤ wordQuadwords transfer.size then 2 else 1

def WordTransfer.iopWords (transfer : WordTransfer) : Nat :=
  (if transfer.IsTag then wordQuadwords transfer.size + 4294967295
    else wordQuadwords transfer.size) * 4 % 4294967296

/-- All that a transfer stores. -/
inductive Stored (transfer : WordTransfer) (id : DmatagId) (state : DmaState) :
    DmaState → Prop where
  | one (tag : Dmatag) (slot : IopDmatag) (single : transfer.storedTags = 1)
      (tagId : tag.id = id.code)
      (qwc : tag.qwc = if transfer.IsTag then wordQuadwords transfer.size % 65536
        else wordQuadwords transfer.size + 1)
      (size : slot.size = transfer.iopWords) :
      Stored transfer id state
        (storeIopTag (storeTag (setNextDmatag state) tag)
          (setNextDmatag state).index slot)
  | two (first second : Dmatag) (slot : IopDmatag)
      (double : transfer.storedTags = 2) (data : ¬transfer.IsTag)
      (isRef : first.id = DmatagId.ref.code) (lastId : second.id = id.code)
      (full : first.qwc = 8)
      (rest : second.qwc = (wordQuadwords transfer.size - 7) % 65536)
      (size : slot.size = transfer.iopWords) :
      Stored transfer id state
        (storeIopTag
          (storeTag (setNextDmatag (storeTag (setNextDmatag state) first)) second)
          (setNextDmatag state).index slot)

theorem storeTransfer_stored (transfer : WordTransfer) (id : DmatagId)
    (state : DmaState) :
    Stored transfer id state (storeTransfer layout transfer id state) := by
  have below := wordQuadwords_lt transfer.size
  rw [storeTransfer]
  by_cases isTag : transfer.IsTag
  · rw [if_pos isTag]
    refine .one _ _ (if_pos isTag) (id_dmatagIdQwc_word id below _) ?_ ?_
    · rw [if_pos isTag, Dmatag.qwc, qwc_dmatagIdQwc_mod]
    · rw [WordTransfer.iopWords, if_pos isTag]
  · rw [if_neg isTag]
    by_cases long : 8 ≤ wordQuadwords transfer.size
    · dsimp only
      rw [if_pos long]
      refine .two _ _ _ ?_ isTag (id_dmatagIdQwc_word .ref (by decide) _)
        (id_dmatagIdQwc_word id (Nat.lt_of_le_of_lt (Nat.sub_le _ _) below) _)
        ?_ ?_ ?_
      · rw [WordTransfer.storedTags, if_neg isTag, if_pos long]
      · rw [Dmatag.qwc, qwc_dmatagIdQwc_mod]
      · rw [Dmatag.qwc, qwc_dmatagIdQwc_mod]
        rfl
      · rw [WordTransfer.iopWords, if_neg isTag]
    · dsimp only
      rw [if_neg long]
      refine .one _ _ ?_ (id_dmatagIdQwc_word id (by omega) _) ?_ ?_
      · rw [WordTransfer.storedTags, if_neg isTag, if_neg long]
      · rw [if_neg isTag, Dmatag.qwc, qwc_dmatagIdQwc_mod]
        omega
      · rw [WordTransfer.iopWords, if_neg isTag]

@[simp] theorem pending_setNextDmatag (state : DmaState) :
    (setNextDmatag state).pending = state.pending := by
  rw [setNextDmatag]
  split <;> rfl

variable {transfer : WordTransfer} {id : DmatagId} {state after : DmaState}

theorem Stored.pending (stored : Stored transfer id state after) :
    after.pending = state.pending + transfer.storedTags := by
  cases stored with
  | one tag slot single =>
      rw [single]
      exact congrArg (· + 1) (pending_setNextDmatag state)
  | two first second slot double =>
      rw [double]
      exact congrArg (· + 1) ((pending_setNextDmatag _).trans
        (congrArg (· + 1) (pending_setNextDmatag state)))

theorem Stored.numbered {written : Nat} (stored : Stored transfer id state after)
    (numbered : Numbered written state) :
    Numbered (written + transfer.storedTags) after := by
  have once := numbered_setNextDmatag numbered
  cases stored with
  | one tag slot single =>
      rw [single]
      exact ⟨once.index, once.count⟩
  | two first second slot double =>
      have middle : Numbered (written + 1)
          (storeTag (setNextDmatag state) first) := ⟨once.index, once.count⟩
      have twice := numbered_setNextDmatag middle
      rw [double]
      exact ⟨twice.index, twice.count⟩

theorem index_setNextDmatag (inside : state.index < 31) :
    (setNextDmatag state).index = (state.index + 1) % 31 := by
  obtain ⟨count, next⟩ := setNextDmatag_eq inside
  rw [next]

theorem tags_setNextDmatag (state : DmaState) :
    (setNextDmatag state).tags = state.tags := by
  rw [setNextDmatag]
  split <;> rfl

theorem tags_storeNext (inside : state.index < 31) (tag : Dmatag) :
    (storeTag (setNextDmatag state) tag).tags =
      Function.update state.tags ((state.index + 1) % 31) tag := by
  rw [storeTag, tags_setNextDmatag, index_setNextDmatag inside]

theorem index_storeTag (state : DmaState) (tag : Dmatag) :
    (storeTag state tag).index = state.index := rfl

theorem tags_storeIopTag (state : DmaState) (index : Nat) (slot : IopDmatag) :
    (storeIopTag state index slot).tags = state.tags := rfl

theorem iopTag_storeIopTag (state : DmaState) (index : Nat) (slot : IopDmatag) :
    (storeIopTag state index slot).iopTags index = slot :=
  Function.update_self ..

/-- Two tags that follow each other are in different places. -/
theorem Stored.quadwords (inside : state.index < 31)
    (stored : Stored transfer id state after) :
    tagQuadwords after.tags (state.index + 1) transfer.storedTags =
      if transfer.IsTag then wordQuadwords transfer.size % 65536
      else if transfer.storedTags = 1 then wordQuadwords transfer.size + 1
      else 8 + (wordQuadwords transfer.size - 7) % 65536 := by
  cases stored with
  | one tag slot single tagId qwc size =>
      rw [single, if_pos rfl, tagQuadwords, tagQuadwords, Nat.add_zero,
        tags_storeIopTag, tags_storeNext inside, Function.update_self, qwc]
  | two first second slot double data isRef lastId full rest size =>
      have index : (storeTag (setNextDmatag state) first).index =
          (state.index + 1) % 31 := index_setNextDmatag inside
      have later : (storeTag (setNextDmatag state) first).index < 31 := by
        omega
      have secondPlace : ((storeTag (setNextDmatag state) first).index + 1) % 31 =
          (state.index + 1 + 1) % 31 := by
        rw [index, Nat.mod_add_mod]
      rw [double, if_neg data, if_neg (by decide), tagQuadwords, tagQuadwords,
        tagQuadwords, tags_storeIopTag, tags_storeNext later,
        tags_storeNext inside, secondPlace, Function.update_self,
        Function.update_of_ne (by omega), Function.update_self, full, rest,
        Nat.add_zero]

theorem Stored.words (inside : state.index < 31)
    (stored : Stored transfer id state after) :
    (after.iopTags ((state.index + 1) % 31)).size = transfer.iopWords := by
  rw [← index_setNextDmatag inside]
  cases stored with
  | one tag slot single tagId qwc size => rw [iopTag_storeIopTag, size]
  | two first second slot double data isRef lastId full rest size =>
      rw [iopTag_storeIopTag, size]

theorem Stored.described_iff (inside : state.index < 31)
    (stored : Stored transfer id state after) :
    transfer.Described state after ↔ transfer.Sized := by
  have quads := stored.quadwords inside
  have words := stored.words inside
  have bound := transfer.word
  have size : wordQuadwords transfer.size =
      (transfer.size + 15) % 4294967296 / 16 := rfl
  have wanted : SifDma.quadwords transfer.size = (transfer.size + 15) / 16 := rfl
  rw [WordTransfer.Described, stored.pending, Nat.add_sub_cancel_left]
  rw [quads, words, WordTransfer.iopWords, WordTransfer.Sized, wanted,
    WordTransfer.storedTags, size]
  have sixteen : qwcSize = 16 := rfl
  have seven : qwcPayloadFirstPkt = 7 := rfl
  rw [sixteen, seven]
  by_cases isTag : transfer.IsTag
  · simp only [if_pos isTag]
    constructor
    · rintro ⟨data, counted, quads, words⟩
      omega
    · intro sized
      refine ⟨(transfer.size + 15) / 16 - 1, ?_, ?_, ?_⟩ <;> omega
  · simp only [if_neg isTag]
    by_cases long : 8 ≤ (transfer.size + 15) % 4294967296 / 16
    · have other : ¬2 = 1 := by decide
      simp only [if_pos long, if_neg other]
      constructor
      · rintro ⟨data, counted, quads, words⟩
        omega
      · intro sized
        refine ⟨(transfer.size + 15) / 16, rfl, ?_, ?_⟩ <;> omega
    · simp only [if_neg long, if_pos trivial]
      constructor
      · rintro ⟨data, counted, quads, words⟩
        omega
      · intro sized
        refine ⟨(transfer.size + 15) / 16, rfl, ?_, ?_⟩ <;> omega

/-! ### The ring -/

/-- TADR points at a tag, and only the last one goes back to the first. -/
structure Sound (state : DmaState) : Prop where
  place : ∃ position ≤ 31, state.tadr = layout.dmatags + 16 * position
  wrap : state.tags 31 = wrapTag layout
  ids : ∀ slot < 31, (state.tags slot).id ≠ DmatagId.next.code
  short : state.qwc < 65536

theorem sound_initial : Sound layout (sifMachine layout).initial := by
  have tags : (sifMachine layout).initial.tags =
      Function.update (fun _ => { idQwc := 0, addr := 0 }) 31 (wrapTag layout) :=
    rfl
  refine ⟨⟨0, by decide, rfl⟩, ?_, ?_, (by decide : 0 < 65536)⟩
  · rw [tags, Function.update_self]
  · intro slot inside
    rw [tags, Function.update_of_ne (by omega)]
    decide

variable {layout}

theorem Sound.update (sound : Sound layout state) {index : Nat}
    (inside : index < 31) {tag : Dmatag} (other : tag.id ≠ DmatagId.next.code)
    (tags : after.tags = Function.update state.tags index tag)
    (place : ∃ position ≤ 31, after.tadr = layout.dmatags + 16 * position)
    (short : after.qwc < 65536) : Sound layout after := by
  refine ⟨place, ?_, ?_, short⟩
  · rw [tags, Function.update_of_ne (by omega), sound.wrap]
  · intro slot below
    rw [tags]
    by_cases same : slot = index
    · rw [same, Function.update_self]
      exact other
    · rw [Function.update_of_ne same]
      exact sound.ids slot below

theorem channel_setNextDmatag (state : DmaState) :
    (setNextDmatag state).tadr = state.tadr ∧
      (setNextDmatag state).qwc = state.qwc := by
  rw [setNextDmatag]
  split <;> exact ⟨rfl, rfl⟩

theorem Sound.storeNext (sound : Sound layout state) (inside : state.index < 31)
    (tag : Dmatag) (other : tag.id ≠ DmatagId.next.code) :
    Sound layout (storeTag (setNextDmatag state) tag) := by
  obtain ⟨tadr, qwc⟩ := channel_setNextDmatag state
  refine sound.update (Nat.mod_lt _ (by decide)) other
    (tags_storeNext inside tag) ?_ ?_
  · change ∃ position ≤ 31, (setNextDmatag state).tadr = _
    rw [tadr]
    exact sound.place
  · change (setNextDmatag state).qwc < 65536
    rw [qwc]
    exact sound.short

theorem code_ne_next (isLast : id ≠ .next) : id.code ≠ DmatagId.next.code := by
  cases id with
  | next => exact absurd rfl isLast
  | refe => decide
  | ref => decide

theorem Stored.sound (stored : Stored transfer id state after)
    (isLast : id ≠ .next) (inside : state.index < 31)
    (sound : Sound layout state) : Sound layout after := by
  cases stored with
  | one tag slot single tagId =>
      have next := sound.storeNext inside tag (tagId ▸ code_ne_next isLast)
      exact ⟨next.place, next.wrap, next.ids, next.short⟩
  | two first second slot double data isRef lastId =>
      have next := sound.storeNext inside first (by rw [isRef]; decide)
      have later : (storeTag (setNextDmatag state) first).index < 31 := by
        rw [index_storeTag, index_setNextDmatag inside]
        exact Nat.mod_lt _ (by decide)
      have last := next.storeNext later second (lastId ▸ code_ne_next isLast)
      exact ⟨last.place, last.wrap, last.ids, last.short⟩

theorem hwIndex_le (sound : Sound layout state) : hwIndex layout state ≤ 30 := by
  obtain ⟨position, inside, tadr⟩ := sound.place
  rw [hwIndex, tadr, Nat.add_sub_cancel_left]
  split <;> omega

theorem freeTags_le (sound : Sound layout state) (inside : state.index < 31) :
    sifGetNumberOfFreeDmaTags layout state ≤ 31 := by
  have hw := hwIndex_le sound
  rw [sifGetNumberOfFreeDmaTags]
  split
  · split <;> omega
  · split <;> omega

theorem id_or_ref_ne_next (word : Nat) :
    ((word ||| DmatagId.ref.code <<< 28) >>> 28) % 8 ≠ DmatagId.next.code := by
  have bits : ∀ low < 8, low ||| 3 ≠ 2 := by decide
  change ((word ||| _) >>> 28) % 2 ^ 3 ≠ _
  rw [Nat.shiftRight_or_distrib, Nat.or_mod_two_pow]
  exact bits _ (Nat.mod_lt _ (by decide))

theorem setUp_sound (sound : Sound layout state) (inside : state.index < 31) :
    Sound layout (setUp layout state) := by
  rw [setUp, sifDmaSetupTag]
  split
  · exact sound
  · split
    · refine sound.update inside ?_ rfl ⟨state.index, by omega, rfl⟩
        (by decide : 0 < 65536)
      rw [Dmatag.id, (rebuilt_fields _ sound.short).2]
      decide
    · refine sound.update inside ?_ rfl sound.place sound.short
      rw [Dmatag.id]
      exact id_or_ref_ne_next _

theorem startChannel_sound (sound : Sound layout state) :
    Sound layout (startChannel state) :=
  ⟨sound.place, sound.wrap, sound.ids, sound.short⟩

theorem dmacFetch_sound (sound : Sound layout state) :
    Sound layout (dmacFetch layout state) := by
  obtain ⟨position, inside, tadr⟩ := sound.place
  have isPosition : state.position layout = position := by
    rw [DmaState.position, tadr]
    omega
  by_cases last : position = 31
  · have wrap : state.tags (state.position layout) = wrapTag layout := by
      rw [isPosition, last, sound.wrap]
    rw [dmacFetch_of_wrap layout wrap]
    exact ⟨⟨0, by decide, rfl⟩, sound.wrap, sound.ids, (by decide : 0 < 65536)⟩
  · have notNext : (state.tags (state.position layout)).id ≠
        DmatagId.next.code := by
      rw [isPosition]
      exact sound.ids position (by omega)
    rw [dmacFetch_of_ne_next layout rfl notNext]
    refine ⟨⟨position + 1, by omega, ?_⟩, sound.wrap, sound.ids,
      Nat.mod_lt _ (by decide)⟩
    dsimp only
    rw [tadr, Nat.mul_succ, Nat.add_assoc]

theorem dmacStep_sound (sound : Sound layout state)
    (stepped : dmacStep layout state = some after) : Sound layout after := by
  rw [dmacStep] at stepped
  split at stepped
  · cases stepped
  · split at stepped
    · obtain rfl := Option.some.inj stepped
      exact dmacFetch_sound sound
    · split at stepped <;> obtain rfl := Option.some.inj stepped
      · exact ⟨sound.place, sound.wrap, sound.ids, sound.short⟩
      · exact ⟨sound.place, sound.wrap, sound.ids,
          Nat.lt_of_le_of_lt (Nat.sub_le _ _) sound.short⟩

/-! ### The loops -/

/-- The tags of the transfers from one on, the last one included. -/
def storedSum (transfer : Nat → WordTransfer) : (i t : Nat) → Nat
  | 0, t => (transfer t).storedTags
  | i + 1, t => (transfer t).storedTags + storedSum transfer i (t + 1)

variable (layout) in
structure Wrote (written number : Nat) (before after : DmaState) : Prop where
  pending : after.pending = before.pending + number
  sound : Sound layout after
  numbered : Numbered (written + number) after

theorem Numbered.inside {written : Nat} (numbered : Numbered written state) :
    state.index < 31 := by
  rw [numbered.index]
  exact Nat.mod_lt _ (by decide)

variable {written : Nat}

theorem storeTransfer_wrote (transfer : WordTransfer) (id : DmatagId)
    (isLast : id ≠ .next) (sound : Sound layout state)
    (numbered : Numbered written state) :
    Wrote layout written transfer.storedTags state
      (storeTransfer layout transfer id state) := by
  have stored := storeTransfer_stored layout transfer id state
  exact ⟨stored.pending, stored.sound isLast numbered.inside sound,
    stored.numbered numbered⟩

theorem storeTransfers_wrote (transfer : Nat → WordTransfer) (i t : Nat)
    (sound : Sound layout state) (numbered : Numbered written state) :
    Wrote layout written (storedSum transfer i t) state
      (storeTransfers layout transfer i t state) := by
  induction i generalizing t written state with
  | zero => exact storeTransfer_wrote (transfer t) .refe (by decide) sound numbered
  | succ i ih =>
      obtain ⟨pending, sound, numbered⟩ :=
        storeTransfer_wrote (transfer t) .ref (by decide) sound numbered
      obtain ⟨later, sound, numbered⟩ := ih (t + 1) sound numbered
      refine ⟨?_, sound, ?_⟩
      · rw [storeTransfers, later, pending, storedSum, Nat.add_assoc]
      · rw [storedSum, ← Nat.add_assoc]
        exact numbered

theorem storedFront_numbered (layout : Layout) (transfer : Nat → WordTransfer)
    (i : Nat) (numbered : Numbered written state) :
    ∃ later, Numbered later (storedFront layout transfer i state) := by
  induction i with
  | zero => exact ⟨written, numbered⟩
  | succ i ih =>
      obtain ⟨later, numbered⟩ := ih
      exact ⟨_, (storeTransfer_stored layout (transfer i) .ref _).numbered numbered⟩

theorem storedTags_pos (transfer : WordTransfer) : 0 < transfer.storedTags := by
  rw [WordTransfer.storedTags]
  split
  · exact Nat.one_pos
  · split <;> decide

theorem storedSum_pos (transfer : Nat → WordTransfer) (i t : Nat) :
    0 < storedSum transfer i t := by
  cases i with
  | zero => exact storedTags_pos (transfer t)
  | succ i => exact Nat.add_pos_left (storedTags_pos (transfer t)) _

theorem WordTransfer.Sized.counted {transfer : WordTransfer}
    (sized : transfer.Sized) : transfer.countedTags = transfer.storedTags := by
  have size : wordQuadwords transfer.size =
      (transfer.size + 15) % 4294967296 / 16 := rfl
  have payload : qwcPayloadFirstPkt * qwcSize = 112 := rfl
  have most : (65535 + qwcPayloadFirstPkt) * qwcSize = 1048672 := rfl
  rw [WordTransfer.Sized, most] at sized
  rw [WordTransfer.countedTags, WordTransfer.storedTags, size, payload]
  by_cases isTag : transfer.IsTag
  · rw [if_pos (.inl isTag), if_pos isTag]
  · rw [if_neg isTag] at sized ⊢
    by_cases short : transfer.size ≤ 112
    · rw [if_pos (.inr short), if_neg (by omega)]
    · rw [if_neg (not_or.mpr ⟨isTag, short⟩), if_pos (by omega)]

theorem countTags_eq {transfer : Nat → WordTransfer} (i t ntags : Nat)
    (sized : ∀ u, t ≤ u → u ≤ t + i → (transfer u).Sized) :
    countTags transfer (i + 1) t ntags = ntags + storedSum transfer i t := by
  induction i generalizing t ntags with
  | zero =>
      rw [countTags, countTags, storedSum,
        (sized t (Nat.le_refl t) (Nat.le_refl t)).counted]
  | succ i ih =>
      rw [countTags, storedSum, ih, (sized t (Nat.le_refl t) (by omega)).counted,
        Nat.add_assoc]
      intro u fromNext toLast
      exact sized u (by omega) (by omega)

theorem SetDmaCall.Sized.ntags {call : SetDmaCall} (sized : call.Sized) :
    call.ntags = storedSum call.transfer (call.tcount - 1) 0 := by
  obtain ⟨last, isLast⟩ := Nat.exists_eq_succ_of_ne_zero (Nat.ne_of_gt sized.1)
  rw [SetDmaCall.ntags, isLast, countTags_eq, Nat.zero_add, Nat.succ_sub_one]
  intro u _fromFirst toLast
  exact sized.2 u (by omega)

/-! ### The call -/

theorem setUp_numbered (layout : Layout) (numbered : Numbered written state) :
    Numbered written (setUp layout state) :=
  sifDmaSetupTag_numbered layout _ numbered

theorem startChannel_numbered (numbered : Numbered written state) :
    Numbered written (startChannel state) := ⟨numbered.index, numbered.count⟩

theorem built_wrote (call : SetDmaCall) (sound : Sound layout state)
    (numbered : Numbered written state) :
    Wrote layout written
      (storedSum call.transfer ((call.tcount + 4294967295) % 4294967296) 0)
      (setUp layout state) (call.built layout state) :=
  storeTransfers_wrote call.transfer _ 0 (setUp_sound sound numbered.inside)
    (setUp_numbered layout numbered)

theorem consumed_eq (call : SetDmaCall) (sound : Sound layout state)
    (numbered : Numbered written state) :
    call.consumed layout state =
      storedSum call.transfer ((call.tcount + 4294967295) % 4294967296) 0 := by
  rw [SetDmaCall.consumed, (built_wrote call sound numbered).pending,
    Nat.add_sub_cancel_left]

theorem described_iff (call : SetDmaCall) (numbered : Numbered written state)
    (i : Nat) :
    let before := storedFront layout call.transfer i (setUp layout state)
    (call.transfer i).Described before (storeTransfer layout (call.transfer i)
      (if i + 1 = call.tcount then .refe else .ref) before) ↔
        (call.transfer i).Sized := by
  intro before
  obtain ⟨later, numbered⟩ := storedFront_numbered layout call.transfer i
    (setUp_numbered layout numbered)
  exact (storeTransfer_stored layout _ _ before).described_iff numbered.inside

theorem newId_eq {call : SetDmaCall} (numbered : Numbered written state)
    (few : call.ntags ≤ 31) :
    call.newId state =
      written / 31 % 65536 * 65536 + written % 31 * 256 + call.ntags := by
  have index := numbered.index
  have count := numbered.count
  rw [SetDmaCall.newId, callId_eq _ (Nat.mod_lt _ (by omega)) few]
  split <;> omega

/-- Calls whose tags are in the ring together have different ids. -/
theorem DmaCall.Known.id_ne {call : DmaCall} (known : call.Known written)
    (inRing : call.InRing written) {ntags : Nat} (few : ntags ≤ 31) :
    written / 31 % 65536 * 65536 + written % 31 * 256 + ntags ≠ call.id := by
  obtain ⟨offset, inside, place⟩ := inRing
  obtain ⟨nonempty, otherFew, before, id⟩ := known
  rw [id]
  omega

/-! ### Sizes that fit -/

theorem wordQuadwords_eq {size : Nat} (small : size ≤ 1048672) :
    wordQuadwords size = quadwords size := by
  change (size + 16 - 1) % 4294967296 / 16 = (size + 16 - 1) / 16
  omega

theorem Transfer.small (transfer : Transfer) : transfer.size ≤ 1048672 := by
  have fits := transfer.fits
  have quads : quadwords transfer.size = (transfer.size + 15) / 16 := rfl
  have seven : qwcPayloadFirstPkt = 7 := rfl
  rw [quads, seven] at fits
  split at fits <;> omega

def Transfer.toWord (transfer : Transfer) : WordTransfer where
  src := transfer.src
  dest := transfer.dest
  size := transfer.size
  attr := transfer.attr
  content := transfer.content
  word := Nat.lt_of_le_of_lt transfer.small (by decide)

theorem storeTransfer_toWord (layout : Layout) (transfer : Transfer)
    (id : DmatagId) (state : DmaState) :
    storeTransfer layout transfer.toWord id state =
      sifDmaTransfer layout transfer id state := by
  have quads : wordQuadwords transfer.toWord.size = quadwords transfer.size :=
    wordQuadwords_eq transfer.small
  rw [storeTransfer, sifDmaTransfer, quads]
  rfl

theorem storeTransfers_toWord (layout : Layout) {word : Nat → WordTransfer}
    {t : Nat} (transfer : Transfer) (rest : List Transfer)
    (listed : ∀ i other, (transfer :: rest)[i]? = some other →
      word (t + i) = other.toWord) (state : DmaState) :
    storeTransfers layout word rest.length t state =
      sifDmaTransfers layout (transfer :: rest) state := by
  have first : word t = transfer.toWord := listed 0 transfer rfl
  induction rest generalizing transfer t state with
  | nil =>
      rw [List.length_nil, storeTransfers, first, storeTransfer_toWord,
        sifDmaTransfers]
  | cons next rest ih =>
      have later (i : Nat) (other : Transfer)
          (found : (next :: rest)[i]? = some other) :
          word (t + 1 + i) = other.toWord := by
        rw [Nat.add_assoc, Nat.add_comm 1]
        exact listed (i + 1) other found
      rw [List.length_cons, storeTransfers, first, storeTransfer_toWord,
        sifDmaTransfers, ih next later _ (later 0 next rfl)]
      exact nofun

theorem countTags_toWord {word : Nat → WordTransfer} {t ntags : Nat}
    (transfers : List Transfer)
    (listed : ∀ i other, transfers[i]? = some other →
      word (t + i) = other.toWord) :
    countTags word transfers.length t ntags = ntags + numberOfTags transfers := by
  induction transfers generalizing t ntags with
  | nil => rfl
  | cons transfer rest ih =>
      have first : word t = transfer.toWord := listed 0 transfer rfl
      rw [List.length_cons, countTags, ih, first, numberOfTags, Nat.add_assoc]
      · rfl
      · intro i other found
        rw [Nat.add_assoc, Nat.add_comm 1]
        exact listed (i + 1) other found

/-- The words of a list whose sizes fit are the list. -/
structure SetDmaCall.Lists (call : SetDmaCall) (transfer : Transfer)
    (rest : List Transfer) : Prop where
  tcount : call.tcount = rest.length + 1
  listed : ∀ i other, (transfer :: rest)[i]? = some other →
    call.transfer i = other.toWord

theorem SetDmaCall.Lists.ntags {call : SetDmaCall} {transfer : Transfer}
    {rest : List Transfer} (lists : call.Lists transfer rest) :
    call.ntags = numberOfTags (transfer :: rest) := by
  rw [SetDmaCall.ntags, lists.tcount]
  exact (countTags_toWord (transfer :: rest) (by simpa using lists.listed)).trans
    (Nat.zero_add _)

theorem SetDmaCall.Lists.built {call : SetDmaCall} {transfer : Transfer}
    {rest : List Transfer} (lists : call.Lists transfer rest) (layout : Layout)
    (state : DmaState) :
    call.built layout state =
      sifDmaTransfers layout (transfer :: rest) (setUp layout state) := by
  have signed := call.signed
  have tcount := lists.tcount
  have passes : (call.tcount + 4294967295) % 4294967296 = rest.length := by omega
  rw [SetDmaCall.built, passes]
  exact storeTransfers_toWord layout transfer rest
    (by simpa using lists.listed) _

/-- For sizes that fit, the call with the record of its transfers. -/
theorem sifSetDma_words (layout : Layout) {call : SetDmaCall}
    {transfer : Transfer} {rest : List Transfer}
    (lists : call.Lists transfer rest) (state : DmaState) :
    sifSetDma layout (transfer :: rest) state =
      if call.Accepts layout state then
        ((setDmaWords layout call state).1,
          { (setDmaWords layout call state).2 with
            submitted := (setDmaWords layout call state).2.submitted ++
              transferRuns layout ((state.index + 1) % 31) (transfer :: rest) })
      else setDmaWords layout call state := by
  have ntags := lists.ntags
  have built := lists.built layout state
  by_cases accepted : call.Accepts layout state
  · have few : numberOfTags (transfer :: rest) ≤
        sifGetNumberOfFreeDmaTags layout state := by
      rw [← ntags]
      exact accepted
    rw [sifSetDma, if_pos few, if_pos accepted, setDmaWords, if_pos accepted,
      built, SetDmaCall.newId, ntags]
    rfl
  · have many : ¬numberOfTags (transfer :: rest) ≤
        sifGetNumberOfFreeDmaTags layout state := by
      rw [← ntags]
      exact accepted
    rw [sifSetDma, if_neg many, if_neg accepted, setDmaWords, if_neg accepted]

/-! ### Runs of calls -/

variable (layout) in
structure WordInv (state : StatState) : Prop where
  sound : Sound layout state.dma
  numbered : Numbered state.written state.dma
  calls : ∀ call ∈ state.calls, call.Known state.written

theorem wordInv_initial : WordInv layout (wordMachine layout).initial where
  sound := sound_initial layout
  numbered := (statInv_initial layout).numbered
  calls := fun _ inside => absurd inside List.not_mem_nil

theorem WordInv.consumed {state : StatState} (inv : WordInv layout state)
    {call : SetDmaCall} (sized : call.Sized) :
    call.consumed layout state.dma = call.ntags := by
  have some := sized.1
  have signed := call.signed
  have passes : (call.tcount + 4294967295) % 4294967296 = call.tcount - 1 := by
    omega
  rw [consumed_eq call inv.sound inv.numbered, passes, sized.ntags]

theorem WordInv.few {state : StatState} (inv : WordInv layout state)
    {call : SetDmaCall} (accepted : call.Accepts layout state.dma) :
    call.ntags ≤ 31 :=
  Nat.le_trans accepted (freeTags_le inv.sound inv.numbered.inside)

theorem WordInv.right_iff {state : StatState} (inv : WordInv layout state)
    {call : SetDmaCall} (accepted : call.Accepts layout state.dma) :
    CallRight layout call state ↔ call.Sized := by
  have few := inv.few accepted
  have id : (setDmaWords layout call state.dma).1 = call.newId state.dma := by
    rw [setDmaWords, if_pos accepted]
  constructor
  · intro right
    refine ⟨?_, fun i inside =>
      (described_iff call inv.numbered i).mp (right.described i inside)⟩
    by_contra empty
    have none : call.tcount = 0 := Nat.eq_zero_of_not_pos empty
    have some := storedSum_pos call.transfer
      ((call.tcount + 4294967295) % 4294967296) 0
    have counted : call.ntags = 0 := by
      rw [SetDmaCall.ntags, none, countTags]
    rw [← consumed_eq call inv.sound inv.numbered, right.consumed, counted] at some
    exact absurd some (Nat.lt_irrefl 0)
  · intro sized
    refine ⟨inv.consumed sized, fun i inside =>
      (described_iff call inv.numbered i).mpr (sized.2 i inside), fun _ => ?_⟩
    have some : 0 < call.ntags := by
      rw [sized.ntags]
      exact storedSum_pos _ _ _
    rw [id, newId_eq inv.numbered few]
    refine ⟨by omega, ?_⟩
    intro other made inRing
    exact (inv.calls other made).id_ne inRing few

theorem setDma_inv {state : StatState} (inv : WordInv layout state)
    {call : SetDmaCall} (met : CallMet layout state (.setDma call))
    {next : StatState} (stepped : wordStep layout state (.setDma call) = some next) :
    WordInv layout next := by
  by_cases accepted : call.Accepts layout state.dma
  · have sized := met accepted
    have few := inv.few accepted
    have wrote := built_wrote call inv.sound inv.numbered
    rw [← consumed_eq call inv.sound inv.numbered] at wrote
    have stored : setDmaWords layout call state.dma =
        (call.newId state.dma, startChannel (call.built layout state.dma)) :=
      if_pos accepted
    rw [wordStep, stored] at stepped
    obtain rfl := Option.some.inj ((if_pos accepted).symm.trans stepped)
    refine ⟨startChannel_sound wrote.sound,
      startChannel_numbered wrote.numbered, ?_⟩
    intro other made
    rcases List.mem_cons.mp made with rfl | earlier
    · refine ⟨?_, few, ?_, newId_eq inv.numbered few⟩
      · dsimp only
        rw [sized.ntags]
        exact storedSum_pos _ _ _
      · exact Nat.le_of_eq
          (congrArg (state.written + ·) (inv.consumed sized).symm)
    · have known := inv.calls other earlier
      exact ⟨known.nonempty, known.few,
        Nat.le_trans known.before (Nat.le_add_right _ _), known.id⟩
  · have stored : setDmaWords layout call state.dma =
        (0, startChannel state.dma) := if_neg accepted
    rw [wordStep, stored] at stepped
    obtain rfl := Option.some.inj ((if_neg accepted).symm.trans stepped)
    exact ⟨startChannel_sound inv.sound, startChannel_numbered inv.numbered,
      inv.calls⟩

theorem wordStep_inv {state next : StatState} (event : WordEvent)
    (inv : WordInv layout state) (met : CallMet layout state event)
    (stepped : wordStep layout state event = some next) : WordInv layout next := by
  cases event with
  | setDma call => exact setDma_inv inv met stepped
  | dmac =>
      obtain ⟨dma, dmaStepped, rfl⟩ := Option.map_eq_some_iff.mp stepped
      exact ⟨dmacStep_sound inv.sound dmaStepped,
        dmacStep_numbered layout inv.numbered dmaStepped, inv.calls⟩

/-- In every run whose calls are turned down or have transfers that can be
described, a further call is right exactly when it is such a call. -/
theorem setDmaWords_right_iff {layout : Layout} {state : StatState}
    (reached : (wordMachine layout).Reach (CallMet layout) state)
    (call : SetDmaCall) :
    (call.Accepts layout state.dma → CallRight layout call state) ↔
      CallMet layout state (.setDma call) := by
  have inv : WordInv layout state :=
    reached.invariant wordInv_initial
      fun _ event _ inv met stepped => wordStep_inv event inv met stepped
  constructor
  · intro right accepted
    exact (inv.right_iff accepted).mp (right accepted)
  · intro met accepted
    exact (inv.right_iff accepted).mpr (met accepted)

def oneBlock : WordTransfer :=
  { src := 0x10000, dest := 0x2000, size := 128, attr := 0
    content := fun _ => 7, word := by decide }

theorem oneBlock_sized : oneBlock.Sized := by
  unfold WordTransfer.Sized
  decide

/-- One transfer of eight quadwords. -/
theorem setDmaWords_right_oneBlock :
    CallRight statLayout ⟨fun _ => oneBlock, 1, by decide⟩
      (wordMachine statLayout).initial :=
  (setDmaWords_right_iff .initial ⟨fun _ => oneBlock, 1, by decide⟩).mpr
    (fun _accepted => ⟨by decide, fun _ _ => oneBlock_sized⟩) (by decide)

def emptyTag : WordTransfer :=
  { src := 0x10000, dest := 0x2000, size := 0, attr := 0x20
    content := fun _ => 7, word := by decide }

/-- An IOP tag with a size of 0. -/
theorem setDmaWords_wrong : ¬ ∀ layout state,
    (wordMachine layout).Reach (fun _ _ => True) state →
      ∀ call : SetDmaCall, call.Accepts layout state.dma →
        CallRight layout call state := by
  intro always
  let call : SetDmaCall := ⟨fun _ => emptyTag, 1, by decide⟩
  have accepted : call.Accepts statLayout (wordMachine statLayout).initial.dma := by
    decide
  have right := always statLayout _ .initial call accepted
  have sized := (wordInv_initial.right_iff accepted).mp right
  have notSized : ¬emptyTag.Sized := by
    unfold WordTransfer.Sized
    decide
  exact notSized (sized.2 0 (by decide))

end KernelReloaded.SifDma
