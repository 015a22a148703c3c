/-
The answers of `sif_dma_stat`.

The tags are numbered in the order they are written, and the numbers never wrap;
the ring index and the lap counter of the source are read off the number of
written tags.  A call of `SifSetDma` is remembered with the id it returned and
the numbers of its tags.  The reads of the DMAC registers in `sif_dma_stat` see
one state.

`written` and `calls` are records of the run and are never read by the code.
-/

import KernelReloaded.Sbios.DmaRing

namespace KernelReloaded.SifDma

variable (layout : Layout)

/-! ### `sif_dma_stat` -/

/-- The value of `id >> 16` for a signed id, as it is stored in a `u32`. -/
def signedLap (id : Nat) : Nat :=
  if id < 0x80000000 then id >>> 16 else (id >>> 16) + 0xffff0000

/-- The answer, and whether interrupts are enabled after the call. -/
def sifDmaStat (id : Nat) (enabled : Bool) (state : DmaState) : Int × Bool :=
  if state.started = false then
    (-1, enabled)
  else
    let ntags := id &&& 0xff
    let starttag := id >>> 8 &&& 0xff
    let lasttag := (starttag + ntags + 4294967295) % 4294967296 % 31
    let count :=
      if lasttag ≠ 0 then signedLap id else (signedLap id + 1) % 4294967296
    let index := hwIndex layout state
    let dmaCount :=
      if state.index < index then (state.count + 4294967295) % 4294967296
      else state.count
    if (dmaCount = id >>> 16 ∨ dmaCount = count) ∧
        starttag ≤ index ∧ index ≤ lasttag then
      -- interrupts have been disabled and are not restored on this path
      (0, false)
    else
      (-1, enabled)

/-! ### Runs with numbered tags -/

/-- An accepted call: its id and its tags from number `first` on. -/
structure DmaCall where
  id : Nat
  first : Nat
  ntags : Nat
deriving DecidableEq

structure StatState where
  dma : DmaState
  written : Nat
  calls : List DmaCall

def recordCall (transfers : List Transfer) (id : Nat) (next : DmaState)
    (state : StatState) : StatState :=
  if id = 0 then
    { state with dma := next }
  else
    { dma := next
      written := state.written + numberOfTags transfers
      calls :=
        { id := id, first := state.written, ntags := numberOfTags transfers } ::
          state.calls }

def statStep (state : StatState) (event : Event) : Option StatState :=
  (dmaStep layout state.dma event).map fun next =>
    match event with
    | .dmac => { state with dma := next }
    | .setDma transfers =>
        recordCall transfers (sifSetDma layout transfers state.dma).1 next state

def statMachine : Machine StatState Event :=
  { initial := { dma := (sifMachine layout).initial, written := 0, calls := [] }
    step := statStep layout }

/-! ### What is wanted -/

/-- All tags of the call have been fetched and worked off. -/
def DmaCall.AllConsumed (call : DmaCall) (state : StatState) : Prop :=
  ∀ offset < call.ntags,
    call.first + offset + state.dma.occupiedTags < state.written

instance (call : DmaCall) (state : StatState) :
    Decidable (call.AllConsumed state) :=
  inferInstanceAs (Decidable (∀ offset < call.ntags, _))

/-- No tag of the call has been written again. -/
def DmaCall.NotReused (call : DmaCall) (state : StatState) : Prop :=
  state.written ≤ call.first + 31

def DmaCall.Answered (call : DmaCall) (enabled : Bool) (state : StatState) :
    Prop :=
  sifDmaStat layout call.id enabled state.dma =
    (if call.AllConsumed state then -1 else 0, enabled)

/-- The tags go around the end of the ring. -/
def DmaCall.Wraps (call : DmaCall) : Prop := 31 < call.first % 31 + call.ntags

instance (call : DmaCall) : Decidable call.Wraps :=
  inferInstanceAs (Decidable (31 < _))

def StatState.fetched (state : StatState) : Nat :=
  state.written - state.dma.pending

/-- A finished transfer is answered when the channel has stopped or is already
behind the transfer, an unfinished one only while the channel is within it. -/
def StatMet (call : DmaCall) (enabled : Bool) (state : StatState) : Prop :=
  if call.AllConsumed state then
    state.dma.started = false ∨ call.Wraps ∨
      call.first + call.ntags < state.fetched
  else
    ¬ call.Wraps ∧ enabled = false ∧
      (call.first < state.fetched ∨
        state.dma.pending = 31 ∧ state.written = call.first + call.ntags)

/-! ### Numbers of tags -/

/-- The index and the lap counter belong to a number of written tags. -/
structure Numbered (written : Nat) (state : DmaState) : Prop where
  index : state.index = (written + 30) % 31
  count : state.count = ((written + 30) / 31 + 65535) % 65536

theorem numbered_setNextDmatag {written : Nat} {state : DmaState}
    (numbered : Numbered written state) :
    Numbered (written + 1) (setNextDmatag state) := by
  have index := numbered.index
  have count := numbered.count
  rw [setNextDmatag]
  split
  · refine ⟨?_, ?_⟩ <;> dsimp only <;> omega
  · refine ⟨?_, ?_⟩ <;> dsimp only <;> omega

theorem numbered_sifDmaTransfer {written : Nat} {state : DmaState}
    (numbered : Numbered written state) (transfer : Transfer)
    (id : DmatagId) :
    Numbered (written + transfer.numberOfTags)
      (sifDmaTransfer layout transfer id state) := by
  have once := numbered_setNextDmatag numbered
  rw [sifDmaTransfer, Transfer.numberOfTags]
  dsimp only
  by_cases dmatag : transfer.attr &&& attrDmatag ≠ 0
  · rw [if_pos dmatag, if_pos (Or.inl dmatag)]
    exact ⟨once.index, once.count⟩
  · rw [if_neg dmatag]
    by_cases large : 8 ≤ quadwords transfer.size
    · have tall : ¬ (transfer.attr &&& attrDmatag ≠ 0 ∨
          transfer.size ≤ qwcPayloadFirstPkt * qwcSize) := by
        rintro (isTag | small)
        · exact dmatag isTag
        · change 8 ≤ (transfer.size + 16 - 1) / 16 at large
          change transfer.size ≤ 7 * 16 at small
          omega
      rw [if_pos large, if_neg tall]
      have stored : Numbered (written + 1) (storeTag (setNextDmatag state)
          { idQwc := dmatagIdQwc .ref 8 false
            addr := layout.slot (setNextDmatag state).index }) :=
        ⟨once.index, once.count⟩
      have twice := numbered_setNextDmatag stored
      exact ⟨twice.index, twice.count⟩
    · have small : transfer.size ≤ qwcPayloadFirstPkt * qwcSize := by
        change ¬ 8 ≤ (transfer.size + 16 - 1) / 16 at large
        change transfer.size ≤ 7 * 16
        omega
      rw [if_neg large, if_pos (Or.inr small)]
      exact ⟨once.index, once.count⟩

theorem numbered_sifDmaTransfers {written : Nat} {state : DmaState}
    (transfers : List Transfer) (numbered : Numbered written state) :
    Numbered (written + numberOfTags transfers)
      (sifDmaTransfers layout transfers state) := by
  induction transfers generalizing written state with
  | nil => exact numbered
  | cons transfer rest ih =>
      rw [numberOfTags, ← Nat.add_assoc]
      cases rest with
      | nil => exact numbered_sifDmaTransfer layout numbered transfer .refe
      | cons next others =>
          exact ih (numbered_sifDmaTransfer layout numbered transfer .ref)

theorem sifDmaSetupTag_numbered {written : Nat} {state : DmaState}
    (freetags : Nat) (numbered : Numbered written state) :
    Numbered written (sifDmaSetupTag layout freetags state) := by
  rw [sifDmaSetupTag]
  split
  · exact numbered
  · split <;> exact ⟨numbered.index, numbered.count⟩

/-! ### The words of an id -/

theorem callId_eq (count : Nat) {start ntags : Nat} (startSmall : start < 31)
    (few : ntags ≤ 31) :
    (count <<< 16) % 4294967296 ||| start <<< 8 ||| (ntags &&& 0xff) =
      count % 65536 * 65536 + start * 256 + ntags := by
  have low : ntags &&& 0xff = ntags :=
    (Nat.and_two_pow_sub_one_eq_mod ntags 8).trans
      (Nat.mod_eq_of_lt (by omega))
  have high : (count <<< 16) % 4294967296 = (count % 65536) <<< 16 := by
    rw [Nat.shiftLeft_eq, Nat.shiftLeft_eq]
    omega
  have middle : start <<< 8 + ntags < 2 ^ 16 := by
    rw [Nat.shiftLeft_eq]
    omega
  rw [low, high, Nat.or_assoc,
    ← Nat.shiftLeft_add_eq_or_of_lt (by omega : ntags < 2 ^ 8),
    ← Nat.shiftLeft_add_eq_or_of_lt middle, Nat.shiftLeft_eq, Nat.shiftLeft_eq]
  omega

/-- The id of a call holds the lap and the index of the first tag and the number
of tags. -/
structure DmaCall.Known (written : Nat) (call : DmaCall) : Prop where
  nonempty : 0 < call.ntags
  few : call.ntags ≤ 31
  before : call.first + call.ntags ≤ written
  id : call.id =
    call.first / 31 % 65536 * 65536 + call.first % 31 * 256 + call.ntags

theorem DmaCall.Known.ntags {written : Nat} {call : DmaCall}
    (known : call.Known written) : call.id &&& 0xff = call.ntags := by
  have few := known.few
  have word := known.id
  refine (Nat.and_two_pow_sub_one_eq_mod call.id 8).trans ?_
  omega

theorem DmaCall.Known.starttag {written : Nat} {call : DmaCall}
    (known : call.Known written) :
    call.id >>> 8 &&& 0xff = call.first % 31 := by
  have few := known.few
  have word := known.id
  refine (Nat.and_two_pow_sub_one_eq_mod (call.id >>> 8) 8).trans ?_
  rw [Nat.shiftRight_eq_div_pow]
  omega

theorem DmaCall.Known.lap {written : Nat} {call : DmaCall}
    (known : call.Known written) :
    call.id >>> 16 = call.first / 31 % 65536 := by
  have few := known.few
  have word := known.id
  rw [Nat.shiftRight_eq_div_pow]
  omega

/-! ### The invariant -/

structure StatInv (state : StatState) : Prop where
  dma : DmaInv layout state.dma
  numbered : Numbered state.written state.dma
  occupied : state.dma.occupiedTags ≤ state.written
  calls : ∀ call ∈ state.calls, call.Known state.written

theorem statInv_initial : StatInv layout (statMachine layout).initial where
  dma := dmaInv_initial layout
  numbered := by
    refine ⟨rfl, ?_⟩
    change 65535 = ((0 + 30) / 31 + 65535) % 65536
    omega
  occupied := Nat.le_refl 0
  calls := by
    intro call impossible
    cases impossible

theorem dmacStep_numbered {written : Nat} {state next : DmaState}
    (numbered : Numbered written state)
    (stepped : dmacStep layout state = some next) : Numbered written next := by
  rw [dmacStep] at stepped
  split at stepped
  · cases stepped
  · split at stepped
    · obtain rfl := Option.some.inj stepped
      exact ⟨numbered.index, numbered.count⟩
    · split at stepped <;> obtain rfl := Option.some.inj stepped <;>
        exact ⟨numbered.index, numbered.count⟩

/-- The DMAC never has more to do after a step than before. -/
theorem dmacStep_occupied {state next : DmaState} (inv : DmaInv layout state)
    (stepped : dmacStep layout state = some next) :
    next.occupiedTags ≤ state.occupiedTags := by
  rw [dmacStep] at stepped
  split at stepped
  · cases stepped
  · split at stepped <;> rename_i fetches
    · obtain rfl := Option.some.inj stepped
      have pending := inv.goesOn fetches.1 fetches.2.2
      rcases inv.first layout pending with ⟨-, wrap⟩ | ⟨-, shape⟩
      · apply Nat.le_of_eq
        rw [dmacFetch_of_wrap layout wrap, DmaState.occupiedTags,
          DmaState.occupiedTags, fetches.2.1]
      · have chained := inv.chained
        rw [shape] at chained
        rw [dmacFetch_of_ne_next layout rfl chained.head_ne_next,
          DmaState.occupiedTags, DmaState.occupiedTags]
        dsimp only
        split <;> split <;> omega
    · split at stepped <;> rename_i done
      · obtain rfl := Option.some.inj stepped
        exact Nat.le_refl _
      · obtain rfl := Option.some.inj stepped
        simp only [DmaState.occupiedTags, if_pos done]
        split <;> omega

theorem numberOfTags_pos {transfers : List Transfer}
    (nonempty : transfers ≠ []) : 0 < numberOfTags transfers := by
  cases transfers with
  | nil => exact (nonempty rfl).elim
  | cons transfer rest =>
      rw [numberOfTags, Transfer.numberOfTags]
      split <;> omega

theorem accepted_few {state : DmaState} (inv : DmaInv layout state)
    {transfers : List Transfer} (accepted : Accepted layout transfers state) :
    numberOfTags transfers ≤ 31 := by
  rw [Accepted] at accepted
  rcases Nat.lt_or_eq_of_le inv.room with notFull | full
  · have free := freeTags_eq layout inv.lined notFull
    rw [free] at accepted
    split at accepted
    · split at accepted <;> omega
    · omega
  · rw [freeTags_of_full layout inv full] at accepted
    exact accepted

/-- The id of an accepted call, by the number of its first tag. -/
theorem sifSetDma_id {state : DmaState} {written : Nat}
    (inv : DmaInv layout state) (numbered : Numbered written state)
    {transfers : List Transfer} (accepted : Accepted layout transfers state) :
    (sifSetDma layout transfers state).1 =
      written / 31 % 65536 * 65536 + written % 31 * 256 +
        numberOfTags transfers := by
  have few := accepted_few layout inv accepted
  have index := numbered.index
  have count := numbered.count
  rw [Accepted] at accepted
  rw [sifSetDma]
  dsimp only
  rw [if_pos accepted]
  dsimp only
  rw [callId_eq _ (Nat.mod_lt _ (by omega)) few]
  split <;> omega

/-- An accepted call adds its tags to those that wait. -/
theorem sifSetDma_occupied {state : DmaState} (inv : DmaInv layout state)
    {transfers : List Transfer} (nonempty : transfers ≠ [])
    (notFull : state.pending < 31)
    (accepted : Accepted layout transfers state) :
    (sifSetDma layout transfers state).2.occupiedTags =
      state.occupiedTags + numberOfTags transfers := by
  have ready := setup_ready layout inv notFull accepted
  have free := freeTags_eq layout inv.lined notFull
  obtain ⟨tags, -, -, number, -, stored⟩ := sifDmaTransfers_extends layout
    transfers nonempty ready.lined ready.room
  have pending := stored.pending
  have qwc := stored.qwc
  rw [number] at pending
  have setup : (sifDmaSetupTag layout (sifGetNumberOfFreeDmaTags layout state)
      state).occupiedTags = state.occupiedTags := by
    rw [sifDmaSetupTag]
    split
    · rfl
    · split <;> rename_i rebuilt
      · have working : state.pending = 0 ∧ state.qwc ≠ 0 := by
          rw [rebuilt] at free
          split at free
          · split at free
            · exact ⟨by assumption, by assumption⟩
            · omega
          · omega
        simp only [DmaState.occupiedTags, working.1, if_pos working.2]
        rfl
      · rfl
  rw [Accepted] at accepted
  rw [sifSetDma]
  dsimp only
  rw [if_pos accepted, ← setup]
  simp only [DmaState.occupiedTags, startChannel, pending, qwc]
  omega

theorem sifSetDma_statInv {state : StatState} (inv : StatInv layout state)
    {transfers : List Transfer} (nonempty : transfers ≠ [])
    (met : Met state.dma (.setDma transfers)) :
    StatInv layout (recordCall transfers
      (sifSetDma layout transfers state.dma).1
      (sifSetDma layout transfers state.dma).2 state) := by
  have dma := sifSetDma_inv layout inv.dma nonempty met
  have some := numberOfTags_pos nonempty
  by_cases accepted : Accepted layout transfers state.dma
  · have few := accepted_few layout inv.dma accepted
    have id := sifSetDma_id layout inv.dma inv.numbered accepted
    have notFull := Met.notFull layout inv.dma met accepted
    have occupied := sifSetDma_occupied layout inv.dma nonempty notFull accepted
    have before := inv.occupied
    have numbered : Numbered (state.written + numberOfTags transfers)
        (sifSetDma layout transfers state.dma).2 := by
      have later := numbered_sifDmaTransfers layout transfers
        (sifDmaSetupTag_numbered layout
          (sifGetNumberOfFreeDmaTags layout state.dma) inv.numbered)
      rw [Accepted] at accepted
      rw [sifSetDma]
      dsimp only
      rw [if_pos accepted]
      exact ⟨later.index, later.count⟩
    rw [recordCall, if_neg (by omega)]
    refine
      { dma := dma
        numbered := numbered
        occupied := ?_
        calls := ?_ }
    · dsimp only
      omega
    · intro call member
      dsimp only at member ⊢
      rcases List.mem_cons.mp member with rfl | earlier
      · exact ⟨some, few, Nat.le_refl _, id⟩
      · have known := inv.calls call earlier
        exact ⟨known.nonempty, known.few,
          Nat.le_trans known.before (Nat.le_add_right _ _), known.id⟩
  · rw [Accepted] at accepted
    rw [recordCall]
    rw [sifSetDma] at dma ⊢
    dsimp only at dma ⊢
    rw [if_neg accepted] at dma ⊢
    exact
      { dma := dma
        numbered := ⟨inv.numbered.index, inv.numbered.count⟩
        occupied := inv.occupied
        calls := inv.calls }

theorem statStep_inv {state next : StatState} (event : Event)
    (inv : StatInv layout state) (met : Met state.dma event)
    (stepped : statStep layout state event = some next) :
    StatInv layout next := by
  obtain ⟨dma, dmaStepped, rfl⟩ := Option.map_eq_some_iff.mp stepped
  cases event with
  | dmac =>
      have less := dmacStep_occupied layout inv.dma dmaStepped
      exact
        { dma := dmacStep_inv layout inv.dma dmaStepped
          numbered := dmacStep_numbered layout inv.numbered dmaStepped
          occupied := Nat.le_trans less inv.occupied
          calls := inv.calls }
  | setDma transfers =>
      cases transfers with
      | nil => cases dmaStepped
      | cons transfer rest =>
          obtain rfl := Option.some.inj dmaStepped
          exact sifSetDma_statInv layout inv (List.cons_ne_nil _ _) met

/-! ### The answer -/

/-- The index in front of TADR is the one of the last fetched tag. -/
theorem StatInv.hwIndex {state : StatState} (inv : StatInv layout state) :
    SifDma.hwIndex layout state.dma = (state.fetched + 30) % 31 := by
  have index := inv.numbered.index
  have lined := inv.dma.lined.index
  have room := inv.dma.room
  have occupied := inv.occupied
  rw [DmaState.occupiedTags] at occupied
  rw [hwIndex_eq layout inv.dma.lined, StatState.fetched]
  omega

theorem between_offset {start ahead ntags : Nat} (inside : start < 31)
    (some : 0 < ntags) (few : ntags ≤ 31) (least : ntags ≤ ahead)
    (most : ahead ≤ 62) :
    (start ≤ (start + ahead + 30) % 31 ∧
        (start + ahead + 30) % 31 ≤ (start + ntags + 30) % 31) ↔
      start + ntags ≤ 31 ∧
        (31 < ahead ∧ ahead ≤ 31 + ntags ∨ ahead = ntags) := by
  by_cases wraps : start + ntags ≤ 31
  · have last : (start + ntags + 30) % 31 = start + ntags - 1 := by omega
    rw [last]
    omega
  · have last : (start + ntags + 30) % 31 = start + ntags - 32 := by omega
    rw [last]
    omega

/-- The last fetched tag lies between the ends of a transfer in the ring when it
is one of its tags, or when nothing of a full ring has been fetched. -/
theorem between_iff {first ntags written pending : Nat} (some : 0 < ntags)
    (few : ntags ≤ 31) (before : first + ntags ≤ written)
    (notReused : written ≤ first + 31) (room : pending ≤ 31)
    (fetchable : pending ≤ written) :
    (first % 31 ≤ (written - pending + 30) % 31 ∧
        (written - pending + 30) % 31 ≤
          (first % 31 + ntags + 4294967295) % 4294967296 % 31) ↔
      ¬ 31 < first % 31 + ntags ∧
        (first < written - pending ∧ written - pending ≤ first + ntags ∨
          pending = 31 ∧ written = first + ntags) := by
  have inside : first % 31 < 31 := Nat.mod_lt _ (by omega)
  have last : (first % 31 + ntags + 4294967295) % 4294967296 % 31 =
      (first % 31 + ntags + 30) % 31 := by
    omega
  obtain ⟨ahead, isAhead⟩ : ∃ ahead, written - pending + 31 = first + ahead :=
    ⟨written - pending + 31 - first, by omega⟩
  have index : (written - pending + 30) % 31 =
      (first % 31 + ahead + 30) % 31 := by
    omega
  rw [last, index, between_offset inside some few (by omega) (by omega)]
  omega

/-- The lap of the software is one ahead when its index is behind. -/
theorem lap_of_within {first ntags written pending : Nat}
    (some : 0 < ntags) (before : first + ntags ≤ written)
    (notReused : written ≤ first + 31) (room : pending ≤ 31)
    (fetchable : pending ≤ written) (straight : first % 31 + ntags ≤ 31)
    (within : first < written - pending ∧ written - pending ≤ first + ntags ∨
      pending = 31 ∧ written = first + ntags) :
    (written + 30) / 31 =
      if (written + 30) % 31 < (written - pending + 30) % 31 then
        first / 31 + 2
      else first / 31 + 1 := by
  split <;> omega

theorem DmaCall.Known.signedLap {written : Nat} {call : DmaCall}
    (known : call.Known written) :
    signedLap call.id =
      if call.first / 31 % 65536 < 32768 then call.first / 31 % 65536
      else call.first / 31 % 65536 + 0xffff0000 := by
  have few := known.few
  have word := known.id
  rw [SifDma.signedLap, known.lap]
  split <;> split <;> omega

theorem lap_matches {written : Nat} {call : DmaCall}
    (known : call.Known written) {index hw last count : Nat}
    (isCount : count = ((if index < hw then call.first / 31 + 2
      else call.first / 31 + 1) + 65535) % 65536)
    (upTo : hw ≤ last) :
    (if index < hw then (count + 4294967295) % 4294967296 else count) =
        call.id >>> 16 ∨
      (if index < hw then (count + 4294967295) % 4294967296 else count) =
        if last ≠ 0 then signedLap call.id
        else (signedLap call.id + 1) % 4294967296 := by
  rw [known.lap]
  by_cases behind : index < hw
  · rw [if_pos behind] at isCount ⊢
    by_cases turned : call.first / 31 % 65536 = 65535
    · right
      rw [if_pos (by omega), known.signedLap, if_neg (by omega)]
      omega
    · left
      omega
  · left
    rw [if_neg behind] at isCount ⊢
    omega

/-- What the call answers, by the numbers of the tags. -/
theorem StatInv.answer {state : StatState} (inv : StatInv layout state)
    {call : DmaCall} (known : call.Known state.written)
    (notReused : call.NotReused state) (enabled : Bool) :
    sifDmaStat layout call.id enabled state.dma =
      if state.dma.started = true ∧ ¬ call.Wraps ∧
          (call.first < state.fetched ∧
              state.fetched ≤ call.first + call.ntags ∨
            state.dma.pending = 31 ∧
              state.written = call.first + call.ntags) then
        (0, false)
      else (-1, enabled) := by
  have occupied := inv.occupied
  rw [DmaState.occupiedTags] at occupied
  have between := between_iff known.nonempty known.few known.before notReused
    inv.dma.room (by omega)
  have hw := inv.hwIndex layout
  rw [sifDmaStat]
  by_cases stopped : state.dma.started = false
  · rw [if_pos stopped, if_neg]
    intro within
    rw [stopped] at within
    cases within.1
  · have started : state.dma.started = true := by
      rw [← Bool.not_eq_false]
      exact stopped
    rw [if_neg stopped]
    dsimp only
    rw [known.ntags, known.starttag, hw]
    rw [StatState.fetched] at *
    congr 1
    rw [between, eq_iff_iff]
    constructor
    · intro matching
      exact ⟨started, matching.2⟩
    · intro within
      refine ⟨?_, within.2⟩
      have lap := lap_of_within known.nonempty known.before notReused
        inv.dma.room (by omega) (Nat.le_of_not_lt within.2.1) within.2.2
      have count := inv.numbered.count
      rw [lap, ← inv.numbered.index] at count
      exact lap_matches known count (between.mpr within.2).2

theorem DmaCall.Known.allConsumed_iff {state : StatState} {call : DmaCall}
    (known : call.Known state.written) :
    call.AllConsumed state ↔
      call.first + call.ntags + state.dma.occupiedTags ≤ state.written := by
  have nonempty := known.nonempty
  constructor
  · intro all
    have last := all (call.ntags - 1) (by omega)
    omega
  · intro enough offset inside
    omega

/-- An unfinished transfer keeps the channel started and within or before its
tags. -/
theorem StatInv.unfinished {state : StatState} (inv : StatInv layout state)
    {call : DmaCall} (known : call.Known state.written)
    (unfinished : ¬ call.AllConsumed state) :
    state.dma.started = true ∧
      state.fetched ≤ call.first + call.ntags := by
  have before := known.before
  have consumed := known.allConsumed_iff
  rw [DmaState.occupiedTags] at consumed
  constructor
  · rw [← Bool.not_eq_false]
    intro stopped
    obtain ⟨none, done⟩ := inv.dma.stopped stopped
    rw [if_neg (not_not.mpr done)] at consumed
    exact unfinished (consumed.mpr (by omega))
  · by_contra beyond
    rw [StatState.fetched] at beyond
    refine unfinished (consumed.mpr ?_)
    split <;> omega

theorem StatInv.answered_iff {state : StatState} (inv : StatInv layout state)
    {call : DmaCall} (known : call.Known state.written)
    (notReused : call.NotReused state) (enabled : Bool) :
    call.Answered layout enabled state ↔ StatMet call enabled state := by
  rw [DmaCall.Answered, StatMet, inv.answer layout known notReused]
  by_cases all : call.AllConsumed state
  · have nonempty := known.nonempty
    have fetched : call.first + call.ntags ≤ state.fetched := by
      have enough := known.allConsumed_iff.mp all
      rw [DmaState.occupiedTags] at enough
      rw [StatState.fetched]
      omega
    have most : state.fetched ≤ state.written := Nat.sub_le _ _
    rw [if_pos all, if_pos all]
    split <;> rename_i within
    · obtain ⟨started, straight, position⟩ := within
      constructor
      · intro wrong
        cases congrArg Prod.fst wrong
      · rintro (stopped | wraps | beyond)
        · rw [started] at stopped
          cases stopped
        · exact (straight wraps).elim
        · rw [StatState.fetched] at *
          omega
    · refine ⟨fun _ => ?_, fun _ => rfl⟩
      by_contra other
      rw [not_or, not_or] at other
      refine within ⟨?_, other.2.1, .inl ⟨by omega, by omega⟩⟩
      rw [← Bool.not_eq_false]
      exact other.1
  · obtain ⟨started, upTo⟩ := inv.unfinished layout known all
    rw [if_neg all, if_neg all]
    split <;> rename_i within
    · obtain ⟨-, straight, position⟩ := within
      constructor
      · intro same
        refine ⟨straight, (congrArg Prod.snd same).symm, ?_⟩
        exact position.imp And.left id
      · rintro ⟨-, disabled, -⟩
        rw [disabled]
    · constructor
      · intro wrong
        cases congrArg Prod.fst wrong
      · rintro ⟨straight, -, position⟩
        refine (within ⟨started, straight, ?_⟩).elim
        exact position.imp (fun begun => ⟨begun, upTo⟩) id

/-! ### Runs -/

/-- In every run of calls and DMAC steps, whether an id is answered rightly and
with the interrupts as they were is decided by where the DMAC is. -/
theorem sifDmaStat_answered_iff {state : StatState}
    (reached : (statMachine layout).Reach
      (fun state event => Met state.dma event) state)
    {call : DmaCall} (made : call ∈ state.calls)
    (notReused : call.NotReused state) (enabled : Bool) :
    call.Answered layout enabled state ↔ StatMet call enabled state := by
  have inv : StatInv layout state :=
    reached.invariant (statInv_initial layout)
      fun _ event _ inv met stepped => statStep_inv layout event inv met stepped
  exact inv.answered_iff layout (inv.calls call made) notReused enabled

def statLayout : Layout := { dmatags := 0x1000, iopDmatags := 0x8000 }

def firstCall : DmaCall := { id := 1, first := 0, ntags := 1 }

/-- The DMAC works on the only tag of a call, with interrupts disabled. -/
theorem sifDmaStat_answered_working :
    ∃ state, (statMachine statLayout).Reach
        (fun state event => Met state.dma event) state ∧
      state.dma.qwc = 2 ∧ state.calls = [firstCall] ∧
      firstCall.Answered statLayout false state := by
  let events : List Event := [.setDma [oneQuadword], .dmac]
  have results : ((statMachine statLayout).follow
      (fun state event => Met state.dma event) events
      (statMachine statLayout).initial).map (fun state =>
        (state.calls, state.written, state.dma.pending, state.dma.qwc)) =
      some ([firstCall], 1, 0, 2) := by
    decide +kernel
  obtain ⟨state, followed, result⟩ := Option.map_eq_some_iff.mp results
  simp only [Prod.mk.injEq] at result
  obtain ⟨calls, written, pending, qwc⟩ := result
  have reached := Machine.Reach.initial.follow events followed
  have made : firstCall ∈ state.calls := by
    rw [calls]
    exact List.mem_singleton_self firstCall
  have notReused : firstCall.NotReused state := by
    rw [DmaCall.NotReused, written]
    decide
  have unfinished : ¬ firstCall.AllConsumed state := by
    rw [DmaCall.AllConsumed, DmaState.occupiedTags, written, pending, qwc]
    decide
  have met : StatMet firstCall false state := by
    rw [StatMet, if_neg unfinished, StatState.fetched, written, pending]
    decide
  exact ⟨state, reached, qwc, calls,
    (sifDmaStat_answered_iff statLayout reached made notReused false).mpr met⟩

/-- The same answer given with interrupts enabled leaves them disabled. -/
theorem sifDmaStat_leaves_disabled : ¬ ∀ layout state,
    (statMachine layout).Reach (fun _ _ => True) state →
      ∀ call ∈ state.calls, call.NotReused state →
        ∀ enabled, call.Answered layout enabled state := by
  intro always
  let events : List Event := [.setDma [oneQuadword], .dmac]
  have results : ((statMachine statLayout).follow (fun _ _ => True) events
      (statMachine statLayout).initial).map (fun state =>
        (state.calls, state.written,
          sifDmaStat statLayout 1 true state.dma)) =
      some ([firstCall], 1, (0, false)) := by
    decide +kernel
  obtain ⟨state, followed, result⟩ := Option.map_eq_some_iff.mp results
  simp only [Prod.mk.injEq] at result
  obtain ⟨calls, written, answer⟩ := result
  have reached := Machine.Reach.initial.follow events followed
  have made : firstCall ∈ state.calls := by
    rw [calls]
    exact List.mem_singleton_self firstCall
  have notReused : firstCall.NotReused state := by
    rw [DmaCall.NotReused, written]
    decide
  have answered := always statLayout state reached firstCall made notReused true
  have kept := congrArg Prod.snd answered
  change (sifDmaStat statLayout 1 true state.dma).2 = true at kept
  rw [answer] at kept
  cases kept

end KernelReloaded.SifDma
