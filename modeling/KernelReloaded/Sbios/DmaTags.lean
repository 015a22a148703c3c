/-
Tags of the SIF1 ring: their words, chains of them, and how calls store them.

The unfetched tags are read off the ring as a list.  A transfer adds its tags at
the end of that list and touches nothing else.
-/

import KernelReloaded.Sbios.SifDma

namespace KernelReloaded.SifDma

variable (layout : Layout)

def Dmatag.run (tag : Dmatag) : Nat × Nat := (tag.addr, tag.qwc)

def runQuadwords (run : Nat × Nat) : List Nat :=
  (List.range run.2).map fun qword => run.1 + 16 * qword

def DmaState.position (state : DmaState) : Nat :=
  (state.tadr - layout.dmatags) / 16

/-- The unfetched tags of accepted transfers, from TADR on. -/
def DmaState.ring (state : DmaState) : Ring Dmatag 31 :=
  { slots := state.tags
    first := state.position layout % 31
    count := state.pending
    first_lt := Nat.mod_lt _ (by decide) }

/-! ### The words of a tag -/

theorem qwc_dmatagIdQwc_mod (id : DmatagId) (qwc : Nat) (irq : Bool) :
    dmatagIdQwc id qwc irq % 65536 = qwc % 65536 := by
  have irqBits : (if irq then 1 <<< 31 else 0) % 2 ^ 16 = 0 := by
    cases irq <;> decide
  have idBits : id.code <<< 28 % 2 ^ 16 = 0 := by
    cases id <;> decide
  change dmatagIdQwc id qwc irq % 2 ^ 16 = qwc % 2 ^ 16
  rw [dmatagIdQwc, Nat.or_mod_two_pow, Nat.or_mod_two_pow, irqBits, idBits,
    Nat.zero_or, Nat.or_zero]

theorem qwc_dmatagIdQwc (id : DmatagId) {qwc : Nat} (fits : qwc < 65536)
    (irq : Bool) : dmatagIdQwc id qwc irq % 65536 = qwc := by
  rw [qwc_dmatagIdQwc_mod]
  exact Nat.mod_eq_of_lt fits

theorem id_dmatagIdQwc_word (id : DmatagId) {qwc : Nat} (below : qwc < 268435456)
    (irq : Bool) : (dmatagIdQwc id qwc irq >>> 28) % 8 = id.code := by
  have irqBits : ((if irq then 1 <<< 31 else 0) >>> 28) % 2 ^ 3 = 0 := by
    cases irq <;> decide
  have idBits : (id.code <<< 28 >>> 28) % 2 ^ 3 = id.code := by
    cases id <;> decide
  have qwcBits : qwc >>> 28 = 0 := by
    rw [Nat.shiftRight_eq_div_pow]
    omega
  change (dmatagIdQwc id qwc irq >>> 28) % 2 ^ 3 = id.code
  rw [dmatagIdQwc, Nat.shiftRight_or_distrib, Nat.shiftRight_or_distrib,
    qwcBits, Nat.or_zero, Nat.or_mod_two_pow, irqBits, idBits, Nat.or_zero]

theorem id_dmatagIdQwc (id : DmatagId) {qwc : Nat} (fits : qwc < 65536)
    (irq : Bool) : (dmatagIdQwc id qwc irq >>> 28) % 8 = id.code :=
  id_dmatagIdQwc_word id (by omega) irq

theorem qwc_or_ref (word : Nat) :
    (word ||| DmatagId.ref.code <<< 28) % 65536 = word % 65536 := by
  change (word ||| _) % 2 ^ 16 = word % 2 ^ 16
  rw [Nat.or_mod_two_pow]
  exact Nat.or_zero _

theorem id_or_ref {word : Nat} (refe : (word >>> 28) % 8 = DmatagId.refe.code) :
    ((word ||| DmatagId.ref.code <<< 28) >>> 28) % 8 = DmatagId.ref.code := by
  change ((word ||| _) >>> 28) % 2 ^ 3 = _
  rw [Nat.shiftRight_or_distrib, Nat.or_mod_two_pow]
  change (word >>> 28) % 8 ||| _ = _
  rw [refe]
  decide

theorem rebuilt_fields (word : Nat) {qwc : Nat} (fits : qwc < 65536) :
    ((word &&& 0x8c000000) ||| DmatagId.ref.code <<< 28 ||| qwc) % 65536 =
        qwc ∧
      (((word &&& 0x8c000000) ||| DmatagId.ref.code <<< 28 ||| qwc) >>> 28) %
        8 = DmatagId.ref.code := by
  have qwcBits : qwc >>> 28 = 0 := by
    rw [Nat.shiftRight_eq_div_pow]
    omega
  constructor
  · change ((word &&& _) ||| _ ||| qwc) % 2 ^ 16 = qwc
    rw [Nat.or_mod_two_pow, Nat.or_mod_two_pow, Nat.and_mod_two_pow]
    change (word % 2 ^ 16 &&& 0) ||| 0 ||| qwc % 2 ^ 16 = qwc
    rw [Nat.and_zero, Nat.zero_or, Nat.zero_or]
    exact Nat.mod_eq_of_lt fits
  · change (((word &&& _) ||| _ ||| qwc) >>> 28) % 2 ^ 3 = _
    rw [Nat.shiftRight_or_distrib, qwcBits, Nat.or_zero,
      Nat.shiftRight_or_distrib, Nat.shiftRight_and_distrib,
      Nat.or_mod_two_pow, Nat.and_mod_two_pow]
    change ((word >>> 28) % 2 ^ 3 &&& 0) ||| 3 = 3
    rw [Nat.and_zero, Nat.zero_or]

/-! ### Chains of tags -/

/-- All tags go on to the next, and the last one stops the channel. -/
def Chained : List Dmatag → Prop
  | [] => True
  | [tag] => tag.id = DmatagId.refe.code
  | tag :: next :: rest =>
      tag.id = DmatagId.ref.code ∧ Chained (next :: rest)

theorem Chained.append {front back : List Dmatag}
    (refs : ∀ tag ∈ front, tag.id = DmatagId.ref.code) (chained : Chained back)
    (nonempty : back ≠ []) : Chained (front ++ back) := by
  induction front with
  | nil => exact chained
  | cons tag rest ih =>
      have later := ih fun other member => refs other
        (List.mem_cons_of_mem _ member)
      have here := refs tag List.mem_cons_self
      cases shape : rest ++ back with
      | nil =>
          exact (nonempty (List.append_eq_nil_iff.mp shape).2).elim
      | cons next others =>
          rw [List.cons_append, shape]
          rw [shape] at later
          exact ⟨here, later⟩

theorem Chained.refs {front : List Dmatag} {last : Dmatag}
    (chained : Chained (front ++ [last])) :
    (∀ tag ∈ front, tag.id = DmatagId.ref.code) ∧
      last.id = DmatagId.refe.code := by
  induction front with
  | nil => exact ⟨nofun, chained⟩
  | cons tag rest ih =>
      have split : tag.id = DmatagId.ref.code ∧ Chained (rest ++ [last]) := by
        cases rest with
        | nil => exact chained
        | cons next others => exact chained
      obtain ⟨later, lastId⟩ := ih split.2
      refine ⟨?_, lastId⟩
      intro other member
      rcases List.mem_cons.mp member with rfl | behind
      · exact split.1
      · exact later other behind

theorem Chained.tail {tag : Dmatag} {rest : List Dmatag}
    (chained : Chained (tag :: rest)) : Chained rest ∧
      (tag.id = DmatagId.ref.code ∧ rest ≠ [] ∨
        tag.id = DmatagId.refe.code ∧ rest = []) := by
  cases rest with
  | nil => exact ⟨trivial, .inr ⟨chained, rfl⟩⟩
  | cons next others => exact ⟨chained.2, .inl ⟨chained.1, nofun⟩⟩

theorem Chained.head_ne_next {tag : Dmatag} {rest : List Dmatag}
    (chained : Chained (tag :: rest)) : tag.id ≠ DmatagId.next.code := by
  rcases chained.tail.2 with ⟨isRef, -⟩ | ⟨isRefe, -⟩
  · rw [isRef]
    decide
  · rw [isRefe]
    decide

/-! ### Storing tags -/

/-- TADR points at a tag, and the software's index is in front of it by the
number of unfetched tags. -/
structure Lined (state : DmaState) : Prop where
  aligned : state.tadr = layout.dmatags + 16 * state.position layout
  inside : state.position layout ≤ 31
  index : state.index = (state.position layout + state.pending + 30) % 31

/-- `next` has further tags behind the unfetched ones. -/
structure Extends (state next : DmaState) (tags : List Dmatag) : Prop where
  list : (next.ring layout).toList = (state.ring layout).toList ++ tags
  pending : next.pending = state.pending + tags.length
  lined : Lined layout next
  index : next.index = (state.index + tags.length) % 31
  wrap : next.tags 31 = state.tags 31
  tadr : next.tadr = state.tadr
  qwc : next.qwc = state.qwc
  madr : next.madr = state.madr
  current : next.current = state.current
  submitted : next.submitted = state.submitted
  moved : next.moved = state.moved
  untouched : ∀ index, (∀ offset < tags.length,
    index ≠ (state.index + 1 + offset) % 31) →
      next.tags index = state.tags index ∧
        next.iopTags index = state.iopTags index

theorem Extends.trans {state middle next : DmaState} {front back : List Dmatag}
    (first : Extends layout state middle front)
    (second : Extends layout middle next back) :
    Extends layout state next (front ++ back) := by
  have index := first.index
  refine
    { list := ?_
      pending := ?_
      lined := second.lined
      index := ?_
      wrap := second.wrap.trans first.wrap
      tadr := second.tadr.trans first.tadr
      qwc := second.qwc.trans first.qwc
      madr := second.madr.trans first.madr
      current := second.current.trans first.current
      submitted := second.submitted.trans first.submitted
      moved := second.moved.trans first.moved
      untouched := ?_ }
  · rw [second.list, first.list, List.append_assoc]
  · rw [second.pending, first.pending, List.length_append, Nat.add_assoc]
  · rw [second.index, index, List.length_append]
    omega
  · intro other apart
    rw [List.length_append] at apart
    have early := first.untouched other fun offset inside =>
      apart offset (by omega)
    have late := second.untouched other (by
      intro offset inside
      have different := apart (front.length + offset) (by omega)
      rw [index]
      omega)
    exact ⟨late.1.trans early.1, late.2.trans early.2⟩

theorem setNextDmatag_eq {state : DmaState} (below : state.index < 31) :
    ∃ count, setNextDmatag state =
      { state with index := (state.index + 1) % 31, count := count } := by
  rw [setNextDmatag]
  split <;> rename_i atEnd
  · have wraps : (state.index + 1) % 31 = 0 := by omega
    rw [wraps]
    exact ⟨_, rfl⟩
  · have stays : (state.index + 1) % 31 = state.index + 1 := by omega
    rw [stays]
    exact ⟨_, rfl⟩

theorem extends_storeTag {state : DmaState} (lined : Lined layout state)
    (room : state.pending < 31) (tag : Dmatag) :
    (setNextDmatag state).index = (state.index + 1) % 31 ∧
      Extends layout state (storeTag (setNextDmatag state) tag) [tag] := by
  have below : state.index < 31 := by
    rw [lined.index]
    exact Nat.mod_lt _ (by decide)
  have slot : (state.index + 1) % 31 =
      (state.position layout % 31 + state.pending) % 31 := by
    rw [lined.index]
    omega
  obtain ⟨count, next⟩ := setNextDmatag_eq below
  rw [next]
  refine ⟨rfl,
    { list := ?_
      pending := rfl
      lined := ⟨lined.aligned, lined.inside, ?_⟩
      index := rfl
      wrap := ?_
      tadr := rfl
      qwc := rfl
      madr := rfl
      current := rfl
      submitted := rfl
      moved := rfl
      untouched := ?_ }⟩
  · have ring : (storeTag { state with
        index := (state.index + 1) % 31, count := count } tag).ring layout =
          (state.ring layout).storeLast tag := by
      simp only [storeTag, slot]
      rfl
    rw [ring]
    exact Ring.toList_storeLast _ room tag
  · change (state.index + 1) % 31 =
      (state.position layout + (state.pending + 1) + 30) % 31
    rw [slot]
    omega
  · refine Function.update_of_ne ?_ _ _
    dsimp only
    omega
  · intro other apart
    exact ⟨Function.update_of_ne (apart 0 Nat.one_pos) _ _, rfl⟩

theorem Extends.storeIopTag {state next : DmaState} {tag : Dmatag}
    {rest : List Dmatag} (stored : Extends layout state next (tag :: rest))
    (slot : IopDmatag) {index : Nat} (first : index = (state.index + 1) % 31) :
    Extends layout state (SifDma.storeIopTag next index slot)
      (tag :: rest) := by
  refine
    { list := stored.list
      pending := stored.pending
      lined := ⟨stored.lined.aligned, stored.lined.inside, stored.lined.index⟩
      index := stored.index
      wrap := stored.wrap
      tadr := stored.tadr
      qwc := stored.qwc
      madr := stored.madr
      current := stored.current
      submitted := stored.submitted
      moved := stored.moved
      untouched := ?_ }
  intro other apart
  obtain ⟨sameTag, sameSlot⟩ := stored.untouched other apart
  have different : other ≠ index := by
    rw [first]
    exact apart 0 (Nat.succ_pos _)
  exact ⟨sameTag, (Function.update_of_ne different _ _).trans sameSlot⟩

theorem run_dmatagIdQwc (id : DmatagId) {qwc : Nat} (fits : qwc < 65536)
    (irq : Bool) (addr : Nat) :
    Dmatag.run { idQwc := dmatagIdQwc id qwc irq, addr := addr } =
      (addr, qwc) := by
  rw [Dmatag.run, Dmatag.qwc]
  dsimp only
  rw [qwc_dmatagIdQwc id fits irq]

/-- The tags of a transfer: they move its runs, and the last one has the id of
the call. -/
structure TransferTags (transfer : Transfer) (id : DmatagId) (index : Nat)
    (front : List Dmatag) (last : Dmatag) : Prop where
  refs : ∀ tag ∈ front, tag.id = DmatagId.ref.code
  lastId : last.id = id.code
  runs : (front ++ [last]).map Dmatag.run = transfer.runs layout index
  number : (front ++ [last]).length = transfer.numberOfTags

/-- A transfer that is sent with one tag, out of its slot. -/
theorem oneTag_extends {state : DmaState} (lined : Lined layout state)
    (room : state.pending < 31) (transfer : Transfer) (id : DmatagId)
    {qwc : Nat} (fits : qwc < 65536) (irq : Bool) (slot : IopDmatag)
    (one : transfer.numberOfTags = 1)
    (runs : transfer.runs layout ((state.index + 1) % 31) =
      [(layout.slot ((state.index + 1) % 31), qwc)]) :
    ∃ front last, TransferTags layout transfer id ((state.index + 1) % 31)
        front last ∧
      Extends layout state
        (SifDma.storeIopTag (storeTag (setNextDmatag state)
          { idQwc := dmatagIdQwc id qwc irq
            addr := layout.slot (setNextDmatag state).index })
          (setNextDmatag state).index slot) (front ++ [last]) := by
  let tag : Dmatag :=
    { idQwc := dmatagIdQwc id qwc irq
      addr := layout.slot (setNextDmatag state).index }
  obtain ⟨index, stored⟩ := extends_storeTag layout lined room tag
  refine ⟨[], tag, ⟨nofun, id_dmatagIdQwc id fits irq, ?_, one.symm⟩,
    stored.storeIopTag layout slot index⟩
  rw [List.nil_append, List.map_singleton, run_dmatagIdQwc id fits, index, runs]

theorem sifDmaTransfer_extends {state : DmaState} (lined : Lined layout state)
    (transfer : Transfer) (id : DmatagId)
    (room : state.pending + transfer.numberOfTags ≤ 31) :
    ∃ front last, TransferTags layout transfer id ((state.index + 1) % 31)
        front last ∧
      Extends layout state (sifDmaTransfer layout transfer id state)
        (front ++ [last]) := by
  have seven : qwcPayloadFirstPkt = 7 := rfl
  have payload : qwcPayloadFirstPkt * qwcSize = 112 := rfl
  have quads : quadwords transfer.size = (transfer.size + 15) / 16 := rfl
  have fits := transfer.fits
  by_cases isTag : transfer.attr &&& attrDmatag ≠ 0
  · -- only the slot's header is sent
    have one : transfer.numberOfTags = 1 := if_pos (.inl isTag)
    rw [if_neg isTag, Nat.add_zero] at fits
    rw [sifDmaTransfer, if_pos isTag]
    apply oneTag_extends layout lined (by omega) transfer id fits _ _ one
    rw [Transfer.runs, if_pos isTag]
  · rw [if_pos (not_not.mp isTag)] at fits
    by_cases long : 8 ≤ quadwords transfer.size
    · -- the slot is full, and a second tag sends the rest
      have two : transfer.numberOfTags = 2 := by
        rw [Transfer.numberOfTags, if_neg]
        rintro (isTag' | short)
        · exact isTag isTag'
        · omega
      let full : Dmatag :=
        { idQwc := dmatagIdQwc .ref 8 false
          addr := layout.slot (setNextDmatag state).index }
      let tag : Dmatag :=
        { idQwc := dmatagIdQwc id (quadwords transfer.size - qwcPayloadFirstPkt)
            (transfer.attr &&& attrIntI ≠ 0)
          addr := physaddr (transfer.src + qwcPayloadFirstPkt * qwcSize) }
      obtain ⟨index, first⟩ := extends_storeTag layout lined (by omega) full
      have oneMore := first.pending
      rw [List.length_singleton] at oneMore
      obtain ⟨-, second⟩ := extends_storeTag layout first.lined (by omega) tag
      have eight : 8 < 65536 := by decide
      have rest : quadwords transfer.size - qwcPayloadFirstPkt < 65536 := by
        omega
      refine ⟨[full], tag, ⟨?_, id_dmatagIdQwc id rest _, ?_, two.symm⟩, ?_⟩
      · intro other member
        rw [List.mem_singleton.mp member]
        exact id_dmatagIdQwc .ref eight false
      · rw [Transfer.runs, if_neg isTag, if_neg (by omega), List.map_append,
          List.map_singleton, List.map_singleton, run_dmatagIdQwc .ref eight,
          run_dmatagIdQwc id rest, index]
        rfl
      · rw [sifDmaTransfer, if_neg isTag]
        simp only [if_pos long]
        exact (first.trans layout second).storeIopTag layout _ index
    · have one : transfer.numberOfTags = 1 := if_pos (.inr (by omega))
      have short : quadwords transfer.size + 1 < 65536 := by omega
      rw [sifDmaTransfer, if_neg isTag]
      simp only [if_neg long]
      apply oneTag_extends layout lined (by omega) transfer id short _ _ one
      rw [Transfer.runs, if_neg isTag, if_pos (by omega)]

/-- All transfers of a call, by induction on their list. -/
theorem sifDmaTransfers_extends (transfers : List Transfer)
    (nonempty : transfers ≠ []) {state : DmaState} (lined : Lined layout state)
    (room : state.pending + numberOfTags transfers ≤ 31) :
    ∃ tags, tags ≠ [] ∧ Chained tags ∧
      tags.length = numberOfTags transfers ∧
      tags.map Dmatag.run =
        transferRuns layout ((state.index + 1) % 31) transfers ∧
      Extends layout state (sifDmaTransfers layout transfers state) tags := by
  induction transfers generalizing state with
  | nil => exact (nonempty rfl).elim
  | cons transfer rest ih =>
      rw [numberOfTags] at room
      cases rest with
      | nil =>
          obtain ⟨front, last, spec, stored⟩ := sifDmaTransfer_extends layout
            lined transfer .refe (by omega)
          refine ⟨front ++ [last], ?_, ?_, ?_, ?_, stored⟩
          · exact List.append_ne_nil_of_right_ne_nil _ nofun
          · exact Chained.append spec.refs spec.lastId nofun
          · exact spec.number
          · rw [spec.runs, transferRuns, transferRuns, List.append_nil]
      | cons second others =>
          obtain ⟨front, last, spec, stored⟩ := sifDmaTransfer_extends layout
            lined transfer .ref (by omega)
          have roomLater : (sifDmaTransfer layout transfer .ref state).pending +
              numberOfTags (second :: others) ≤ 31 := by
            rw [stored.pending, spec.number]
            omega
          obtain ⟨tags, someTags, chained, number, runs, later⟩ :=
            ih nofun stored.lined roomLater
          refine ⟨front ++ [last] ++ tags, ?_, ?_, ?_, ?_,
            stored.trans layout later⟩
          · exact List.append_ne_nil_of_right_ne_nil _ someTags
          · refine Chained.append ?_ chained someTags
            intro tag member
            rcases List.mem_append.mp member with early | isLast
            · exact spec.refs tag early
            · rw [List.mem_singleton.mp isLast]
              exact spec.lastId
          · rw [List.length_append, spec.number, number, numberOfTags.eq_2 transfer]
          · rw [List.map_append, spec.runs, runs, stored.index, spec.number]
            rw [transferRuns.eq_2 _ _ transfer]
            congr 2
            omega

end KernelReloaded.SifDma
