/-
The DMAC moves the tags of all accepted transfers, in order and nothing else.

Two slips of the source break this.  A ring with 31 unfetched tags looks like an
empty one, so the next call overwrites it; and a call that is turned down while
the ring is empty starts the channel on a stale tag.  The results here are about
the runs that stay clear of both.
-/

import KernelReloaded.Sbios.DmaTags

namespace KernelReloaded.SifDma

variable (layout : Layout)

/-! ### What is wanted -/

def DmaState.remaining (state : DmaState) : List Nat :=
  runQuadwords (state.madr, state.qwc) ++
    ((state.ring layout).toList.map Dmatag.run).flatMap runQuadwords

structure Consumed (state : DmaState) : Prop where
  inOrder : state.moved ++ state.remaining layout =
    state.submitted.flatMap runQuadwords
  complete : state.started = false → state.remaining layout = []
  /-- Besides the wrap tag only the first unfetched tag is fetched. -/
  nothingElse : state.Fetches → 0 < state.pending ∧
    (state.tags (state.position layout) = wrapTag layout ∨
      (state.ring layout).toList.head? =
        some (state.tags (state.position layout)))

/-- The tags that are pending or in progress. -/
def DmaState.Occupied (state : DmaState) (index : Nat) : Prop :=
  (∃ offset < state.pending, index = (state.position layout + offset) % 31) ∨
    state.qwc ≠ 0 ∧ index = (state.position layout + 30) % 31

/-- A call overwrites neither tags nor slots that are occupied; the last tag
before it loses its REFE, or is rebuilt when it is in progress. -/
structure Untouched (state next : DmaState) : Prop where
  slots : ∀ index, state.Occupied layout index →
    next.iopTags index = state.iopTags index
  tags : ∀ index, state.Occupied layout index → index ≠ state.index →
    next.tags index = state.tags index
  last : 0 < state.pending →
    (next.tags state.index).run = (state.tags state.index).run
  rebuilt : state.pending = 0 → state.qwc ≠ 0 →
    (next.tags state.index).run = (state.madr, state.qwc)

def Accepted (transfers : List Transfer) (state : DmaState) : Prop :=
  numberOfTags transfers ≤ sifGetNumberOfFreeDmaTags layout state

/-- The condition on a call: the ring is not full of unfetched tags, and a call
that can never fit comes while there is something to transfer. -/
def Met (state : DmaState) : Event → Prop
  | .setDma transfers =>
      (numberOfTags transfers ≤ 31 → state.pending ≠ 31) ∧
      (31 < numberOfTags transfers → state.pending ≠ 0 ∨ state.qwc ≠ 0)
  | .dmac => True

/-! ### The invariant -/

structure DmaInv (state : DmaState) : Prop where
  wrap : state.tags 31 = wrapTag layout
  lined : Lined layout state
  room : state.pending ≤ 31
  occupied : state.qwc ≠ 0 → state.pending ≤ 30
  short : state.qwc < 65536
  chained : Chained (state.ring layout).toList
  stops : state.current = some DmatagId.refe.code → state.pending = 0
  goesOn : state.started = true →
    state.current ≠ some DmatagId.refe.code → 0 < state.pending
  stopped : state.started = false → state.pending = 0 ∧ state.qwc = 0
  inOrder : state.moved ++ state.remaining layout =
    state.submitted.flatMap runQuadwords

theorem dmaInv_initial : DmaInv layout (sifMachine layout).initial := by
  have position : (sifMachine layout).initial.position layout = 0 := by
    change (layout.dmatags - layout.dmatags) / 16 = 0
    rw [Nat.sub_self]
  have wrap : (sifMachine layout).initial.tags 31 = wrapTag layout := by
    simp only [sifMachine, Function.update_self]
  refine
    { wrap := wrap
      lined := ⟨?_, ?_, ?_⟩
      room := Nat.zero_le _
      occupied := fun _ => Nat.zero_le _
      short := Nat.zero_lt_succ 65535
      chained := trivial
      stops := nofun
      goesOn := nofun
      stopped := fun _ => ⟨rfl, rfl⟩
      inOrder := rfl }
  · rw [position]
    rfl
  · rw [position]
    exact Nat.zero_le _
  · rw [position]
    rfl

theorem DmaState.remaining_of_qwc_eq_zero {state : DmaState}
    (done : state.qwc = 0) : state.remaining layout =
      ((state.ring layout).toList.map Dmatag.run).flatMap runQuadwords := by
  rw [DmaState.remaining, done]
  rfl

theorem position_of_tadr {state : DmaState} {position : Nat}
    (tadr : state.tadr = layout.dmatags + 16 * position) :
    state.position layout = position := by
  rw [DmaState.position, tadr]
  omega

theorem ring_congr {state next : DmaState} (tags : next.tags = state.tags)
    (first : next.position layout % 31 = state.position layout % 31)
    (pending : next.pending = state.pending) :
    next.ring layout = state.ring layout := by
  simp only [DmaState.ring, tags, first, pending]

theorem ring_dropFirst {state next : DmaState} (tags : next.tags = state.tags)
    (first : next.position layout = state.position layout + 1)
    (pending : next.pending = state.pending - 1) :
    next.ring layout = (state.ring layout).dropFirst := by
  simp only [DmaState.ring, Ring.dropFirst, tags, first, pending,
    Nat.mod_add_mod]

/-- The tag at TADR is the wrap tag or the first unfetched one. -/
theorem DmaInv.first {state : DmaState} (inv : DmaInv layout state)
    (pending : 0 < state.pending) :
    state.position layout = 31 ∧
        state.tags (state.position layout) = wrapTag layout ∨
      state.position layout < 31 ∧ (state.ring layout).toList =
        state.tags (state.position layout) ::
          (state.ring layout).dropFirst.toList := by
  rcases Nat.lt_or_eq_of_le inv.lined.inside with before | atWrap
  · refine .inr ⟨before, ?_⟩
    have shape := (state.ring layout).toList_of_count_pos pending
    have slot : (state.ring layout).slots (state.ring layout).first =
        state.tags (state.position layout) := by
      change state.tags (state.position layout % 31) = _
      rw [Nat.mod_eq_of_lt before]
    rwa [slot] at shape
  · refine .inl ⟨atWrap, ?_⟩
    rw [atWrap]
    exact inv.wrap

/-! ### Steps of the DMAC -/

theorem dmacFetch_of_wrap {state : DmaState}
    (wrap : state.tags (state.position layout) = wrapTag layout) :
    dmacFetch layout state =
      { state with
        qwc := 0, madr := layout.dmatags
        current := some DmatagId.next.code, tadr := layout.dmatags } := by
  have tag : state.tags ((state.tadr - layout.dmatags) / 16) =
    wrapTag layout := wrap
  have id : (wrapTag layout).id = DmatagId.next.code := by
    change (DmatagId.next.code <<< 28 >>> 28) % 8 = _
    decide
  have qwc : (wrapTag layout).qwc = 0 := by
    change DmatagId.next.code <<< 28 % 65536 = _
    decide
  rw [dmacFetch, tag]
  simp only [id, qwc, if_true]
  rfl

theorem dmacFetch_of_ne_next {state : DmaState} {tag : Dmatag}
    (atTadr : state.tags (state.position layout) = tag)
    (notNext : tag.id ≠ DmatagId.next.code) :
    dmacFetch layout state =
      { state with
        qwc := tag.qwc, madr := tag.addr, current := some tag.id
        tadr := state.tadr + 16, pending := state.pending - 1 } := by
  have same : state.tags ((state.tadr - layout.dmatags) / 16) = tag := atTadr
  rw [dmacFetch, same]
  simp only [notNext, if_false]

/-- The wrap tag leads back to the first one. -/
theorem dmacFetch_wrap_inv {state : DmaState} (inv : DmaInv layout state)
    (fetches : state.Fetches) (atWrap : state.position layout = 31)
    (wrap : state.tags (state.position layout) = wrapTag layout) :
    DmaInv layout (dmacFetch layout state) := by
  obtain ⟨started, done, goesOn⟩ := fetches
  have pending := inv.goesOn started goesOn
  have inOrder := inv.inOrder
  rw [DmaState.remaining_of_qwc_eq_zero layout done] at inOrder
  have fetched := dmacFetch_of_wrap layout wrap
  have position : (dmacFetch layout state).position layout = 0 := by
    rw [fetched]
    exact position_of_tadr layout (Nat.add_zero _).symm
  have ring : (dmacFetch layout state).ring layout = state.ring layout := by
    refine ring_congr layout rfl ?_ ?_
    · rw [position, atWrap]
    · rw [fetched]
  have lined := inv.lined.index
  rw [atWrap] at lined
  refine
    { wrap := ?_
      lined := ⟨?_, ?_, ?_⟩
      room := ?_
      occupied := ?_
      short := ?_
      chained := ring ▸ inv.chained
      stops := ?_
      goesOn := ?_
      stopped := ?_
      inOrder := ?_ }
  · rw [fetched]
    exact inv.wrap
  · rw [position, fetched]
    rfl
  · rw [position]
    exact Nat.zero_le _
  · rw [position, fetched]
    dsimp only
    omega
  · rw [fetched]
    exact inv.room
  · rw [fetched]
    exact fun some => (some rfl).elim
  · rw [fetched]
    exact Nat.zero_lt_succ _
  · rw [fetched]
    exact nofun
  · rw [fetched]
    exact fun _ _ => pending
  · rw [fetched]
    exact fun stopped => by rw [started] at stopped; cases stopped
  · rw [DmaState.remaining, ring, fetched]
    exact inOrder

/-- The first unfetched tag becomes the current one. -/
theorem dmacFetch_first_inv {state : DmaState} (inv : DmaInv layout state)
    (fetches : state.Fetches) (before : state.position layout < 31)
    (shape : (state.ring layout).toList =
      state.tags (state.position layout) ::
        (state.ring layout).dropFirst.toList) :
    DmaInv layout (dmacFetch layout state) := by
  obtain ⟨started, done, goesOn⟩ := fetches
  have pending := inv.goesOn started goesOn
  have inOrder := inv.inOrder
  rw [DmaState.remaining_of_qwc_eq_zero layout done] at inOrder
  have chained := inv.chained
  rw [shape] at chained
  obtain ⟨later, ids⟩ := chained.tail
  generalize tag_eq : state.tags (state.position layout) = tag at shape ids
  have notNext : tag.id ≠ DmatagId.next.code := tag_eq ▸ chained.head_ne_next
  have fetched := dmacFetch_of_ne_next layout tag_eq notNext
  have tadr : (dmacFetch layout state).tadr =
      layout.dmatags + 16 * (state.position layout + 1) := by
    rw [fetched]
    dsimp only
    rw [inv.lined.aligned]
    omega
  have position := position_of_tadr layout tadr
  have ring : (dmacFetch layout state).ring layout =
      (state.ring layout).dropFirst := by
    refine ring_dropFirst layout rfl position ?_
    rw [fetched]
  have count : (state.ring layout).dropFirst.toList.length =
      state.pending - 1 := Ring.length_toList _
  refine
    { wrap := ?_
      lined := ⟨?_, ?_, ?_⟩
      room := ?_
      occupied := ?_
      short := ?_
      chained := ring ▸ later
      stops := ?_
      goesOn := ?_
      stopped := ?_
      inOrder := ?_ }
  · rw [fetched]
    exact inv.wrap
  · rw [tadr, position]
  · rw [position]
    exact before
  · have index := inv.lined.index
    rw [position, fetched]
    dsimp only
    omega
  · have room := inv.room
    rw [fetched]
    dsimp only
    omega
  · have room := inv.room
    rw [fetched]
    dsimp only
    omega
  · rw [fetched]
    exact Nat.mod_lt _ (by decide)
  · rw [fetched]
    intro stops
    rcases ids with ⟨isRef, -⟩ | ⟨-, none⟩
    · rw [isRef] at stops
      cases stops
    · rw [none] at count
      exact count.symm
  · rw [fetched]
    intro _ current
    rcases ids with ⟨-, some⟩ | ⟨isRefe, -⟩
    · have length := List.length_pos_iff.mpr some
      rw [count] at length
      exact length
    · exact (current (congrArg Option.some isRefe)).elim
  · rw [fetched]
    intro stopped
    dsimp only at stopped
    rw [started] at stopped
    cases stopped
  · rw [DmaState.remaining, ring, fetched]
    rw [shape, List.map_cons, List.flatMap_cons] at inOrder
    exact inOrder

theorem dmacFetch_inv {state : DmaState} (inv : DmaInv layout state)
    (fetches : state.Fetches) : DmaInv layout (dmacFetch layout state) := by
  have pending := inv.goesOn fetches.1 fetches.2.2
  rcases inv.first layout pending with ⟨atWrap, wrap⟩ | ⟨before, shape⟩
  · exact dmacFetch_wrap_inv layout inv fetches atWrap wrap
  · exact dmacFetch_first_inv layout inv fetches before shape

theorem runQuadwords_succ (addr qwc : Nat) :
    runQuadwords (addr, qwc + 1) = addr :: runQuadwords (addr + 16, qwc) := by
  rw [runQuadwords, runQuadwords, List.range_succ_eq_map, List.map_cons,
    List.map_map]
  congr 1
  apply List.map_congr_left
  intro qword _
  dsimp only [Function.comp]
  omega

theorem dmacStep_inv {state next : DmaState} (inv : DmaInv layout state)
    (stepped : dmacStep layout state = some next) : DmaInv layout next := by
  rw [dmacStep] at stepped
  split at stepped <;> rename_i notStarted
  · cases stepped
  have started : state.started = true := by
    simpa using notStarted
  split at stepped <;> rename_i fetches
  · obtain rfl := Option.some.inj stepped
    exact dmacFetch_inv layout inv fetches
  split at stepped <;> rename_i done
  · -- the last tag was REFE
    obtain rfl := Option.some.inj stepped
    have stops : state.current = some DmatagId.refe.code := by
      by_contra other
      exact fetches ⟨started, done, other⟩
    have none := inv.stops stops
    exact
      { inv with
        lined := ⟨inv.lined.aligned, inv.lined.inside, inv.lined.index⟩
        stops := nofun
        goesOn := nofun
        stopped := fun _ => ⟨none, done⟩ }
  · obtain rfl := Option.some.inj stepped
    obtain ⟨rest, counted⟩ := Nat.exists_eq_succ_of_ne_zero done
    have inOrder := inv.inOrder
    rw [DmaState.remaining, counted, runQuadwords_succ] at inOrder
    refine
      { inv with
        lined := ⟨inv.lined.aligned, inv.lined.inside, inv.lined.index⟩
        occupied := fun _ => inv.occupied done
        short := Nat.lt_of_le_of_lt (Nat.sub_le _ _) inv.short
        stopped := fun stopped => by rw [started] at stopped; cases stopped
        inOrder := ?_ }
    rw [DmaState.remaining]
    dsimp only
    rw [counted, Nat.succ_sub_one, List.append_assoc]
    exact inOrder

/-! ### Steps of the software -/

theorem hwIndex_eq {state : DmaState} (lined : Lined layout state) :
    hwIndex layout state = (state.position layout + 30) % 31 := by
  have inside := lined.inside
  rw [hwIndex]
  change (if 0 < state.position layout then state.position layout - 1
    else 30) = _
  split <;> omega

theorem freeTags_eq {state : DmaState} (lined : Lined layout state)
    (notFull : state.pending < 31) :
    sifGetNumberOfFreeDmaTags layout state =
      if state.pending = 0 then if state.qwc ≠ 0 then 30 else 31
      else 30 - state.pending := by
  have index := lined.index
  rw [sifGetNumberOfFreeDmaTags, hwIndex_eq layout lined]
  generalize (if state.qwc ≠ 0 then 30 else 31) = free
  by_cases none : state.pending = 0
  · rw [if_pos none, if_pos (by omega)]
  · rw [if_neg none, if_neg (by omega)]
    split <;> omega

/-- A full ring looks like an empty one. -/
theorem freeTags_of_full {state : DmaState} (inv : DmaInv layout state)
    (full : state.pending = 31) :
    sifGetNumberOfFreeDmaTags layout state = 31 := by
  have done : ¬ state.qwc ≠ 0 := fun some => by
    have room := inv.occupied some
    omega
  have same : hwIndex layout state = state.index := by
    rw [hwIndex_eq layout inv.lined, inv.lined.index, full]
    omega
  rw [sifGetNumberOfFreeDmaTags, same, if_pos rfl, if_neg done]

/-- The ring is set up for a number of further tags. -/
structure Ready (ntags : Nat) (state : DmaState) : Prop where
  wrap : state.tags 31 = wrapTag layout
  lined : Lined layout state
  room : state.pending + ntags ≤ 31
  occupied : state.qwc ≠ 0 → state.pending + ntags ≤ 30 ∧
    state.current ≠ some DmatagId.refe.code
  short : state.qwc < 65536
  refs : ∀ tag ∈ (state.ring layout).toList, tag.id = DmatagId.ref.code
  inOrder : state.moved ++ state.remaining layout =
    state.submitted.flatMap runQuadwords

theorem ready_of_empty {state : DmaState} (inv : DmaInv layout state)
    (none : state.pending = 0) (done : state.qwc = 0) {ntags : Nat}
    (fits : ntags ≤ 31) : Ready layout ntags state := by
  refine ⟨inv.wrap, inv.lined, by omega, fun some => (some done).elim,
    inv.short, ?_, inv.inOrder⟩
  rw [(state.ring layout).toList_eq_nil_iff.mpr none]
  exact nofun

/-- The tag in progress is rebuilt and fetched again. -/
theorem ready_of_rebuilt {state : DmaState} (inv : DmaInv layout state)
    (none : state.pending = 0) {ntags : Nat} (fits : ntags ≤ 30) :
    Ready layout ntags (sifDmaSetupTag layout 30 state) := by
  have below : state.index < 31 := by
    rw [inv.lined.index]
    exact Nat.mod_lt _ (by decide)
  obtain ⟨qwc, id⟩ := rebuilt_fields (state.tags state.index).idQwc inv.short
  let rebuilt : Dmatag :=
    { idQwc := ((state.tags state.index).idQwc &&& 0x8c000000) |||
        DmatagId.ref.code <<< 28 ||| state.qwc
      addr := state.madr }
  have setup : sifDmaSetupTag layout 30 state =
      { state with
        tags := Function.update state.tags state.index rebuilt
        qwc := 0
        tadr := layout.dmatags + 16 * state.index
        pending := state.pending + 1 } := rfl
  have position : (sifDmaSetupTag layout 30 state).position layout =
      state.index := position_of_tadr layout rfl
  have list : ((sifDmaSetupTag layout 30 state).ring layout).toList =
      [rebuilt] := by
    rw [Ring.toList_of_count_pos _ (Nat.succ_pos _)]
    have rest : ((sifDmaSetupTag layout 30 state).ring layout).dropFirst.count =
        0 := none
    rw [(Ring.toList_eq_nil_iff _).mpr rest]
    change [Function.update state.tags state.index rebuilt
      ((sifDmaSetupTag layout 30 state).position layout % 31)] = _
    rw [position, Nat.mod_eq_of_lt below, Function.update_self]
  refine ⟨?_, ⟨?_, ?_, ?_⟩, ?_, ?_, ?_, ?_, ?_⟩
  · rw [← inv.wrap]
    exact Function.update_of_ne (by omega) _ _
  · rw [position]
    rfl
  · rw [position]
    omega
  · rw [position]
    change state.index = (state.index + (state.pending + 1) + 30) % 31
    omega
  · change state.pending + 1 + ntags ≤ 31
    omega
  · exact fun some => (some rfl).elim
  · exact Nat.zero_lt_succ 65535
  · intro tag member
    rw [list, List.mem_singleton] at member
    rw [member]
    exact id
  · have inOrder := inv.inOrder
    have run : rebuilt.run = (state.madr, state.qwc) := by
      rw [Dmatag.run, Dmatag.qwc, qwc]
    rw [DmaState.remaining, (Ring.toList_eq_nil_iff _).mpr none] at inOrder
    rw [DmaState.remaining_of_qwc_eq_zero layout rfl, list, List.map_singleton,
      run]
    rw [List.map_nil, List.flatMap_nil, List.append_nil] at inOrder
    rw [List.flatMap_singleton]
    exact inOrder

theorem ready_of_appended {state : DmaState} (inv : DmaInv layout state)
    (some : 0 < state.pending) {freetags ntags : Nat}
    (free : freetags = 30 - state.pending)
    (notFull : state.pending < 31) (fits : ntags ≤ freetags) :
    Ready layout ntags (sifDmaSetupTag layout freetags state) := by
  have index := inv.lined.index
  let appended : Dmatag :=
    { state.tags state.index with
      idQwc := (state.tags state.index).idQwc |||
        DmatagId.ref.code <<< 28 }
  have setup : sifDmaSetupTag layout freetags state =
      { state with
        tags := Function.update state.tags state.index appended } := by
    rw [sifDmaSetupTag, if_neg (by omega), if_neg (by omega)]
  have slot : state.index =
      (state.position layout % 31 + (state.pending - 1)) % 31 := by
    omega
  have before := (state.ring layout).toList_dropLast some
  have last : (state.ring layout).slots (((state.ring layout).first +
      ((state.ring layout).count - 1)) % 31) = state.tags state.index := by
    rw [slot]
    rfl
  rw [last] at before
  have after : ((sifDmaSetupTag layout freetags state).ring layout).toList =
      (state.ring layout).dropLast.toList ++ [appended] := by
    rw [← Ring.toList_storeLast _ (by
      change state.pending - 1 < 31
      omega)]
    congr 1
    rw [setup]
    simp only [DmaState.ring, Ring.storeLast, Ring.dropLast, ← slot]
    rw [Nat.sub_add_cancel some]
    rfl
  have chained := inv.chained
  rw [before] at chained
  obtain ⟨refs, lastId⟩ := chained.refs
  have sameRun : appended.run = (state.tags state.index).run := by
    rw [Dmatag.run, Dmatag.run, Dmatag.qwc, Dmatag.qwc, qwc_or_ref]
  have stops : state.current ≠ Option.some DmatagId.refe.code := by
    intro refe
    have none := inv.stops refe
    omega
  have remaining : (sifDmaSetupTag layout freetags state).remaining layout =
      state.remaining layout := by
    rw [DmaState.remaining, after, List.map_append, List.map_singleton, sameRun,
      DmaState.remaining, before, List.map_append, List.map_singleton, setup]
  rw [setup] at after remaining ⊢
  refine ⟨?_, ⟨inv.lined.aligned, inv.lined.inside, inv.lined.index⟩, ?_, ?_,
    inv.short, ?_, ?_⟩
  · rw [← inv.wrap]
    exact Function.update_of_ne (by omega) _ _
  · change state.pending + ntags ≤ 31
    omega
  · intro _
    refine ⟨?_, stops⟩
    change state.pending + ntags ≤ 30
    omega
  · intro tag member
    rw [after] at member
    rcases List.mem_append.mp member with early | isLast
    · exact refs tag early
    · rw [List.mem_singleton.mp isLast]
      exact id_or_ref lastId
  · rw [remaining]
    exact inv.inOrder

theorem setup_ready {state : DmaState} (inv : DmaInv layout state)
    (notFull : state.pending < 31) {ntags : Nat}
    (accepted : ntags ≤ sifGetNumberOfFreeDmaTags layout state) :
    Ready layout ntags (sifDmaSetupTag layout
      (sifGetNumberOfFreeDmaTags layout state) state) := by
  have free := freeTags_eq layout inv.lined notFull
  by_cases none : state.pending = 0
  · rw [if_pos none] at free
    by_cases done : state.qwc = 0
    · rw [if_neg (not_not.mpr done)] at free
      rw [free] at accepted ⊢
      exact ready_of_empty layout inv none done accepted
    · rw [if_pos done] at free
      rw [free] at accepted ⊢
      exact ready_of_rebuilt layout inv none accepted
  · rw [if_neg none] at free
    exact ready_of_appended layout inv (Nat.pos_of_ne_zero none) free notFull
      accepted

theorem Ready.inv {state : DmaState} {transfers : List Transfer}
    (ready : Ready layout (numberOfTags transfers) state)
    (nonempty : transfers ≠ []) :
    DmaInv layout (startChannel
      { sifDmaTransfers layout transfers state with
        submitted := (sifDmaTransfers layout transfers state).submitted ++
          transferRuns layout ((state.index + 1) % 31) transfers }) := by
  obtain ⟨tags, someTags, chained, number, runs, stored⟩ :=
    sifDmaTransfers_extends layout transfers nonempty ready.lined ready.room
  generalize sifDmaTransfers layout transfers state = next at stored
  have pending := stored.pending
  have length := List.length_pos_iff.mpr someTags
  rw [number] at pending length
  refine
    { wrap := stored.wrap.trans ready.wrap
      lined := ⟨stored.lined.aligned, stored.lined.inside, stored.lined.index⟩
      room := ?_
      occupied := ?_
      short := ?_
      chained := ?_
      stops := ?_
      goesOn := ?_
      stopped := nofun
      inOrder := ?_ }
  · change next.pending ≤ 31
    rw [pending]
    exact ready.room
  · intro some
    change next.qwc ≠ 0 at some
    rw [stored.qwc] at some
    change next.pending ≤ 30
    rw [pending]
    exact (ready.occupied some).1
  · change next.qwc < 65536
    rw [stored.qwc]
    exact ready.short
  · change Chained (next.ring layout).toList
    rw [stored.list]
    exact Chained.append ready.refs chained someTags
  · change (if next.qwc = 0 then none else next.current) = _ → _
    intro refe
    split at refe <;> rename_i done
    · cases refe
    · rw [stored.qwc] at done
      rw [stored.current] at refe
      exact ((ready.occupied done).2 refe).elim
  · intro _ _
    change 0 < next.pending
    omega
  · have inOrder := ready.inOrder
    rw [DmaState.remaining] at inOrder
    change next.moved ++ (runQuadwords (next.madr, next.qwc) ++
      ((next.ring layout).toList.map Dmatag.run).flatMap runQuadwords) =
        (next.submitted ++ _).flatMap runQuadwords
    rw [stored.list, stored.moved, stored.madr, stored.qwc, stored.submitted,
      List.map_append, runs, List.flatMap_append, List.flatMap_append, ← inOrder,
      List.append_assoc, List.append_assoc]

theorem sifDmaSetupTag_index (freetags : Nat) (state : DmaState) :
    (sifDmaSetupTag layout freetags state).index = state.index ∧
      (sifDmaSetupTag layout freetags state).iopTags = state.iopTags := by
  rw [sifDmaSetupTag]
  split
  · exact ⟨rfl, rfl⟩
  · split <;> exact ⟨rfl, rfl⟩

theorem Met.notFull {state : DmaState} (inv : DmaInv layout state)
    {transfers : List Transfer} (met : Met state (.setDma transfers))
    (accepted : Accepted layout transfers state) : state.pending < 31 := by
  by_contra atLeast
  have full : state.pending = 31 := by
    have room := inv.room
    omega
  rw [Accepted, freeTags_of_full layout inv full] at accepted
  exact met.1 accepted full

theorem sifSetDma_inv {state : DmaState} (inv : DmaInv layout state)
    {transfers : List Transfer} (nonempty : transfers ≠ [])
    (met : Met state (.setDma transfers)) :
    DmaInv layout (sifSetDma layout transfers state).2 := by
  rw [sifSetDma]
  dsimp only
  split <;> rename_i accepted
  · have notFull := Met.notFull layout inv met accepted
    have ready := setup_ready layout inv notFull accepted
    have later := ready.inv layout nonempty
    rw [(sifDmaSetupTag_index layout _ state).1] at later
    exact later
  · -- a call that is turned down only starts the channel again
    have notEmpty : state.pending ≠ 0 ∨ state.qwc ≠ 0 := by
      by_contra empty
      rw [not_or, not_not, not_not] at empty
      have notFull : state.pending < 31 := by omega
      have free := freeTags_eq layout inv.lined notFull
      rw [if_pos empty.1, if_neg (not_not.mpr empty.2)] at free
      rw [free] at accepted
      rcases met.2 (by omega) with some | some
      · exact some empty.1
      · exact some empty.2
    refine
      { inv with
        lined := ⟨inv.lined.aligned, inv.lined.inside, inv.lined.index⟩
        stops := ?_
        goesOn := ?_
        stopped := nofun }
    · change (if state.qwc = 0 then none else state.current) = _ → _
      intro refe
      split at refe
      · cases refe
      · exact inv.stops refe
    · intro _ current
      change (if state.qwc = 0 then none else state.current) ≠ _ at current
      change 0 < state.pending
      split at current <;> rename_i done
      · rcases notEmpty with some | some
        · exact Nat.pos_of_ne_zero some
        · exact (some done).elim
      · refine inv.goesOn ?_ current
        by_contra notStarted
        rw [Bool.not_eq_true] at notStarted
        exact done (inv.stopped notStarted).2

theorem dmaStep_inv {state next : DmaState} {event : Event}
    (inv : DmaInv layout state) (met : Met state event)
    (stepped : dmaStep layout state event = some next) :
    DmaInv layout next := by
  cases event with
  | dmac => exact dmacStep_inv layout inv stepped
  | setDma transfers =>
      cases transfers with
      | nil => cases stepped
      | cons transfer rest =>
          obtain rfl := Option.some.inj stepped
          exact sifSetDma_inv layout inv nofun met

/-! ### What a call leaves alone -/

/-- The tags that are pending and the one in progress. -/
def DmaState.occupiedTags (state : DmaState) : Nat :=
  state.pending + if state.qwc ≠ 0 then 1 else 0

theorem accepted_fits {state : DmaState} (inv : DmaInv layout state)
    (notFull : state.pending < 31) {transfers : List Transfer}
    (accepted : Accepted layout transfers state) :
    numberOfTags transfers + state.occupiedTags ≤ 31 := by
  rw [Accepted, freeTags_eq layout inv.lined notFull] at accepted
  rw [DmaState.occupiedTags]
  by_cases done : state.qwc = 0
  · rw [if_neg (not_not.mpr done)] at accepted ⊢
    split at accepted <;> omega
  · rw [if_pos done] at accepted ⊢
    split at accepted <;> omega

theorem DmaState.Occupied.apart {state : DmaState} (lined : Lined layout state)
    {index ntags : Nat} (occupied : state.Occupied layout index)
    (fits : ntags + state.occupiedTags ≤ 31) {offset : Nat}
    (new : offset < ntags) : index ≠ (state.index + 1 + offset) % 31 := by
  have position := lined.index
  rw [DmaState.occupiedTags] at fits
  rcases occupied with ⟨pending, inside, rfl⟩ | ⟨some, rfl⟩
  · omega
  · rw [if_pos some] at fits
    omega

theorem sifDmaSetupTag_tags (freetags : Nat) (state : DmaState) {index : Nat}
    (different : index ≠ state.index) :
    (sifDmaSetupTag layout freetags state).tags index = state.tags index := by
  rw [sifDmaSetupTag]
  split
  · rfl
  · split <;> exact Function.update_of_ne different _ _

theorem sifDmaSetupTag_run {freetags : Nat} (free : freetags < 30)
    (state : DmaState) :
    ((sifDmaSetupTag layout freetags state).tags state.index).run =
      (state.tags state.index).run := by
  rw [sifDmaSetupTag, if_neg (by omega), if_neg (by omega)]
  dsimp only
  rw [Function.update_self, Dmatag.run, Dmatag.run, Dmatag.qwc, Dmatag.qwc,
    qwc_or_ref]

theorem sifDmaSetupTag_rebuilt {state : DmaState} (short : state.qwc < 65536) :
    ((sifDmaSetupTag layout 30 state).tags state.index).run =
      (state.madr, state.qwc) := by
  rw [sifDmaSetupTag, if_neg (by decide), if_pos rfl]
  dsimp only
  rw [Function.update_self, Dmatag.run, Dmatag.qwc,
    (rebuilt_fields _ short).1]

theorem accepted_untouched {state : DmaState} (inv : DmaInv layout state)
    (notFull : state.pending < 31) {transfers : List Transfer}
    (nonempty : transfers ≠ []) (accepted : Accepted layout transfers state) :
    Untouched layout state (sifSetDma layout transfers state).2 := by
  have fits := accepted_fits layout inv notFull accepted
  have free := freeTags_eq layout inv.lined notFull
  have ready := setup_ready layout inv notFull accepted
  obtain ⟨index, iopTags⟩ := sifDmaSetupTag_index layout
    (sifGetNumberOfFreeDmaTags layout state) state
  obtain ⟨tags, -, -, number, -, stored⟩ := sifDmaTransfers_extends layout
    transfers nonempty ready.lined ready.room
  have behind : ∀ other, state.Occupied layout other →
      (sifSetDma layout transfers state).2.tags other =
        (sifDmaSetupTag layout (sifGetNumberOfFreeDmaTags layout state)
          state).tags other ∧
      (sifSetDma layout transfers state).2.iopTags other =
        state.iopTags other := by
    intro other occupied
    obtain ⟨sameTag, sameSlot⟩ := stored.untouched other (by
      intro offset new
      rw [number] at new
      rw [index]
      exact occupied.apart layout inv.lined fits new)
    rw [iopTags] at sameSlot
    rw [Accepted] at accepted
    rw [sifSetDma]
    dsimp only
    rw [if_pos accepted]
    exact ⟨sameTag, sameSlot⟩
  refine ⟨fun other occupied => (behind other occupied).2, ?_, ?_, ?_⟩
  · intro other occupied different
    exact (behind other occupied).1.trans
      (sifDmaSetupTag_tags layout _ state different)
  · intro some
    have occupied : state.Occupied layout state.index := by
      have lined := inv.lined.index
      exact .inl ⟨state.pending - 1, by omega, by omega⟩
    rw [if_neg (by omega)] at free
    rw [(behind _ occupied).1, sifDmaSetupTag_run layout (by omega)]
  · intro none working
    have occupied : state.Occupied layout state.index := by
      have lined := inv.lined.index
      exact .inr ⟨working, by omega⟩
    rw [if_pos none, if_pos working] at free
    rw [(behind _ occupied).1, free, sifDmaSetupTag_rebuilt layout inv.short]

/-! ### Runs -/

theorem DmaInv.consumed {state : DmaState} (inv : DmaInv layout state) :
    Consumed layout state := by
  refine ⟨inv.inOrder, ?_, ?_⟩
  · intro stopped
    obtain ⟨none, done⟩ := inv.stopped stopped
    rw [DmaState.remaining_of_qwc_eq_zero layout done,
      (state.ring layout).toList_eq_nil_iff.mpr none]
    rfl
  · rintro ⟨started, -, current⟩
    have pending := inv.goesOn started current
    refine ⟨pending, ?_⟩
    rcases inv.first layout pending with ⟨-, wrap⟩ | ⟨-, shape⟩
    · exact .inl wrap
    · rw [shape]
      exact .inr rfl

def CallSafe (transfers : List Transfer) (state : DmaState) : Prop :=
  Accepted layout transfers state →
    numberOfTags transfers + state.occupiedTags ≤ 31 ∧
      Untouched layout state (sifSetDma layout transfers state).2

theorem sifDma_consumed {state : DmaState}
    (reached : (sifMachine layout).Reach Met state) :
    Consumed layout state ∧ ∀ transfers, transfers ≠ [] →
      Met state (.setDma transfers) → CallSafe layout transfers state := by
  have inv : DmaInv layout state := reached.invariant (dmaInv_initial layout)
    fun _ _ _ inv met stepped => dmaStep_inv layout inv met stepped
  refine ⟨inv.consumed layout, ?_⟩
  intro transfers nonempty met accepted
  have notFull := Met.notFull layout inv met accepted
  exact ⟨accepted_fits layout inv notFull accepted,
    accepted_untouched layout inv notFull nonempty accepted⟩

def oneQuadword : Transfer :=
  { src := 0x10000, dest := 0x2000, size := 16, attr := 0
    content := fun _ => 7, fits := by decide }

instance (state : DmaState) (event : Event) : Decidable (Met state event) :=
  match event with
  | .setDma _ => inferInstanceAs (Decidable (_ ∧ _))
  | .dmac => inferInstanceAs (Decidable True)

/-- A second call comes within the tag of the first one. -/
theorem sifDma_consumed_interrupted :
    let layout : Layout := { dmatags := 0x1000, iopDmatags := 0x8000 }
    ∃ state, (sifMachine layout).Reach Met state ∧
      state.moved = [0x8000, 0x8010, 0x8080, 0x8090] ∧
      state.started = false ∧ Consumed layout state := by
  intro layout
  let events : List Event :=
    [.setDma [oneQuadword], .dmac, .dmac, .setDma [oneQuadword], .dmac, .dmac,
      .dmac, .dmac, .dmac, .dmac]
  have results : ((sifMachine layout).follow Met events
      (sifMachine layout).initial).map
        (fun state => (state.moved, state.started)) =
      some ([0x8000, 0x8010, 0x8080, 0x8090], false) := by
    decide +kernel
  obtain ⟨state, followed, result⟩ := Option.map_eq_some_iff.mp results
  have reached := Machine.Reach.initial.follow events followed
  obtain ⟨moved, stopped⟩ := Prod.mk.inj result
  exact ⟨state, reached, moved, stopped, (sifDma_consumed layout reached).1⟩

/-- A ring full of unfetched tags accepts a call. -/
theorem sifDma_not_consumed : ¬ ∀ layout state,
    (sifMachine layout).Reach (fun _ _ => True) state →
      Consumed layout state ∧ ∀ transfers, transfers ≠ [] →
        CallSafe layout transfers state := by
  intro always
  let layout : Layout := { dmatags := 0x1000, iopDmatags := 0x8000 }
  let events : List Event := [.setDma (List.replicate 31 oneQuadword)]
  have results : ((sifMachine layout).follow (fun _ _ => True) events
      (sifMachine layout).initial).map (fun state =>
        (sifGetNumberOfFreeDmaTags layout state, state.occupiedTags)) =
      some (31, 31) := by
    decide +kernel
  obtain ⟨state, followed, result⟩ := Option.map_eq_some_iff.mp results
  obtain ⟨free, occupied⟩ := Prod.mk.inj result
  have reached := Machine.Reach.initial.follow events followed
  have one : numberOfTags [oneQuadword] = 1 := by decide
  have accepted : Accepted layout [oneQuadword] state := by
    rw [Accepted, free, one]
    decide
  have fits := ((always layout state reached).2 [oneQuadword] nofun accepted).1
  rw [occupied, one] at fits
  omega

end KernelReloaded.SifDma
