/-
The ring of DMA tags of the SIF1 channel, and the DMAC that works through it.

`SifSetDma` runs with interrupts disabled and the channel stopped, so it is one
step.  The DMAC is modelled as far as this ring needs it: a started channel
without quadwords fetches the tag at TADR, quadwords are moved one at a time,
after a REFE tag the channel stops, and a channel that is stopped within a tag
goes on with it when it is started again.  The kernel addresses of the tags are
their physical ones here, and the transfers' sources lie outside of both tables.

`index` and `count` are `sif1_dmatag_index` and `sif1_dma_count`.  The fields
`pending`, `submitted` and `moved` are records of the run and are never read by
the code.
-/

import KernelReloaded.Core.Ring
import KernelReloaded.Core.Transition

namespace KernelReloaded.SifDma

def qwcSize : Nat := 16

def qwcPayloadFirstPkt : Nat := 7

def attrIntI : Nat := 0x02

def attrIntO : Nat := 0x04

def attrDmatag : Nat := 0x20

def attrErt : Nat := 0x40

def physaddr (address : Nat) : Nat := address % 4294967296 &&& 0x1fffffff

/-! ### State -/

/-- The physical addresses of `sif1_dmatags` and `iop_dmatags`. -/
structure Layout where
  dmatags : Nat
  iopDmatags : Nat

inductive DmatagId where
  | refe
  | next
  | ref
deriving DecidableEq

def DmatagId.code : DmatagId → Nat
  | .refe => 0
  | .next => 2
  | .ref => 3

structure Dmatag where
  idQwc : Nat
  addr : Nat

def Dmatag.qwc (tag : Dmatag) : Nat := tag.idQwc % 65536

def Dmatag.id (tag : Dmatag) : Nat := (tag.idQwc >>> 28) % 8

structure IopDmatag where
  addr : Nat
  size : Nat
  data : Nat → BitVec 128

def quadwords (size : Nat) : Nat := (size + qwcSize - 1) / qwcSize

/-- A transfer whose size fits the quadword count of a tag; `content` are the
quadwords at `src`. -/
structure Transfer where
  src : Nat
  dest : Nat
  size : Nat
  attr : Nat
  content : Nat → BitVec 128
  fits : quadwords size <
    65536 + if attr &&& attrDmatag = 0 then qwcPayloadFirstPkt else 0

structure DmaState where
  tags : Nat → Dmatag
  iopTags : Nat → IopDmatag
  index : Nat
  count : Nat
  tadr : Nat
  qwc : Nat
  madr : Nat
  /-- The ID of the tag that the DMAC works on. -/
  current : Option Nat
  started : Bool
  /-- How many tags of accepted transfers have not been fetched. -/
  pending : Nat
  /-- The accepted transfers as runs of quadwords. -/
  submitted : List (Nat × Nat)
  /-- The addresses of the quadwords that the DMAC has moved. -/
  moved : List Nat

variable (layout : Layout)

def Layout.slot (index : Nat) : Nat := layout.iopDmatags + 128 * index

/-! ### Writing tags -/

def setNextDmatag (state : DmaState) : DmaState :=
  if state.index + 1 = 31 then
    { state with index := 0, count := (state.count + 1) % 65536 }
  else
    { state with index := state.index + 1 }

def storeTag (state : DmaState) (tag : Dmatag) : DmaState :=
  { state with
    tags := Function.update state.tags state.index tag
    pending := state.pending + 1 }

def storeIopTag (state : DmaState) (index : Nat) (tag : IopDmatag) : DmaState :=
  { state with iopTags := Function.update state.iopTags index tag }

def dmatagIdQwc (id : DmatagId) (qwc : Nat) (irq : Bool) : Nat :=
  id.code <<< 28 ||| qwc ||| if irq then 1 <<< 31 else 0

def sifDmaTransfer (transfer : Transfer) (id : DmatagId) (state : DmaState) :
    DmaState :=
  let qwc := quadwords transfer.size
  let irq := transfer.attr &&& attrIntI ≠ 0
  let state := setNextDmatag state
  let slot := state.index
  let header (size : Nat) (data : Nat → BitVec 128) : IopDmatag :=
    { addr := (transfer.dest &&& 0x00ffffff) |||
        (if transfer.attr &&& attrIntO ≠ 0 then 0x40000000 else 0) |||
        (if transfer.attr &&& attrErt ≠ 0 then 0x80000000 else 0)
      size := size * 4 % 4294967296
      data := data }
  if transfer.attr &&& attrDmatag ≠ 0 then
    let state := storeTag state
      { idQwc := dmatagIdQwc id qwc irq, addr := layout.slot slot }
    -- the count has gone down by one, from 0 to the largest `u32`
    storeIopTag state slot
      (header (qwc + 4294967295) (state.iopTags slot).data)
  else
    let dataQwc := if 8 ≤ qwc then qwcPayloadFirstPkt else qwc
    let state :=
      if 8 ≤ qwc then
        let state := storeTag state
          { idQwc := dmatagIdQwc .ref 8 false, addr := layout.slot slot }
        let state := setNextDmatag state
        storeTag state
          { idQwc := dmatagIdQwc id (qwc - qwcPayloadFirstPkt) irq
            addr := physaddr
              (transfer.src + qwcPayloadFirstPkt * qwcSize) }
      else
        storeTag state
          { idQwc := dmatagIdQwc id (qwc + 1) irq, addr := layout.slot slot }
    storeIopTag state slot (header qwc fun qword =>
      if qword < dataQwc then transfer.content qword
      else (state.iopTags slot).data qword)

/-- The loop over the transfers in `SifSetDma`; the last tag stops the
channel. -/
def sifDmaTransfers : List Transfer → DmaState → DmaState
  | [], state => state
  | [transfer], state => sifDmaTransfer layout transfer .refe state
  | transfer :: rest, state =>
      sifDmaTransfers rest (sifDmaTransfer layout transfer .ref state)

/-! ### `SifSetDma` -/

/-- The index of the tag in front of the one at TADR. -/
def hwIndex (state : DmaState) : Nat :=
  let index := (state.tadr - layout.dmatags) / 16
  if 0 < index then index - 1 else 30

def sifGetNumberOfFreeDmaTags (state : DmaState) : Nat :=
  let hw := hwIndex layout state
  if hw = state.index then
    if state.qwc ≠ 0 then 30 else 31
  else if hw < state.index then
    (hw + 4294967296 - state.index + 30) % 4294967296
  else
    hw - state.index - 1

def sifDmaSetupTag (freetags : Nat) (state : DmaState) : DmaState :=
  let tag := state.tags state.index
  if freetags = 31 then
    state
  else if freetags = 30 then
    { state with
      tags := Function.update state.tags state.index
        { idQwc := (tag.idQwc &&& 0x8c000000) |||
            DmatagId.ref.code <<< 28 ||| state.qwc
          addr := state.madr }
      qwc := 0
      tadr := layout.dmatags + 16 * state.index
      pending := state.pending + 1 }
  else
    { state with
      tags := Function.update state.tags state.index
        { tag with idQwc := tag.idQwc ||| DmatagId.ref.code <<< 28 } }

def Transfer.numberOfTags (transfer : Transfer) : Nat :=
  if transfer.attr &&& attrDmatag ≠ 0 ∨
      transfer.size ≤ qwcPayloadFirstPkt * qwcSize then 1
  else 2

def numberOfTags : List Transfer → Nat
  | [] => 0
  | transfer :: rest => transfer.numberOfTags + numberOfTags rest

/-- The quadwords a transfer in a slot has to move: the slot and the part of
the source that does not fit in there. -/
def Transfer.runs (transfer : Transfer) (index : Nat) : List (Nat × Nat) :=
  let qwc := quadwords transfer.size
  if transfer.attr &&& attrDmatag ≠ 0 then
    [(layout.slot index, qwc)]
  else if qwc ≤ qwcPayloadFirstPkt then
    [(layout.slot index, qwc + 1)]
  else
    [(layout.slot index, 8),
      (physaddr (transfer.src + 112), qwc - qwcPayloadFirstPkt)]

def transferRuns : (index : Nat) → List Transfer → List (Nat × Nat)
  | _, [] => []
  | index, transfer :: rest =>
      transfer.runs layout index ++
        transferRuns ((index + transfer.numberOfTags) % 31) rest

/-- Writing the start bit; without quadwords left the next tag is fetched,
whatever the last one was. -/
def startChannel (state : DmaState) : DmaState :=
  { state with
    current := if state.qwc = 0 then none else state.current
    started := true }

/-- The call's result is the transfers' id, or 0 when there are too few free
tags. -/
def sifSetDma (transfers : List Transfer) (state : DmaState) :
    Nat × DmaState :=
  let freetags := sifGetNumberOfFreeDmaTags layout state
  let ntags := numberOfTags transfers
  if ntags ≤ freetags then
    let start := (state.index + 1) % 31
    let count := if start = 0 then state.count + 1 else state.count
    let id := (count <<< 16) % 4294967296 ||| start <<< 8 ||| (ntags &&& 0xff)
    let state := sifDmaTransfers layout transfers
      (sifDmaSetupTag layout freetags state)
    (id, startChannel { state with
      submitted := state.submitted ++ transferRuns layout start transfers })
  else
    (0, startChannel state)

/-! ### The DMAC -/

def dmacFetch (state : DmaState) : DmaState :=
  let tag := state.tags ((state.tadr - layout.dmatags) / 16)
  let isNext := tag.id = DmatagId.next.code
  { state with
    qwc := tag.qwc
    madr := tag.addr
    current := some tag.id
    tadr := if isNext then tag.addr else state.tadr + 16
    pending := if isNext then state.pending else state.pending - 1 }

/-- Whether the DMAC is going to fetch a tag. -/
def DmaState.Fetches (state : DmaState) : Prop :=
  state.started = true ∧ state.qwc = 0 ∧
    state.current ≠ some DmatagId.refe.code

instance (state : DmaState) : Decidable state.Fetches :=
  inferInstanceAs (Decidable (_ ∧ _ ∧ _))

def dmacStep (state : DmaState) : Option DmaState :=
  if state.started = false then
    none
  else if state.Fetches then
    some (dmacFetch layout state)
  else if state.qwc = 0 then
    some { state with started := false, current := none }
  else
    some { state with
      qwc := state.qwc - 1
      madr := state.madr + 16
      moved := state.moved ++ [state.madr] }

/-! ### Steps -/

inductive Event where
  | setDma (transfers : List Transfer)
  | dmac

def dmaStep (state : DmaState) : Event → Option DmaState
  | .setDma [] => none
  | .setDma transfers => some (sifSetDma layout transfers state).2
  | .dmac => dmacStep layout state

/-- The tag in front of the first one. -/
def wrapTag : Dmatag :=
  { idQwc := DmatagId.next.code <<< 28, addr := layout.dmatags }

def sifMachine : Machine DmaState Event :=
  { initial :=
      { tags := Function.update (fun _ => { idQwc := 0, addr := 0 }) 31
          (wrapTag layout)
        iopTags := fun _ => { addr := 0, size := 0, data := fun _ => 0 }
        index := 30
        count := 0xffff
        tadr := layout.dmatags
        qwc := 0
        madr := 0
        current := none
        started := false
        pending := 0
        submitted := []
        moved := [] }
    step := dmaStep layout }

end KernelReloaded.SifDma
