/-
The interrupt masks of the small kernel, for the INTC and the DMA controller.

The hardware keeps a mask for each controller.  Writing a one to a mask bit
switches that bit over, writing a one to a status bit clears it, and a zero has
no effect.  `D_STAT` has the status in the lower and the mask in the upper half.
The kernel keeps a copy of both masks.  A handler is a number here and does
nothing to the masks; the interrupt routines may be entered at any time.

The fields `intcRequested` and `dmacRequested` are records of the run and are
never read by the code: whether the last request for a source was an enable.
-/

import KernelReloaded.Core.Transition
import Mathlib.Data.List.Basic
import Mathlib.Logic.Function.Basic

namespace KernelReloaded.Interrupts

def intcNumberOfHandlers : Nat := 11

def dmacNumberOfHandlers : Nat := 16

def dmacCim0 : Nat := 16

def dmacCis0 : Nat := 0

def dmacCis9 : Nat := 9

/-- `1 << nr` as the operand of a 64 bit operation: the shift is that of a
signed 32 bit number. -/
def shiftOne (nr : Nat) : BitVec 64 :=
  ((1 : BitVec 32) <<< (nr % 32)).signExtend 64

/-! ### State -/

structure InterruptState where
  intcMask : BitVec 64
  intcStat : BitVec 64
  dStat : BitVec 64
  savedIntcMask : BitVec 64
  savedDmacMask : BitVec 64
  intcHandler : Nat → Option Nat
  dmacHandler : Nat → Option Nat
  dmacUsegHandler : Nat → Option Nat
  intcRequested : Nat → Bool
  dmacRequested : Nat → Bool

namespace InterruptState

def writeIntcMask (state : InterruptState) (value : BitVec 64) : InterruptState :=
  { state with intcMask := state.intcMask ^^^ value }

def writeIntcStat (state : InterruptState) (value : BitVec 64) : InterruptState :=
  { state with intcStat := state.intcStat &&& ~~~ value }

def writeDStat (state : InterruptState) (value : BitVec 64) : InterruptState :=
  { state with
    dStat := ((state.dStat &&& ~~~ value) &&& 0xFFFF) |||
      ((state.dStat ^^^ value) &&& 0xFFFF0000) }

/-- The mask half of `D_STAT`. -/
def dmacMask (state : InterruptState) : BitVec 64 :=
  state.dStat &&& 0xFFFF0000

end InterruptState

/-! ### Requests -/

def intcEnableIrq (irqNr : Nat) (state : InterruptState) : InterruptState :=
  if state.savedIntcMask &&& shiftOne irqNr = 0 then
    { state with savedIntcMask := state.savedIntcMask ||| shiftOne irqNr }
      |>.writeIntcMask (state.intcMask ||| shiftOne irqNr)
  else
    state

def intcDisableIrq (irqNr : Nat) (state : InterruptState) : InterruptState :=
  if state.savedIntcMask &&& shiftOne irqNr ≠ 0 then
    { state with savedIntcMask := state.savedIntcMask &&& ~~~ shiftOne irqNr }
      |>.writeIntcMask (state.intcMask ||| shiftOne irqNr)
  else
    state

def dmacEnableIrq (irqNr : Nat) (state : InterruptState) : InterruptState :=
  let irqNr := irqNr + dmacCim0
  if state.savedDmacMask &&& shiftOne irqNr = 0 then
    { state with savedDmacMask := state.savedDmacMask ||| shiftOne irqNr }
      |>.writeDStat (shiftOne irqNr)
  else
    state

def dmacDisableIrq (irqNr : Nat) (state : InterruptState) : InterruptState :=
  let irqNr := irqNr + dmacCim0
  if state.savedDmacMask &&& shiftOne irqNr ≠ 0 then
    { state with savedDmacMask := state.savedDmacMask &&& ~~~ shiftOne irqNr }
      |>.writeDStat (shiftOne irqNr)
  else
    state

def syscallEnableDmac (channel : Nat) (state : InterruptState) :
    Int × InterruptState :=
  let irqNr := channel + dmacCis0
  if state.savedDmacMask &&& shiftOne irqNr = 0 then
    (0, state)
  else
    (1, dmacEnableIrq irqNr state)

def syscallDisableDmac (channel : Nat) (state : InterruptState) :
    Int × InterruptState :=
  let irqNr := channel + dmacCis0
  if state.savedDmacMask &&& shiftOne irqNr ≠ 0 then
    (0, state)
  else
    (1, dmacDisableIrq irqNr state)

/-! ### Handlers -/

/-- `none` is a panic. -/
def intcRegisterHandler (nr : Nat) (handler : Option Nat)
    (state : InterruptState) : Option InterruptState :=
  if nr < intcNumberOfHandlers then
    some { state with intcHandler := Function.update state.intcHandler nr handler }
  else
    none

def dmacRegisterHandler (nr : Nat) (handler : Option Nat)
    (state : InterruptState) : Option InterruptState :=
  if nr < dmacNumberOfHandlers then
    some { state with dmacHandler := Function.update state.dmacHandler nr handler }
  else
    none

def syscallAddDmacHandler (channel : Nat) (handler : Option Nat)
    (state : InterruptState) : Int × InterruptState :=
  if channel > dmacCis9 then
    (-1, state)
  else
    (channel,
      { state with
        dmacUsegHandler :=
          Function.update state.dmacUsegHandler (channel + dmacCis0) handler })

/-- A call of a handler: the source it is for, and which one. -/
inductive HandlerCall where
  | kernel (source handler : Nat)
  | useg (source handler : Nat)
deriving DecidableEq

/-- The loop of both interrupt routines: every source with its bit in `active`
is acknowledged and its handlers are called. -/
def serveLoop (count : Nat) (active : BitVec 64)
    (acknowledge : InterruptState → Nat → InterruptState)
    (handlers : Nat → List HandlerCall) (state : InterruptState) :
    List HandlerCall × InterruptState :=
  (List.range count).foldl
    (fun served i =>
      if active &&& shiftOne i ≠ 0 then
        (served.1 ++ handlers i, acknowledge served.2 i)
      else
        served)
    ([], state)

def intcHandlers (state : InterruptState) (source : Nat) : List HandlerCall :=
  ((state.intcHandler source).map (HandlerCall.kernel source)).toList

def dmacHandlers (state : InterruptState) (source : Nat) : List HandlerCall :=
  ((state.dmacHandler source).map (HandlerCall.kernel source)).toList ++
    ((state.dmacUsegHandler source).map (HandlerCall.useg source)).toList

def intcInterrupt (state : InterruptState) : List HandlerCall × InterruptState :=
  let mask := state.intcMask
  serveLoop intcNumberOfHandlers (mask &&& state.savedIntcMask)
    (fun state i => state.writeIntcStat (shiftOne i)) (intcHandlers state) state

def dmacInterrupt (state : InterruptState) : List HandlerCall × InterruptState :=
  let status := (state.dStat.setWidth 32).setWidth 64
  let mask := ((state.savedDmacMask >>> 16).setWidth 32).setWidth 64
  serveLoop dmacNumberOfHandlers (status &&& mask)
    (fun state i => state.writeDStat (shiftOne i)) (dmacHandlers state) state

/-! ### Runs -/

def intcInitModule (state : InterruptState) : InterruptState :=
  let state := { state with savedIntcMask := 0 }
  let state := state.writeIntcMask state.intcMask
  let state := state.writeIntcStat state.intcStat
  { state with
    intcHandler := fun nr =>
      if nr < intcNumberOfHandlers then none else state.intcHandler nr }

def dmacInitModule (state : InterruptState) : InterruptState :=
  let state := { state with savedDmacMask := 0 }
  let state := state.writeDStat state.dStat
  let state := state.writeDStat state.dStat
  { state with
    dmacHandler := fun nr =>
      if nr < dmacNumberOfHandlers then none else state.dmacHandler nr
    dmacUsegHandler := fun nr =>
      if nr < dmacNumberOfHandlers then none else state.dmacUsegHandler nr }

inductive InterruptEvent where
  | intcEnable (irqNr : Nat)
  | intcDisable (irqNr : Nat)
  | dmacEnable (irqNr : Nat)
  | dmacDisable (irqNr : Nat)
  | sysEnable (channel : Nat)
  | sysDisable (channel : Nat)
  | intcRegister (nr : Nat) (handler : Option Nat)
  | dmacRegister (nr : Nat) (handler : Option Nat)
  | sysAddHandler (channel : Nat) (handler : Option Nat)
  | intcRaise (source : Nat)
  | dmacRaise (source : Nat)
  | intcInterrupt
  | dmacInterrupt

def InterruptState.requestIntc (state : InterruptState) (source : Nat)
    (enable : Bool) : InterruptState :=
  { state with
    intcRequested := Function.update state.intcRequested source enable }

def InterruptState.requestDmac (state : InterruptState) (source : Nat)
    (enable : Bool) : InterruptState :=
  { state with
    dmacRequested := Function.update state.dmacRequested source enable }

def interruptStep (state : InterruptState) :
    InterruptEvent → Option InterruptState
  | .intcEnable irqNr => some ((intcEnableIrq irqNr state).requestIntc irqNr true)
  | .intcDisable irqNr => some ((intcDisableIrq irqNr state).requestIntc irqNr false)
  | .dmacEnable irqNr => some ((dmacEnableIrq irqNr state).requestDmac irqNr true)
  | .dmacDisable irqNr => some ((dmacDisableIrq irqNr state).requestDmac irqNr false)
  | .sysEnable channel =>
      some ((syscallEnableDmac channel state).2.requestDmac channel true)
  | .sysDisable channel =>
      some ((syscallDisableDmac channel state).2.requestDmac channel false)
  | .intcRegister nr handler => intcRegisterHandler nr handler state
  | .dmacRegister nr handler => dmacRegisterHandler nr handler state
  | .sysAddHandler channel handler =>
      some (syscallAddDmacHandler channel handler state).2
  | .intcRaise source =>
      some { state with
        intcStat := state.intcStat ||| BitVec.twoPow 64 source }
  | .dmacRaise source =>
      if source < dmacNumberOfHandlers then
        some { state with dStat := state.dStat ||| BitVec.twoPow 64 source }
      else
        none
  | .intcInterrupt => some (intcInterrupt state).2
  | .dmacInterrupt => some (dmacInterrupt state).2

/-- The hardware and the variables of the kernel are in any state before the
modules are set up. -/
def interruptMachine (before : InterruptState) :
    Machine InterruptState InterruptEvent where
  initial :=
    { dmacInitModule (intcInitModule before) with
      intcRequested := fun _ => false
      dmacRequested := fun _ => false }
  step := interruptStep

/-! ### What the kernel has to keep -/

structure MasksRight (state : InterruptState) : Prop where
  intcSaved : state.intcMask = state.savedIntcMask
  dmacSaved : state.dmacMask = state.savedDmacMask
  intcEnabled : ∀ source, state.intcMask.getLsbD source = state.intcRequested source
  dmacEnabled : ∀ source < dmacNumberOfHandlers,
    state.dStat.getLsbD (source + dmacCim0) = state.dmacRequested source

/-- Sources both enabled and pending. -/
def InterruptState.intcDue (state : InterruptState) (source : Nat) : Bool :=
  state.intcRequested source && state.intcStat.getLsbD source

def InterruptState.dmacDue (state : InterruptState) (source : Nat) : Bool :=
  decide (source < dmacNumberOfHandlers) && state.dmacRequested source &&
    state.dStat.getLsbD source

/-- The handlers of exactly the sources that are due are called, in order, and
exactly these are acknowledged. -/
def ServesRight (state : InterruptState) : InterruptEvent → Prop
  | .intcInterrupt =>
      (intcInterrupt state).1 =
          ((List.range 64).filter state.intcDue).flatMap (intcHandlers state) ∧
        ∀ source, (intcInterrupt state).2.intcStat.getLsbD source =
          (state.intcStat.getLsbD source && !state.intcDue source)
  | .dmacInterrupt =>
      (dmacInterrupt state).1 =
          ((List.range 64).filter state.dmacDue).flatMap (dmacHandlers state) ∧
        ∀ source < dmacNumberOfHandlers,
          (dmacInterrupt state).2.dStat.getLsbD source =
            (state.dStat.getLsbD source && !state.dmacDue source)
  | _ => True

/-- What the steps need.  The INTC mask is written with the other enabled
sources in it, so there must be none.  `intc_interrupt` reads the mask in place
of the status.  `syscallEnableDmac` enables nothing. -/
def StepsRight (state : InterruptState) : InterruptEvent → Prop
  | .intcEnable irqNr =>
      irqNr < 31 ∧
        (state.savedIntcMask.getLsbD irqNr = true ∨ state.savedIntcMask = 0)
  | .intcDisable irqNr =>
      irqNr < 31 ∧
        (state.savedIntcMask.getLsbD irqNr = false ∨
          state.savedIntcMask = shiftOne irqNr)
  | .dmacEnable irqNr => irqNr < 15
  | .dmacDisable irqNr => irqNr < 15
  | .sysEnable channel =>
      channel < 15 ∧ state.savedDmacMask.getLsbD (channel + dmacCim0) = true
  | .sysDisable channel => channel < 15
  | .intcInterrupt =>
      ∀ source < 64, state.savedIntcMask.getLsbD source = true →
        (state.intcStat.getLsbD source = true ↔ source < intcNumberOfHandlers)
  | _ => True

instance (state : InterruptState) : (event : InterruptEvent) →
    Decidable (StepsRight state event)
  | .intcEnable _ => inferInstanceAs (Decidable (_ ∧ _))
  | .intcDisable _ => inferInstanceAs (Decidable (_ ∧ _))
  | .dmacEnable _ => inferInstanceAs (Decidable (_ < _))
  | .dmacDisable _ => inferInstanceAs (Decidable (_ < _))
  | .sysEnable _ => inferInstanceAs (Decidable (_ ∧ _))
  | .sysDisable _ => inferInstanceAs (Decidable (_ < _))
  | .intcInterrupt =>
      inferInstanceAs (Decidable (∀ source < 64,
        state.savedIntcMask.getLsbD source = true →
          (state.intcStat.getLsbD source = true ↔ source < intcNumberOfHandlers)))
  | .intcRegister _ _ => inferInstanceAs (Decidable True)
  | .dmacRegister _ _ => inferInstanceAs (Decidable True)
  | .sysAddHandler _ _ => inferInstanceAs (Decidable True)
  | .intcRaise _ => inferInstanceAs (Decidable True)
  | .dmacRaise _ => inferInstanceAs (Decidable True)
  | .dmacInterrupt => inferInstanceAs (Decidable True)

/-! ### Bits -/

theorem shiftOne_eq {nr : Nat} (small : nr < 31) : shiftOne nr = BitVec.twoPow 64 nr := by
  have all : ∀ nr < 31, shiftOne nr = BitVec.twoPow 64 nr := by decide
  exact all nr small

theorem shiftOne_bit {nr : Nat} (small : nr < 31) (bit : Nat) :
    (shiftOne nr).getLsbD bit = decide (nr = bit) := by
  rw [shiftOne_eq small, BitVec.getLsbD_twoPow, decide_eq_true (show nr < 64 by omega),
    Bool.true_and]

theorem and_shiftOne {nr : Nat} (small : nr < 31) (word : BitVec 64) :
    word &&& shiftOne nr = 0 ↔ word.getLsbD nr = false := by
  rw [shiftOne_eq small, BitVec.and_twoPow]
  split <;> rename_i isSet
  · have nonzero : BitVec.twoPow 64 nr ≠ 0 := by
      rw [← shiftOne_eq small]
      intro zero
      have bit := shiftOne_bit small nr
      rw [zero, BitVec.ofNat_eq_ofNat, BitVec.getLsbD_zero, decide_eq_true rfl] at bit
      cases bit
    rw [isSet]
    exact iff_of_false nonzero nofun
  · exact iff_of_true rfl (Bool.eq_false_iff.mpr isSet)

theorem lowHalf_bit (bit : Nat) : (0xFFFF : BitVec 64).getLsbD bit = decide (bit < 16) := by
  by_cases inside : bit < 64
  · have all : ∀ bit < 64, (0xFFFF : BitVec 64).getLsbD bit = decide (bit < 16) := by decide
    exact all bit inside
  · rw [BitVec.getLsbD_of_ge _ _ (by omega), decide_eq_false (by omega)]

theorem highHalf_bit (bit : Nat) :
    (0xFFFF0000 : BitVec 64).getLsbD bit = decide (16 ≤ bit ∧ bit < 32) := by
  by_cases inside : bit < 64
  · have all : ∀ bit < 64, (0xFFFF0000 : BitVec 64).getLsbD bit =
        decide (16 ≤ bit ∧ bit < 32) := by
      decide
    exact all bit inside
  · rw [BitVec.getLsbD_of_ge _ _ (by omega), decide_eq_false (by omega)]

theorem dmacMask_bit (state : InterruptState) (bit : Nat) :
    state.dmacMask.getLsbD bit =
      (state.dStat.getLsbD bit && decide (16 ≤ bit ∧ bit < 32)) := by
  unfold InterruptState.dmacMask
  rw [BitVec.getLsbD_and, highHalf_bit]

/-- A status bit is cleared by a one, a mask bit is switched over. -/
theorem writeDStat_bit (state : InterruptState) (value : BitVec 64) (bit : Nat) :
    (state.writeDStat value).dStat.getLsbD bit =
      if bit < 16 then state.dStat.getLsbD bit && !value.getLsbD bit
      else if bit < 32 then (state.dStat.getLsbD bit ^^ value.getLsbD bit)
      else false := by
  unfold InterruptState.writeDStat
  dsimp only
  rw [BitVec.getLsbD_or, BitVec.getLsbD_and, BitVec.getLsbD_and, BitVec.getLsbD_and,
    lowHalf_bit, highHalf_bit, BitVec.getLsbD_not, BitVec.getLsbD_xor]
  split <;> rename_i low
  · have inside : bit < 64 := by omega
    have notHigh : ¬ (16 ≤ bit ∧ bit < 32) := by omega
    simp [low, inside, notHigh]
  · split <;> rename_i high
    · have isHigh : 16 ≤ bit ∧ bit < 32 := by omega
      simp [low, isHigh]
    · have notHigh : ¬ (16 ≤ bit ∧ bit < 32) := by omega
      simp [low, notHigh]

/-! ### The invariant -/

/-- No request sets the highest bit of the lower word, which the shift would
spread over the upper one. -/
structure MasksInv (state : InterruptState) : Prop extends MasksRight state where
  topClear : state.savedDmacMask.getLsbD 31 = false

theorem initial_inv (before : InterruptState) :
    MasksInv (interruptMachine before).initial := by
  have cleared : (interruptMachine before).initial.dStat = 0 := by
    apply BitVec.eq_of_getLsbD_eq
    intro bit _inside
    change ((before.writeDStat before.dStat).writeDStat
      (before.writeDStat before.dStat).dStat).dStat.getLsbD bit = _
    rw [writeDStat_bit, writeDStat_bit]
    split
    · simp
    · split <;> simp
  constructor
  · constructor
    · exact BitVec.xor_self
    · unfold InterruptState.dmacMask
      rw [cleared, BitVec.ofNat_eq_ofNat, BitVec.zero_and]
      rfl
    · intro source
      change (before.intcMask ^^^ before.intcMask).getLsbD source = false
      rw [BitVec.xor_self, BitVec.getLsbD_zero]
    · intro source _inside
      rw [cleared, BitVec.ofNat_eq_ofNat, BitVec.getLsbD_zero]
      rfl
  · change (0 : BitVec 64).getLsbD 31 = false
    rfl

/-- The status of the INTC and the handlers play no part. -/
theorem MasksInv.offMasks {state : InterruptState} (inv : MasksInv state)
    (intcStat : BitVec 64) (intcHandler dmacHandler dmacUsegHandler : Nat → Option Nat) :
    MasksInv { state with
      intcStat := intcStat
      intcHandler := intcHandler
      dmacHandler := dmacHandler
      dmacUsegHandler := dmacUsegHandler } :=
  ⟨⟨inv.intcSaved, inv.dmacSaved, inv.intcEnabled, inv.dmacEnabled⟩, inv.topClear⟩

/-- A request that finds its bit in the saved mask as it should be. -/
theorem MasksInv.keepIntc {state : InterruptState} (inv : MasksInv state)
    {irqNr : Nat} {enable : Bool}
    (already : state.savedIntcMask.getLsbD irqNr = enable) :
    MasksInv (state.requestIntc irqNr enable) := by
  refine ⟨⟨inv.intcSaved, inv.dmacSaved, ?_, inv.dmacEnabled⟩, inv.topClear⟩
  intro source
  change _ = Function.update state.intcRequested irqNr enable source
  rw [Function.update_apply]
  split <;> rename_i same
  · rw [same, ← already, ← inv.intcSaved]
    rfl
  · exact inv.intcEnabled source

theorem MasksInv.keepDmac {state : InterruptState} (inv : MasksInv state)
    {irqNr : Nat} {enable : Bool}
    (already : state.dStat.getLsbD (irqNr + dmacCim0) = enable) :
    MasksInv (state.requestDmac irqNr enable) := by
  refine ⟨⟨inv.intcSaved, inv.dmacSaved, inv.intcEnabled, ?_⟩, inv.topClear⟩
  intro source inside
  change _ = Function.update state.dmacRequested irqNr enable source
  rw [Function.update_apply]
  split <;> rename_i same
  · rw [same]
    exact already
  · exact inv.dmacEnabled source inside

/-- Both copies of the INTC mask get a new value with the bit of the request. -/
theorem MasksInv.setIntc {state : InterruptState} (inv : MasksInv state)
    (irqNr : Nat) (enable : Bool) (mask : BitVec 64)
    (bits : ∀ source, mask.getLsbD source =
      Function.update (fun bit => state.savedIntcMask.getLsbD bit) irqNr enable source) :
    MasksInv
      ({ state with intcMask := mask, savedIntcMask := mask }.requestIntc irqNr enable) := by
  refine ⟨⟨rfl, inv.dmacSaved, ?_, inv.dmacEnabled⟩, inv.topClear⟩
  intro source
  change mask.getLsbD source = Function.update state.intcRequested irqNr enable source
  have sameBits : (fun bit => state.savedIntcMask.getLsbD bit) = state.intcRequested := by
    funext bit
    rw [← inv.intcEnabled, inv.intcSaved]
  rw [bits, sameBits]

theorem intcEnableIrq_inv {state : InterruptState} (inv : MasksInv state) {irqNr : Nat}
    (met : StepsRight state (.intcEnable irqNr)) :
    MasksInv ((intcEnableIrq irqNr state).requestIntc irqNr true) := by
  obtain ⟨small, enabledOrEmpty⟩ := met
  unfold intcEnableIrq
  split <;> rename_i isClear
  · rw [and_shiftOne small] at isClear
    have empty : state.savedIntcMask = 0 := by
      rcases enabledOrEmpty with enabled | empty
      · rw [enabled] at isClear
        cases isClear
      · exact empty
    have setBit := inv.setIntc irqNr true (shiftOne irqNr) (by
      intro source
      rw [shiftOne_bit small, Function.update_apply, empty]
      by_cases same : source = irqNr
      · simp [same]
      · simp [same, Ne.symm same])
    unfold InterruptState.writeIntcMask
    dsimp only
    rw [inv.intcSaved, empty]
    simpa using setBit
  · have isSet : state.savedIntcMask.getLsbD irqNr = true := by
      rw [and_shiftOne small] at isClear
      simpa using isClear
    exact inv.keepIntc isSet

theorem intcDisableIrq_inv {state : InterruptState} (inv : MasksInv state) {irqNr : Nat}
    (met : StepsRight state (.intcDisable irqNr)) :
    MasksInv ((intcDisableIrq irqNr state).requestIntc irqNr false) := by
  obtain ⟨small, disabledOrOnly⟩ := met
  unfold intcDisableIrq
  split <;> rename_i isSet
  · rw [Ne, and_shiftOne small] at isSet
    have only : state.savedIntcMask = shiftOne irqNr := by
      rcases disabledOrOnly with disabled | only
      · exact absurd disabled isSet
      · exact only
    have clearBit := inv.setIntc irqNr false 0 (by
      intro source
      rw [Function.update_apply, only, shiftOne_bit small]
      by_cases same : source = irqNr
      · simp [same]
      · simp [same, Ne.symm same])
    unfold InterruptState.writeIntcMask
    dsimp only
    rw [inv.intcSaved, only]
    simpa using clearBit
  · have isClear : state.savedIntcMask.getLsbD irqNr = false := by
      rw [Ne, and_shiftOne small] at isSet
      exact not_not.mp isSet
    exact inv.keepIntc isClear

/-- The saved bit of a DMA source is that of the hardware. -/
theorem MasksInv.savedDmac_bit {state : InterruptState} (inv : MasksInv state)
    (bit : Nat) :
    state.savedDmacMask.getLsbD bit =
      (state.dStat.getLsbD bit && decide (16 ≤ bit ∧ bit < 32)) := by
  rw [← inv.dmacSaved, dmacMask_bit]

theorem MasksInv.savedDmac_source {state : InterruptState} (inv : MasksInv state)
    {source : Nat} (small : source < 15) :
    state.savedDmacMask.getLsbD (source + dmacCim0) =
      state.dStat.getLsbD (source + dmacCim0) := by
  have inside : 16 ≤ source + dmacCim0 ∧ source + dmacCim0 < 32 := by
    unfold dmacCim0
    omega
  rw [inv.savedDmac_bit, decide_eq_true inside, Bool.and_true]

/-- The bit of a DMA source is switched over in both copies of the mask. -/
theorem MasksInv.switchDmac {state : InterruptState} (inv : MasksInv state)
    {irqNr : Nat} (small : irqNr < 15) (enable : Bool) {saved : BitVec 64}
    (before : state.savedDmacMask.getLsbD (irqNr + dmacCim0) = !enable)
    (bits : ∀ bit, saved.getLsbD bit =
      if bit = irqNr + dmacCim0 then enable else state.savedDmacMask.getLsbD bit) :
    MasksInv (({ state with savedDmacMask := saved }.writeDStat
      (shiftOne (irqNr + dmacCim0))).requestDmac irqNr enable) := by
  have place : irqNr + dmacCim0 < 31 := by
    unfold dmacCim0
    omega
  have written : ∀ bit, 16 ≤ bit → bit < 32 →
      ({ state with savedDmacMask := saved }.writeDStat
        (shiftOne (irqNr + dmacCim0))).dStat.getLsbD bit =
        if bit = irqNr + dmacCim0 then enable else state.dStat.getLsbD bit := by
    intro bit low high
    rw [writeDStat_bit, if_neg (by omega), if_pos high, shiftOne_bit place]
    split <;> rename_i same
    · rw [inv.savedDmac_source small] at before
      rw [same, decide_eq_true rfl]
      change (state.dStat.getLsbD (irqNr + dmacCim0) ^^ true) = enable
      rw [before, Bool.xor_true, Bool.not_not]
    · rw [decide_eq_false (Ne.symm same), Bool.xor_false]
  refine ⟨⟨inv.intcSaved, ?_, inv.intcEnabled, ?_⟩, ?_⟩
  · apply BitVec.eq_of_getLsbD_eq
    intro bit _inside
    refine (dmacMask_bit _ bit).trans ?_
    change _ = saved.getLsbD bit
    rw [bits]
    by_cases high : 16 ≤ bit ∧ bit < 32
    · rw [decide_eq_true high, Bool.and_true]
      refine (written bit high.1 high.2).trans ?_
      rw [inv.savedDmac_bit, decide_eq_true high, Bool.and_true]
    · have elsewhere : bit ≠ irqNr + dmacCim0 := by
        unfold dmacCim0 at place ⊢
        omega
      rw [decide_eq_false high, Bool.and_false, if_neg elsewhere, inv.savedDmac_bit,
        decide_eq_false high, Bool.and_false]
  · intro source inside
    change _ = Function.update state.dmacRequested irqNr enable source
    unfold dmacNumberOfHandlers at inside
    have high : 16 ≤ source + dmacCim0 ∧ source + dmacCim0 < 32 := by
      unfold dmacCim0
      omega
    refine (written _ high.1 high.2).trans ?_
    rw [Function.update_apply]
    by_cases same : source = irqNr
    · rw [if_pos (congrArg (· + dmacCim0) same), if_pos same]
    · rw [if_neg fun sum => same (Nat.add_right_cancel sum), if_neg same]
      exact inv.dmacEnabled source inside
  · change saved.getLsbD 31 = false
    rw [bits, if_neg (by omega)]
    exact inv.topClear

theorem dmacEnableIrq_inv {state : InterruptState} (inv : MasksInv state) {irqNr : Nat}
    (small : irqNr < 15) :
    MasksInv ((dmacEnableIrq irqNr state).requestDmac irqNr true) := by
  have place : irqNr + dmacCim0 < 31 := by
    unfold dmacCim0
    omega
  unfold dmacEnableIrq
  dsimp only
  split <;> rename_i isClear
  · rw [and_shiftOne place] at isClear
    apply inv.switchDmac small true isClear
    intro bit
    rw [BitVec.getLsbD_or, shiftOne_bit place]
    by_cases same : bit = irqNr + dmacCim0
    · simp [same]
    · simp [same, Ne.symm same]
  · have isSet : state.savedDmacMask.getLsbD (irqNr + dmacCim0) = true := by
      rw [and_shiftOne place] at isClear
      simpa using isClear
    rw [inv.savedDmac_source small] at isSet
    exact inv.keepDmac isSet

theorem dmacDisableIrq_inv {state : InterruptState} (inv : MasksInv state) {irqNr : Nat}
    (small : irqNr < 15) :
    MasksInv ((dmacDisableIrq irqNr state).requestDmac irqNr false) := by
  have place : irqNr + dmacCim0 < 31 := by
    unfold dmacCim0
    omega
  unfold dmacDisableIrq
  dsimp only
  split <;> rename_i isSet
  · rw [Ne, and_shiftOne place] at isSet
    apply inv.switchDmac small false (by simpa using isSet)
    intro bit
    rw [BitVec.getLsbD_and, BitVec.getLsbD_not, shiftOne_bit place]
    by_cases same : bit = irqNr + dmacCim0
    · simp [same]
    · by_cases inside : bit < 64
      · simp [same, Ne.symm same, inside]
      · simp [same, inside, BitVec.getLsbD_of_ge _ _ (Nat.le_of_not_lt inside)]
  · have isClear : state.savedDmacMask.getLsbD (irqNr + dmacCim0) = false := by
      rw [Ne, and_shiftOne place] at isSet
      exact not_not.mp isSet
    rw [inv.savedDmac_source small] at isClear
    exact inv.keepDmac isClear

/-- The system calls look at a bit of the status half, which is never saved. -/
theorem MasksInv.savedDmac_low {state : InterruptState} (inv : MasksInv state)
    {channel : Nat} (small : channel < 15) :
    state.savedDmacMask &&& shiftOne (channel + dmacCis0) = 0 := by
  have low : ¬ (16 ≤ channel ∧ channel < 32) := by omega
  change state.savedDmacMask &&& shiftOne channel = 0
  rw [and_shiftOne (by omega), inv.savedDmac_bit, decide_eq_false low, Bool.and_false]

theorem syscallEnableDmac_inv {state : InterruptState} (inv : MasksInv state)
    {channel : Nat} (met : StepsRight state (.sysEnable channel)) :
    MasksInv ((syscallEnableDmac channel state).2.requestDmac channel true) := by
  obtain ⟨small, enabled⟩ := met
  unfold syscallEnableDmac
  dsimp only
  rw [if_pos (inv.savedDmac_low small)]
  rw [inv.savedDmac_source small] at enabled
  exact inv.keepDmac enabled

theorem syscallDisableDmac_inv {state : InterruptState} (inv : MasksInv state)
    {channel : Nat} (small : channel < 15) :
    MasksInv ((syscallDisableDmac channel state).2.requestDmac channel false) := by
  unfold syscallDisableDmac
  dsimp only
  rw [if_neg (not_not.mpr (inv.savedDmac_low small))]
  exact dmacDisableIrq_inv inv small

/-! ### Serving interrupts -/

theorem serveLoop_eq (count : Nat) (active : BitVec 64)
    (acknowledge : InterruptState → Nat → InterruptState)
    (handlers : Nat → List HandlerCall) (state : InterruptState)
    (small : count ≤ 31) :
    serveLoop count active acknowledge handlers state =
      (((List.range count).filter fun i => active.getLsbD i).flatMap handlers,
        ((List.range count).filter fun i => active.getLsbD i).foldl acknowledge state) := by
  unfold serveLoop
  induction count with
  | zero => rfl
  | succ count ih =>
      have atCount := and_shiftOne (show count < 31 by omega) active
      rw [List.range_succ, List.foldl_append, ih (by omega), List.filter_append,
        List.flatMap_append, List.foldl_append, List.foldl_cons, List.foldl_nil]
      by_cases isActive : active.getLsbD count = true
      · have taken : active &&& shiftOne count ≠ 0 := by
          rw [Ne, atCount, isActive]
          nofun
        rw [if_pos taken, List.filter_cons_of_pos isActive, List.filter_nil,
          List.flatMap_singleton, List.foldl_cons, List.foldl_nil]
      · have skipped : ¬ active &&& shiftOne count ≠ 0 := by
          rw [not_not, atCount]
          exact Bool.eq_false_iff.mpr isActive
        rw [if_neg skipped, List.filter_cons_of_neg isActive, List.filter_nil,
          List.flatMap_nil, List.append_nil, List.foldl_nil]

/-- What the acknowledgements of some sources leave of a status bit, when each
of them clears its own bit. -/
theorem foldl_acknowledge_bit {acknowledge : InterruptState → Nat → InterruptState}
    (status : InterruptState → Bool) (bit : Nat) (sources : List Nat)
    (clears : ∀ state, ∀ source ∈ sources,
      status (acknowledge state source) = (status state && decide (source ≠ bit)))
    (state : InterruptState) :
    status (sources.foldl acknowledge state) =
      (status state && decide (bit ∉ sources)) := by
  induction sources generalizing state with
  | nil => simp
  | cons source rest ih =>
      rw [List.foldl_cons,
        ih (fun state other member => clears state other (List.mem_cons_of_mem _ member)),
        clears state source List.mem_cons_self, Bool.and_assoc]
      by_cases same : source = bit
      · simp [same]
      · simp [same, Ne.symm same]

theorem foldl_acknowledge_inv {acknowledge : InterruptState → Nat → InterruptState}
    (sources : List Nat)
    (keeps : ∀ state, ∀ source ∈ sources, MasksInv state →
      MasksInv (acknowledge state source))
    {state : InterruptState} (inv : MasksInv state) :
    MasksInv (sources.foldl acknowledge state) := by
  induction sources generalizing state with
  | nil => exact inv
  | cons source rest ih =>
      rw [List.foldl_cons]
      exact ih (fun state other member => keeps state other (List.mem_cons_of_mem _ member))
        (keeps state source List.mem_cons_self inv)

/-- Bits at or above a bound may be left out of a loop over the bits below. -/
theorem filter_range_below {bound count : Nat} (below : bound ≤ count)
    {active due : Nat → Bool}
    (same : ∀ bit < count, due bit = (active bit && decide (bit < bound))) :
    (List.range bound).filter active = (List.range count).filter due := by
  induction below with
  | refl =>
      apply List.filter_congr
      intro bit listed
      rw [same bit (List.mem_range.mp listed),
        decide_eq_true (List.mem_range.mp listed), Bool.and_true]
  | @step count below ih =>
      have notBelow : ¬ count < bound := Nat.not_lt.mpr below
      have last : due count = false := by
        rw [same count (Nat.lt_succ_self count), decide_eq_false notBelow, Bool.and_false]
      rw [List.range_succ, List.filter_append, ← ih fun bit inside => same bit (Nat.lt_succ_of_lt inside),
        List.filter_cons_of_neg (by simp [last]), List.filter_nil, List.append_nil]

theorem intcInterrupt_eq {state : InterruptState} (inv : MasksInv state) :
    intcInterrupt state =
      (((List.range intcNumberOfHandlers).filter
          fun i => state.savedIntcMask.getLsbD i).flatMap (intcHandlers state),
        ((List.range intcNumberOfHandlers).filter
          fun i => state.savedIntcMask.getLsbD i).foldl
          (fun state i => state.writeIntcStat (shiftOne i)) state) := by
  unfold intcInterrupt
  dsimp only
  rw [serveLoop_eq _ _ _ _ _ (by decide), inv.intcSaved, BitVec.and_self]

theorem intcInterrupt_inv {state : InterruptState} (inv : MasksInv state) :
    MasksInv (intcInterrupt state).2 := by
  rw [intcInterrupt_eq inv]
  apply foldl_acknowledge_inv _ _ inv
  intro state source _member inv
  exact inv.offMasks _ _ _ _

/-- Whether a DMA source is pending and has its bit in the saved mask. -/
def dmacActive (state : InterruptState) (source : Nat) : Bool :=
  state.dStat.getLsbD source && state.savedDmacMask.getLsbD (source + dmacCim0)

theorem dmacInterrupt_eq (state : InterruptState) :
    dmacInterrupt state =
      (((List.range dmacNumberOfHandlers).filter (dmacActive state)).flatMap
          (dmacHandlers state),
        ((List.range dmacNumberOfHandlers).filter (dmacActive state)).foldl
          (fun state i => state.writeDStat (shiftOne i)) state) := by
  have sameActive : ∀ i ∈ List.range dmacNumberOfHandlers,
      ((state.dStat.setWidth 32).setWidth 64 &&&
        ((state.savedDmacMask >>> 16).setWidth 32).setWidth 64).getLsbD i =
        dmacActive state i := by
    intro i listed
    have small : i < 16 := List.mem_range.mp listed
    unfold dmacActive dmacCim0
    simp only [BitVec.getLsbD_and, BitVec.getLsbD_setWidth, BitVec.getLsbD_ushiftRight]
    rw [decide_eq_true (show i < 64 by omega), decide_eq_true (show i < 32 by omega),
      Nat.add_comm 16 i]
    simp only [Bool.true_and]
  unfold dmacInterrupt
  dsimp only
  rw [serveLoop_eq _ _ _ _ _ (by decide), List.filter_congr sameActive]

/-- A step that changes only the status half of `D_STAT`. -/
theorem MasksInv.setDStat {state : InterruptState} (inv : MasksInv state)
    {dStat : BitVec 64}
    (maskKept : ∀ bit, 16 ≤ bit → bit < 32 →
      dStat.getLsbD bit = state.dStat.getLsbD bit) :
    MasksInv { state with dStat := dStat } := by
  refine ⟨⟨inv.intcSaved, ?_, inv.intcEnabled, ?_⟩, inv.topClear⟩
  · apply BitVec.eq_of_getLsbD_eq
    intro bit _inside
    change _ = state.savedDmacMask.getLsbD bit
    rw [dmacMask_bit, inv.savedDmac_bit]
    by_cases high : 16 ≤ bit ∧ bit < 32
    · rw [maskKept bit high.1 high.2]
    · rw [decide_eq_false high, Bool.and_false, Bool.and_false]
  · intro number inside
    unfold dmacNumberOfHandlers at inside
    change dStat.getLsbD (number + 16) = _
    rw [maskKept _ (by omega) (by omega)]
    exact inv.dmacEnabled number inside

theorem dmacInterrupt_inv {state : InterruptState} (inv : MasksInv state) :
    MasksInv (dmacInterrupt state).2 := by
  rw [dmacInterrupt_eq]
  apply foldl_acknowledge_inv _ _ inv
  intro state source member inv
  have small : source < 16 := List.mem_range.mp (List.mem_of_mem_filter member)
  apply inv.setDStat
  intro bit low high
  refine (writeDStat_bit state (shiftOne source) bit).trans ?_
  rw [if_neg (by omega), if_pos high, shiftOne_bit (by omega),
    decide_eq_false (by omega), Bool.xor_false]

theorem dmacRaise_inv {state : InterruptState} (inv : MasksInv state) {source : Nat}
    (inside : source < dmacNumberOfHandlers) :
    MasksInv { state with dStat := state.dStat ||| BitVec.twoPow 64 source } := by
  unfold dmacNumberOfHandlers at inside
  apply inv.setDStat
  intro bit low _high
  rw [BitVec.getLsbD_or, BitVec.getLsbD_twoPow, decide_eq_false (show source ≠ bit by omega),
    Bool.and_false, Bool.or_false]

theorem intcServed {state : InterruptState} (inv : MasksInv state)
    (met : StepsRight state .intcInterrupt) :
    (List.range intcNumberOfHandlers).filter (fun i => state.savedIntcMask.getLsbD i) =
      (List.range 64).filter state.intcDue := by
  apply filter_range_below (by decide)
  intro source inside
  unfold InterruptState.intcDue
  rw [← inv.intcEnabled, inv.intcSaved]
  cases enabled : state.savedIntcMask.getLsbD source with
  | false => rw [Bool.false_and, Bool.false_and]
  | true =>
      rw [Bool.true_and, Bool.true_and, Bool.eq_iff_iff, decide_eq_true_iff]
      exact met source inside enabled

theorem intcInterrupt_serves {state : InterruptState} (inv : MasksInv state)
    (met : StepsRight state .intcInterrupt) : ServesRight state .intcInterrupt := by
  change (intcInterrupt state).1 = _ ∧ ∀ source, (intcInterrupt state).2.intcStat.getLsbD source = _
  have small : ∀ source ∈ (List.range 64).filter state.intcDue, source < 31 := by
    rw [← intcServed inv met]
    intro source member
    have inside := List.mem_range.mp (List.mem_of_mem_filter member)
    unfold intcNumberOfHandlers at inside
    omega
  rw [intcInterrupt_eq inv, intcServed inv met]
  refine ⟨rfl, ?_⟩
  intro source
  dsimp only
  by_cases inside : source < 64
  · rw [foldl_acknowledge_bit (fun state => state.intcStat.getLsbD source) source]
    · simp [inside]
    · intro state other member
      unfold InterruptState.writeIntcStat
      dsimp only
      rw [BitVec.getLsbD_and, BitVec.getLsbD_not, shiftOne_bit (small other member)]
      simp [inside]
  · rw [BitVec.getLsbD_of_ge _ _ (Nat.le_of_not_lt inside),
      BitVec.getLsbD_of_ge _ _ (Nat.le_of_not_lt inside), Bool.false_and]

theorem dmacServed {state : InterruptState} (inv : MasksInv state) :
    (List.range dmacNumberOfHandlers).filter (dmacActive state) =
      (List.range 64).filter state.dmacDue := by
  apply filter_range_below (by decide)
  intro source _inside
  unfold dmacActive InterruptState.dmacDue
  by_cases small : source < dmacNumberOfHandlers
  · have high : 16 ≤ source + dmacCim0 ∧ source + dmacCim0 < 32 := by
      unfold dmacNumberOfHandlers at small
      unfold dmacCim0
      omega
    rw [inv.savedDmac_bit, decide_eq_true high, decide_eq_true small, Bool.and_true,
      Bool.true_and, Bool.and_true, inv.dmacEnabled source small, Bool.and_comm]
  · rw [decide_eq_false small, Bool.and_false, Bool.false_and, Bool.false_and]

theorem dmacInterrupt_serves {state : InterruptState} (inv : MasksInv state) :
    ServesRight state .dmacInterrupt := by
  change (dmacInterrupt state).1 = _ ∧ ∀ source < dmacNumberOfHandlers,
    (dmacInterrupt state).2.dStat.getLsbD source = _
  have small : ∀ source ∈ (List.range 64).filter state.dmacDue, source < 31 := by
    rw [← dmacServed inv]
    intro source member
    have inside := List.mem_range.mp (List.mem_of_mem_filter member)
    unfold dmacNumberOfHandlers at inside
    omega
  rw [dmacInterrupt_eq, dmacServed inv]
  refine ⟨rfl, ?_⟩
  intro source inside
  unfold dmacNumberOfHandlers at inside
  dsimp only
  rw [foldl_acknowledge_bit (fun state => state.dStat.getLsbD source) source]
  · have listed : source < 64 := by omega
    simp [listed]
  · intro state other member
    rw [writeDStat_bit, if_pos inside, shiftOne_bit (small other member)]
    simp

/-! ### Runs -/

theorem interruptStep_inv (state : InterruptState) (event : InterruptEvent)
    (next : InterruptState) (inv : MasksInv state) (met : StepsRight state event)
    (stepped : interruptStep state event = some next) : MasksInv next := by
  cases event with
  | intcEnable irqNr =>
      obtain rfl := Option.some.inj stepped
      exact intcEnableIrq_inv inv met
  | intcDisable irqNr =>
      obtain rfl := Option.some.inj stepped
      exact intcDisableIrq_inv inv met
  | dmacEnable irqNr =>
      obtain rfl := Option.some.inj stepped
      exact dmacEnableIrq_inv inv met
  | dmacDisable irqNr =>
      obtain rfl := Option.some.inj stepped
      exact dmacDisableIrq_inv inv met
  | sysEnable channel =>
      obtain rfl := Option.some.inj stepped
      exact syscallEnableDmac_inv inv met
  | sysDisable channel =>
      obtain rfl := Option.some.inj stepped
      exact syscallDisableDmac_inv inv met
  | intcRegister nr handler =>
      change intcRegisterHandler nr handler state = some next at stepped
      unfold intcRegisterHandler at stepped
      split at stepped
      · obtain rfl := Option.some.inj stepped
        exact inv.offMasks _ _ _ _
      · cases stepped
  | dmacRegister nr handler =>
      change dmacRegisterHandler nr handler state = some next at stepped
      unfold dmacRegisterHandler at stepped
      split at stepped
      · obtain rfl := Option.some.inj stepped
        exact inv.offMasks _ _ _ _
      · cases stepped
  | sysAddHandler channel handler =>
      obtain rfl := Option.some.inj stepped
      unfold syscallAddDmacHandler
      split
      · exact inv
      · exact inv.offMasks _ _ _ _
  | intcRaise source =>
      obtain rfl := Option.some.inj stepped
      exact inv.offMasks _ _ _ _
  | dmacRaise source =>
      rw [interruptStep] at stepped
      split at stepped <;> rename_i inside
      · obtain rfl := Option.some.inj stepped
        exact dmacRaise_inv inv inside
      · cases stepped
  | intcInterrupt =>
      obtain rfl := Option.some.inj stepped
      exact intcInterrupt_inv inv
  | dmacInterrupt =>
      obtain rfl := Option.some.inj stepped
      exact dmacInterrupt_inv inv

theorem reach_inv {before state : InterruptState}
    (reached : (interruptMachine before).Reach StepsRight state) : MasksInv state :=
  reached.invariant (initial_inv before) interruptStep_inv

/-- In every run whose steps meet the condition, the masks are right and the
interrupt routines serve what is due. -/
theorem interrupts_right (before state : InterruptState)
    (reached : (interruptMachine before).Reach StepsRight state) :
    MasksRight state ∧ ∀ event, StepsRight state event → ServesRight state event := by
  have inv := reach_inv reached
  refine ⟨inv.toMasksRight, ?_⟩
  intro event met
  cases event with
  | intcInterrupt => exact intcInterrupt_serves inv met
  | dmacInterrupt => exact dmacInterrupt_serves inv
  | _ => trivial

def resetState : InterruptState :=
  { intcMask := 0x4
    intcStat := 0x7
    dStat := 0x200020
    savedIntcMask := 0
    savedDmacMask := 0
    intcHandler := fun _ => none
    dmacHandler := fun _ => none
    dmacUsegHandler := fun _ => none
    intcRequested := fun _ => false
    dmacRequested := fun _ => false }

theorem timer_served : ∃ state,
    (interruptMachine resetState).Reach StepsRight state ∧
      (intcInterrupt state).1 = [.kernel 9 1000] ∧
      (dmacInterrupt state).1 = [.useg 5 2000] ∧
      MasksRight state ∧ ∀ event, StepsRight state event → ServesRight state event := by
  have followed : ((interruptMachine resetState).follow StepsRight
      [.intcEnable 2, .intcDisable 2, .intcRegister 9 (some 1000), .intcEnable 9,
        .dmacEnable 5, .dmacEnable 6, .sysEnable 6, .sysDisable 6, .sysAddHandler 5 (some 2000),
        .intcRaise 9, .dmacRaise 5, .dmacRaise 6]
      (interruptMachine resetState).initial).map
        (fun state => decide ((intcInterrupt state).1 = [.kernel 9 1000] ∧
          (dmacInterrupt state).1 = [.useg 5 2000])) = some true := by
    decide +kernel
  obtain ⟨state, isState, seen⟩ := Option.map_eq_some_iff.mp followed
  obtain ⟨intcCalls, dmacCalls⟩ := of_decide_eq_true seen
  have reached := Machine.Reach.initial.follow _ isState
  exact ⟨state, reached, intcCalls, dmacCalls, interrupts_right resetState state reached⟩

/-- Enabling a second source of the INTC switches the first one off, and the
system call enables no channel. -/
theorem interrupts_wrong :
    (∃ state, (interruptMachine resetState).Reach (fun _ _ => True) state ∧
      state.savedIntcMask = 3 ∧ state.intcMask = 2 ∧ ¬ MasksRight state) ∧
    ∃ state, (interruptMachine resetState).Reach (fun _ _ => True) state ∧
      state.dmacRequested 5 = true ∧ state.dStat.getLsbD 21 = false ∧
        ¬ MasksRight state := by
  constructor
  · have followed : ((interruptMachine resetState).follow (fun _ _ => True)
        [.intcEnable 0, .intcEnable 1] (interruptMachine resetState).initial).map
          (fun state => decide (state.savedIntcMask = 3 ∧ state.intcMask = 2)) = some true := by
      decide +kernel
    obtain ⟨state, isState, seen⟩ := Option.map_eq_some_iff.mp followed
    obtain ⟨saved, mask⟩ := of_decide_eq_true seen
    refine ⟨state, Machine.Reach.initial.follow _ isState, saved, mask, fun right => ?_⟩
    have same := right.intcSaved
    rw [saved, mask] at same
    exact absurd same (by decide)
  · have followed : ((interruptMachine resetState).follow (fun _ _ => True)
        [.sysEnable 5] (interruptMachine resetState).initial).map
          (fun state => decide (state.dmacRequested 5 = true ∧
            state.dStat.getLsbD 21 = false)) = some true := by
      decide +kernel
    obtain ⟨state, isState, seen⟩ := Option.map_eq_some_iff.mp followed
    obtain ⟨requested, disabled⟩ := of_decide_eq_true seen
    refine ⟨state, Machine.Reach.initial.follow _ isState, requested, disabled,
      fun right => ?_⟩
    have enabled := right.dmacEnabled 5 (by decide)
    rw [requested] at enabled
    exact absurd (enabled.symm.trans disabled) (by decide)

end KernelReloaded.Interrupts
