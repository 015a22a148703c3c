/-
Blocks of memory at 32-bit addresses.

A block is an address and a number of bytes, and it may go around the end of the
address space.  Blocks are compared by the distances from a common base.
-/

import Mathlib.Tactic.Common

namespace KernelReloaded.WordBlocks

abbrev Word := BitVec 32

/-- The address is one of `count` bytes from `first` on. -/
def Within (first : Word) (count : Nat) (address : Word) : Prop :=
  (address - first).toNat < count

instance (first : Word) (count : Nat) (address : Word) :
    Decidable (Within first count address) :=
  inferInstanceAs (Decidable (_ < _))

def Inside (first : Word) (count : Nat) (outer : Word) (room : Nat) : Prop :=
  ∀ address, Within first count address → Within outer room address

def Apart (first : Word) (count : Nat) (other : Word) (more : Nat) : Prop :=
  ∀ address, Within first count address → ¬Within other more address

variable {base : Word} {place count other more room : Nat}

theorem toNat_distance (base : Word) (below : place < 4294967296) :
    (base + BitVec.ofNat 32 place - base).toNat = place := by
  rw [BitVec.add_comm, BitVec.add_sub_cancel, BitVec.toNat_ofNat,
    Nat.mod_eq_of_lt below]

theorem within_add_iff (base : Word) (fits : place + count ≤ 4294967296)
    (address : Word) :
    Within (base + BitVec.ofNat 32 place) count address ↔
      place ≤ (address - base).toNat ∧ (address - base).toNat < place + count := by
  have distance : address - (base + BitVec.ofNat 32 place) =
      address - base - BitVec.ofNat 32 place := by
    rw [BitVec.sub_sub]
  have bound := (address - base).isLt
  rw [Within, distance, BitVec.toNat_sub, BitVec.toNat_ofNat]
  omega

theorem within_later (after : place ≤ other) (below : other < 4294967296) :
    Within (base + BitVec.ofNat 32 place) count (base + BitVec.ofNat 32 other) ↔
      other < place + count := by
  have distance : base + BitVec.ofNat 32 other - (base + BitVec.ofNat 32 place) =
      BitVec.ofNat 32 other - BitVec.ofNat 32 place := by
    rw [← BitVec.sub_sub, BitVec.add_comm base, BitVec.add_sub_cancel]
  rw [Within, distance, BitVec.toNat_sub, BitVec.toNat_ofNat, BitVec.toNat_ofNat]
  omega

theorem within_base (below : place < 4294967296) :
    Within base count (base + BitVec.ofNat 32 place) ↔ place < count := by
  rw [Within, toNat_distance base below]

/-- A block that does not fill the address space holds none that goes around its
base. -/
theorem inside_iff (below : place < 4294967296) (some : 0 < count)
    (short : room < 4294967296) :
    Inside (base + BitVec.ofNat 32 place) count base room ↔
      place + count ≤ room := by
  constructor
  · intro inside
    by_contra beyond
    -- the last byte, or the one in front of the base
    obtain ⟨last, isLast⟩ : ∃ last, last = min (place + count - 1) 4294967295 :=
      ⟨_, rfl⟩
    have within := inside (base + BitVec.ofNat 32 last)
      ((within_later (by omega) (by omega)).mpr (by omega))
    rw [within_base (by omega)] at within
    omega
  · intro fits address within
    rw [within_add_iff base (by omega)] at within
    exact Nat.lt_of_lt_of_le within.2 fits

theorem apart_iff (fits : place + count ≤ 4294967296)
    (otherFits : other + more ≤ 4294967296) (some : 0 < count)
    (otherSome : 0 < more) :
    Apart (base + BitVec.ofNat 32 place) count (base + BitVec.ofNat 32 other)
        more ↔
      place + count ≤ other ∨ other + more ≤ place := by
  constructor
  · intro apart
    by_contra meet
    rw [not_or] at meet
    have first := (within_add_iff base fits
      (base + BitVec.ofNat 32 (max place other))).mpr
    have second := (within_add_iff base otherFits
      (base + BitVec.ofNat 32 (max place other))).mpr
    rw [toNat_distance base (by omega)] at first second
    exact apart _ (first (by omega)) (second (by omega))
  · intro order address inside within
    rw [within_add_iff base fits] at inside
    rw [within_add_iff base otherFits] at within
    omega

end KernelReloaded.WordBlocks
