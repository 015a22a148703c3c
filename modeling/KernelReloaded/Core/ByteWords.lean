/-
Words as sequences of bytes, the least significant first, and a memory of bytes at
32-bit addresses.

A word is taken apart by `byteAt` and put together by `ofBytes`.  A load and a store
of it again move as many bytes.
-/

import Mathlib.Tactic.Common
import Mathlib.Algebra.Group.Nat.Defs
import KernelReloaded.Core.Memory

namespace KernelReloaded.ByteWords

open KernelReloaded.Memory (Byte)

abbrev Word := BitVec 32

def byteAt {width : Nat} (word : BitVec width) (index : Nat) : Byte :=
  word.extractLsb' (8 * index) 8

theorem width_succ (count : Nat) : 8 + 8 * count = 8 * (count + 1) := by
  rw [Nat.add_comm, Nat.mul_succ]

def ofBytes (bytes : Nat → Byte) : (count : Nat) → BitVec (8 * count)
  | 0 => 0#0
  | count + 1 => (bytes count ++ ofBytes bytes count).cast (width_succ count)

variable {width count : Nat}

theorem getLsbD_ofBytes (bytes : Nat → Byte) (count index : Nat) :
    (ofBytes bytes count).getLsbD index =
      (decide (index < 8 * count) && (bytes (index / 8)).getLsbD (index % 8)) := by
  induction count with
  | zero => simp [ofBytes]
  | succ count ih =>
      rw [ofBytes, BitVec.getLsbD_cast, BitVec.getLsbD_append, ih]
      by_cases below : index < 8 * count
      · have inside : index < 8 * (count + 1) := by omega
        simp [below, inside]
      · by_cases inside : index < 8 * (count + 1)
        · have place : index / 8 = count := by omega
          have rest : index - 8 * count = index % 8 := by omega
          simp [below, inside, place, rest]
        · have large : 8 ≤ index - 8 * count := by omega
          simp [below, inside, BitVec.getLsbD_of_ge _ _ large]

theorem getLsbD_byteAt (word : BitVec width) (index bit : Nat) :
    (byteAt word index).getLsbD bit =
      (decide (bit < 8) && word.getLsbD (8 * index + bit)) := by
  rw [byteAt, BitVec.getLsbD_extractLsb']

theorem byteAt_ofBytes (bytes : Nat → Byte) {index : Nat} (inside : index < count) :
    byteAt (ofBytes bytes count) index = bytes index := by
  apply BitVec.eq_of_getLsbD_eq
  intro bit small
  have below : 8 * index + bit < 8 * count := by omega
  have place : (8 * index + bit) / 8 = index := by omega
  have rest : (8 * index + bit) % 8 = bit := by omega
  rw [getLsbD_byteAt, getLsbD_ofBytes, place, rest]
  simp [small, below]

theorem eq_of_byteAt {left right : BitVec (8 * count)}
    (same : ∀ index < count, byteAt left index = byteAt right index) :
    left = right := by
  apply BitVec.eq_of_getLsbD_eq
  intro bit inside
  have equal := congrArg (fun byte => byte.getLsbD (bit % 8))
    (same (bit / 8) (by omega))
  have place : 8 * (bit / 8) + bit % 8 = bit := by omega
  have small : bit % 8 < 8 := by omega
  simpa only [getLsbD_byteAt, place, small, decide_true, Bool.true_and] using equal

theorem ofBytes_congr {left right : Nat → Byte}
    (same : ∀ index < count, left index = right index) :
    ofBytes left count = ofBytes right count := by
  apply eq_of_byteAt
  intro index inside
  rw [byteAt_ofBytes _ inside, byteAt_ofBytes _ inside, same index inside]

/-! ### A memory -/

abbrev Bytes := Word → Byte

def load (memory : Bytes) (address : Word) (count : Nat) : BitVec (8 * count) :=
  ofBytes (fun index => memory (address + BitVec.ofNat 32 index)) count

def store (memory : Bytes) (address : Word) (count : Nat) (word : BitVec (8 * count)) :
    Bytes :=
  fun cell =>
    if (cell - address).toNat < count then byteAt word (cell - address).toNat
    else memory cell

theorem byteAt_load (memory : Bytes) (address : Word) {index : Nat}
    (inside : index < count) :
    byteAt (load memory address count) index =
      memory (address + BitVec.ofNat 32 index) :=
  byteAt_ofBytes _ inside

theorem load_one (memory : Bytes) (address : Word) :
    load memory address 1 = memory address := by
  have whole := byteAt_load memory address Nat.one_pos
  simpa [byteAt] using whole

/-- `memory` with `count` bytes from `source` on put to `dest`. -/
def moved (memory : Bytes) (dest source : Word) (count : Nat) : Bytes :=
  fun cell =>
    if (cell - dest).toNat < count then memory (source + (cell - dest))
    else memory cell

/-- `memory` with `count` bytes from `dest` on given by their index. -/
def filled (memory : Bytes) (dest : Word) (count : Nat) (bytes : Nat → Byte) :
    Bytes :=
  fun cell =>
    if (cell - dest).toNat < count then bytes (cell - dest).toNat
    else memory cell

/-- No byte of the one block is one of the other. -/
def Disjoint (dest source : Word) (count : Nat) : Prop :=
  ∀ first < count, ∀ second < count,
    dest + BitVec.ofNat 32 first ≠ source + BitVec.ofNat 32 second

/-- Blocks that do not run over the end of the addresses. -/
theorem disjoint_of_le {dest source : Word} {count : Nat}
    (before : dest.toNat + count ≤ source.toNat)
    (fits : source.toNat + count ≤ 4294967296) : Disjoint dest source count := by
  intro first firstInside second secondInside same
  have equal := congrArg BitVec.toNat same
  rw [BitVec.toNat_add, BitVec.toNat_add, BitVec.toNat_ofNat, BitVec.toNat_ofNat] at equal
  omega

theorem moved_zero (memory : Bytes) (dest source : Word) :
    moved memory dest source 0 = memory := by
  funext cell
  simp [moved]

/-- The distance of a cell to a place further on. -/
theorem toNat_sub_add (cell dest : Word) {done : Nat} (small : done < 4294967296) :
    (cell - (dest + BitVec.ofNat 32 done)).toNat =
      if done ≤ (cell - dest).toNat then (cell - dest).toNat - done
      else (cell - dest).toNat + 4294967296 - done := by
  have bound := (cell - dest).isLt
  rw [← BitVec.sub_sub, BitVec.toNat_sub, BitVec.toNat_ofNat]
  split <;> omega

theorem store_filled (memory : Bytes) (dest : Word) {done : Nat}
    (bytes : Nat → Byte) {word : BitVec (8 * count)}
    (isWord : ∀ index < count, byteAt word index = bytes (done + index))
    (fits : done + count ≤ 4294967296) :
    store (filled memory dest done bytes) (dest + BitVec.ofNat 32 done) count word =
      filled memory dest (done + count) bytes := by
  funext cell
  have bound := (cell - dest).isLt
  by_cases small : done < 4294967296
  · rw [store, toNat_sub_add cell dest small, filled, filled]
    split
    case isTrue behind =>
      by_cases inside : (cell - dest).toNat < done + count
      · rw [if_pos (by omega), if_pos inside, isWord _ (by omega),
          Nat.add_sub_of_le behind]
      · rw [if_neg (by omega), if_neg (by omega), if_neg inside]
    case isFalse before =>
      rw [if_neg (by omega), if_pos (by omega), if_pos (by omega)]
  · have none : count = 0 := by omega
    subst none
    simp [store, filled]

theorem moved_eq_filled (memory : Bytes) (dest source : Word) (count : Nat) :
    moved memory dest source count =
      filled memory dest count fun index => memory (source + BitVec.ofNat 32 index) := by
  funext cell
  rw [moved, filled, BitVec.ofNat_toNat, BitVec.setWidth_eq]

/-- The source of a copy is unchanged while it goes on. -/
theorem moved_source {memory : Bytes} {dest source : Word} {total done index : Nat}
    (apart : Disjoint dest source total) (before : done ≤ total)
    (inside : index < total) :
    moved memory dest source done (source + BitVec.ofNat 32 index) =
      memory (source + BitVec.ofNat 32 index) := by
  apply if_neg
  intro within
  apply apart _ (Nat.lt_of_lt_of_le within before) index inside
  rw [BitVec.ofNat_toNat, BitVec.setWidth_eq, BitVec.add_comm, BitVec.sub_add_cancel]

theorem load_moved {memory : Bytes} {dest source : Word} {total done place : Nat}
    (apart : Disjoint dest source total) (before : done ≤ total)
    (inside : place + count ≤ total) :
    load (moved memory dest source done) (source + BitVec.ofNat 32 place) count =
      load memory (source + BitVec.ofNat 32 place) count := by
  apply ofBytes_congr
  intro index below
  rw [BitVec.add_assoc, ← BitVec.ofNat_add]
  exact moved_source apart before (by omega)

/-- One word of a copy. -/
theorem store_moved {dest : Word} (memory : Bytes) (source : Word) {done : Nat}
    (fits : done + count ≤ 4294967296) :
    store (moved memory dest source done) (dest + BitVec.ofNat 32 done) count
        (load memory (source + BitVec.ofNat 32 done) count) =
      moved memory dest source (done + count) := by
  rw [moved_eq_filled memory dest source (done + count),
    ← store_filled memory dest _ _ fits, ← moved_eq_filled]
  intro index inside
  rw [byteAt_load _ _ inside, BitVec.add_assoc, ← BitVec.ofNat_add]

/-! ### Places and counters -/

theorem add_ofNat_add (place : Word) (done more : Nat) :
    place + BitVec.ofNat 32 done + BitVec.ofNat 32 more =
      place + BitVec.ofNat 32 (done + more) := by
  rw [BitVec.add_assoc, BitVec.ofNat_add]

theorem ofNat_sub_ofNat {left less : Nat} (enough : less ≤ left) :
    BitVec.ofNat 32 left - BitVec.ofNat 32 less = BitVec.ofNat 32 (left - less) := by
  rw [BitVec.sub_eq_iff_eq_add, ← BitVec.ofNat_add, Nat.sub_add_cancel enough]

theorem mod_add_ofNat {place : Word} {done unit : Nat} (divides : unit ∣ 4294967296)
    (isAligned : place.toNat % unit = 0) (steps : unit ∣ done) :
    (place + BitVec.ofNat 32 done).toNat % unit = 0 := by
  rw [BitVec.toNat_add, BitVec.toNat_ofNat, Nat.add_mod_mod]
  exact Nat.mod_eq_zero_of_dvd ((Nat.dvd_mod_iff divides).mpr
    (Nat.dvd_add (Nat.dvd_of_mod_eq_zero isAligned) steps))

end KernelReloaded.ByteWords
