/-
The files of a disc, as a client of the driver sees them.

A volume has the files themselves: handles with an extent and a position, and
bytes that come straight from the disc.  The driver answers like the volume: the
search of its table finds the handle, the arithmetic of its words does not
overflow, and what it takes from `s_Buffer` is what stands on the disc, a sector
kept from the last read included.
-/

import KernelReloaded.Core.Rounding
import KernelReloaded.Iop.DiscRead

namespace KernelReloaded.DiscFiles

open Memory (Byte Image)
open SlotMemory
open Simulation
open DiscRead

structure File where
  lba : Nat
  size : Nat
  pos : Nat

structure Volume where
  file : Fin 16 → File
  known : Fin 16 → Bool
  used : Fin 16 → Bool
  lastRead : Nat
  kept : Bool

/-- The sectors from one on, end to end. -/
def extent (disc : Disc) (lba : Nat) : Image :=
  fun place => disc.byte (lba + place / 2048) (place % 2048)

/-- The bytes of an extent from a position on. -/
def content (disc : Disc) (lba pos count : Nat) : List Byte :=
  slice (extent disc lba) pos count

def Volume.handle (volume : Volume) (fd : Word) : Option (Fin 16) :=
  if below : fd.toNat < 16 then
    if fd = 0 ∨ volume.known ⟨fd.toNat, below⟩ then some ⟨fd.toNat, below⟩
    else none
  else none

def Volume.setPos (volume : Volume) (index : Fin 16) (pos : Nat) : Volume :=
  { volume with
    file := Function.update volume.file index { volume.file index with pos } }

/-- The bytes a read of a file hands over. -/
def File.granted (file : File) (size : Word) : Nat :=
  min (min size.toNat (file.size - file.pos)) 16384

def File.firstSector (file : File) : Nat :=
  file.lba + file.pos / 2048

def File.lastSector (file : File) (size : Word) : Nat :=
  file.lba + (file.pos + file.granted size - 1) / 2048

/-- Where a seek leads.  One to before the start leads to the end. -/
def File.target (file : File) (offset : Word) : Whence → Option Nat
  | .set => some (place offset.toInt)
  | .cur => some (place (file.pos + offset.toInt))
  | .fromEnd => some (place (file.size + offset.toInt))
  | .other => none
where
  place (wanted : Int) : Nat := if wanted < 0 then file.size else min wanted.toNat file.size

/-- Whether the sector read last is still there after a search for a file. -/
def Volume.searched (format : Format) (volume : Volume) : Volume :=
  match format with
  | .iso => volume
  | .udf => { volume with kept := false }

def Volume.step (format : Format) (disc : Disc) (volume : Volume) :
    Event → Reply × Volume
  | .openFile none _ => (.error .ENOENT, volume.searched format)
  | .openFile (some (lba, size)) _ =>
      let volume := volume.searched format
      match firstFree volume.used with
      | none => (.error .ENFILE, volume)
      | some index =>
          (.handle index,
            { volume with
              used := Function.update volume.used index true
              known := Function.update volume.known index true
              file := Function.update volume.file index
                { lba := lba.toNat, size := size.toNat, pos := 0 } })
  | .lseek fd offset whence =>
      match volume.handle fd with
      | none => (.error .EBADF, volume)
      | some index =>
          match (volume.file index).target offset whence with
          | none => (.error .EINVAL, volume)
          | some pos => (.position pos, volume.setPos index pos)
  | .read fd size _ =>
      match volume.handle fd with
      | none => (.error .EBADF, volume)
      | some index =>
          let file := volume.file index
          let granted := file.granted size
          (.bytes (content disc file.lba file.pos granted),
            if granted = 0 then volume
            else
              { volume.setPos index (file.pos + granted) with
                lastRead := file.lastSector size
                kept := true })
  | .close fd =>
      match volume.handle fd with
      | none => (.error .EBADF, volume)
      | some index =>
          (.done, { volume with used := Function.update volume.used index false })
  | .search _ => (.done, { volume with kept := false })

/-- The drive takes the one try that brings data. -/
def delivers (format : Format) (drive : Drive) : Prop :=
  match format with
  | .iso => drive 0 (tryMode 0) = .accepted
  | .udf => drive 0 dvdReadMode = .accepted

/-- What the driver needs of an event: files inside the disc, sizes that are not
negative, and transfers that succeed.  After a search for a directory, one for a file
by `UDF_Open`, and at the start, a read may not go on in the sector that was read
last. -/
def Met (format : Format) (volume : Volume) : Event → Prop
  | .openFile (some (lba, size)) _ =>
      size.toNat < 2147483648 ∧ lba.toNat + size.toNat / 2048 < 4294967296
  | .read fd size drive =>
      size.toNat < 2147483648 ∧
        ∀ index, volume.handle fd = some index →
          let file := volume.file index
          0 < file.granted size →
            (file.firstSector = volume.lastRead → volume.kept = true) ∧
            (file.firstSector = volume.lastRead ∧
                file.lastSector size = file.firstSector ∨
              delivers format drive)
  | _ => True

instance deliversDecidable (format : Format) (drive : Drive) :
    Decidable (delivers format drive) := by
  cases format with
  | iso => exact inferInstanceAs (Decidable (_ = _))
  | udf => exact inferInstanceAs (Decidable (_ = _))

instance metDecidable (format : Format) (volume : Volume) :
    (event : Event) → Decidable (Met format volume event)
  | .openFile (some _) _ => inferInstanceAs (Decidable (_ ∧ _))
  | .read _ _ _ => inferInstanceAs (Decidable (_ ∧ ∀ _, _))
  | .openFile none _ => isTrue trivial
  | .lseek _ _ _ => isTrue trivial
  | .close _ => isTrue trivial
  | .search _ => isTrue trivial

def fresh : Volume where
  file := fun _ => { lba := 0, size := 0, pos := 0 }
  known := fun _ => false
  used := fun _ => false
  lastRead := 0
  kept := false

/-! ### The relation -/

/-- The units of the buffer and what fills one. -/
def stride : Format → Nat
  | .iso => 2048
  | .udf => 2064

def unit (disc : Disc) : Format → Nat → Nat → Byte
  | .iso => disc.byte
  | .udf => disc.raw

structure FileRel (known : Bool) (index : Fin 16) (entry : FDEntry) (file : File) :
    Prop where
  fd : entry.fd = if known then BitVec.ofNat 32 index else 0
  lba : entry.lba.toNat = file.lba
  size : entry.fileSize.toNat = file.size
  pos : entry.filePos.toNat = file.pos
  pos_le : file.pos ≤ file.size
  size_lt : file.size < 2147483648
  inside : file.lba + file.size / 2048 < 4294967296

structure Rel (format : Format) (disc : Disc) (driver : Driver) (volume : Volume) :
    Prop where
  files : ∀ index, FileRel (volume.known index) index (driver.fdTable index)
    (volume.file index)
  used : driver.fdUsed = volume.used
  lastSector : driver.lastSector.toNat = volume.lastRead
  buffer : volume.kept = true →
    Holds (stride format) (unit disc format) driver.buffer driver.lastBk.toNat
      volume.lastRead

theorem rel_started (format : Format) (disc : Disc) (buffer : Image)
    (mode : CdRMode) : Rel format disc (started buffer mode) fresh where
  files _ :=
    { fd := rfl, lba := rfl, size := rfl, pos := rfl, pos_le := Nat.le_refl 0,
      size_lt := Nat.two_pow_pos 31,
      inside := by dsimp only [fresh]; decide }
  used := rfl
  lastSector := rfl
  buffer kept := by cases kept

/-! ### Handles and positions -/

section

variable {format : Format} {disc : Disc} {driver : Driver} {volume : Volume}
  {index : Fin 16} {entry : FDEntry} {file : File} {known : Bool} {size : Word}

theorem toNat_ofNat_index (index : Fin 16) :
    (BitVec.ofNat 32 index).toNat = index := by
  rw [BitVec.toNat_ofNat]
  exact Nat.mod_eq_of_lt (by omega)

theorem Rel.lookupFD_eq (rel : Rel format disc driver volume) (fd : Word) :
    lookupFD fd driver = volume.handle fd := by
  rw [lookupFD, Volume.handle]
  by_cases zero : fd = 0
  · subst zero
    have first : (driver.fdTable 0).fd = 0 := by
      rw [(rel.files 0).fd]
      split <;> rfl
    rw [List.finRange_succ, List.find?_cons_of_pos (by simpa using first)]
    rfl
  · have entry_fd : ∀ index, (driver.fdTable index).fd = fd ↔
        index.val = fd.toNat ∧ volume.known index = true := by
      intro index
      rw [(rel.files index).fd]
      cases volume.known index with
      | false => simpa using Ne.symm zero
      | true => rw [if_pos rfl, ← BitVec.toNat_inj, toNat_ofNat_index, and_iff_left rfl]
    by_cases below : fd.toNat < 16
    · rw [dif_pos below]
      by_cases isKnown : volume.known ⟨fd.toNat, below⟩ = true
      · rw [if_pos (.inr isKnown)]
        have matching : ((List.finRange 16).find? fun index =>
            decide ((driver.fdTable index).fd = fd)).isSome = true := by
          rw [List.find?_isSome]
          exact ⟨_, List.mem_finRange _,
            decide_eq_true ((entry_fd _).mpr ⟨rfl, isKnown⟩)⟩
        obtain ⟨found, isFound⟩ := Option.isSome_iff_exists.mp matching
        have isIndex := (entry_fd found).mp (of_decide_eq_true (List.find?_some isFound :))
        rw [isFound]
        exact congrArg some (Fin.ext isIndex.1)
      · rw [if_neg (not_or.mpr ⟨zero, isKnown⟩), List.find?_eq_none]
        intro index _member isMatch
        obtain ⟨isIndex, known⟩ := (entry_fd index).mp (of_decide_eq_true isMatch)
        have same : index = ⟨fd.toNat, below⟩ := Fin.ext isIndex
        rw [same] at known
        exact isKnown known
    · rw [dif_neg below, List.find?_eq_none]
      intro index _member isMatch
      have isIndex := ((entry_fd index).mp (of_decide_eq_true isMatch)).1
      omega

theorem FileRel.granted_toNat (rel : FileRel known index entry file)
    (notNegative : size.toNat < 2147483648) :
    (entry.granted size).toNat = file.granted size := by
  have isSize := rel.size
  have isPos := rel.pos
  have pos_le := rel.pos_le
  have size_lt := rel.size_lt
  have sum : (entry.filePos + size).toNat = file.pos + size.toNat := by
    rw [BitVec.toNat_add, isPos]
    exact Nat.mod_eq_of_lt (by omega)
  have left : (entry.fileSize - entry.filePos).toNat = file.size - file.pos := by
    rw [BitVec.toNat_sub_of_le (by rw [BitVec.le_def]; omega), isSize, isPos]
  have inFile : ¬entry.fileSize < entry.filePos := by
    rw [BitVec.lt_def]
    omega
  have isLeast : (if entry.fileSize < entry.filePos + size then
      entry.fileSize - entry.filePos else size).toNat =
        min size.toNat (file.size - file.pos) := by
    by_cases beyond : entry.fileSize < entry.filePos + size
    · rw [if_pos beyond, left]
      rw [BitVec.lt_def] at beyond
      omega
    · rw [if_neg beyond]
      rw [BitVec.lt_def] at beyond
      omega
  rw [FDEntry.granted, if_neg inFile, File.granted]
  generalize (if entry.fileSize < entry.filePos + size then
    entry.fileSize - entry.filePos else size) = least at isLeast
  have least_lt : least.toNat < 2147483648 := by omega
  have isInt : least.toInt = least.toNat :=
    BitVec.toInt_eq_toNat_of_lt (by omega)
  rw [← isLeast]
  dsimp only
  by_cases nothing : least.toNat = 0
  · rw [if_pos (by rw [BitVec.sle_iff_toInt_le, isInt, nothing]; rfl), nothing]
    rfl
  · have some : ¬least.sle 0 = true := by
      rw [BitVec.sle_iff_toInt_le, isInt]
      simpa using nothing
    rw [if_neg some]
    have compare : BitVec.slt 16384 least = true ↔ 16384 < least.toNat := by
      rw [BitVec.slt_iff_toInt_lt, isInt]
      exact Int.ofNat_lt
    by_cases large : 16384 < least.toNat
    · rw [if_pos (compare.mpr large), Nat.min_eq_right (Nat.le_of_lt large)]
      rfl
    · rw [if_neg (mt compare.mp large), Nat.min_eq_left (Nat.not_lt.mp large)]

/-- A seek in words: what leaves them below or above ends behind the file. -/
theorem toNat_clipped (file : File) (base offset fileSize : Word)
    (isSize : fileSize.toNat = file.size) (small : file.size < 2147483648)
    (below : base.toNat < 2147483648) :
    (if fileSize < base + offset then fileSize else base + offset).toNat =
      File.target.place file (base.toNat + offset.toInt) := by
  have sum := BitVec.toNat_add base offset
  have isInt := BitVec.toInt_eq_toNat_cond offset
  have isLt := offset.isLt
  rw [File.target.place]
  by_cases beyond : fileSize < base + offset
  · rw [if_pos beyond, isSize]
    rw [BitVec.lt_def] at beyond
    split at isInt <;> split <;> omega
  · rw [if_neg beyond]
    rw [BitVec.lt_def] at beyond
    split at isInt <;> split <;> omega

theorem File.place_le (file : File) (wanted : Int) :
    File.target.place file wanted ≤ file.size := by
  rw [File.target.place]
  split <;> omega

end

/-! ### Sectors brought into the buffer -/

section

variable {disc : Disc} {state : Driver} {startSector numSectors : Word}
  {size : Nat} {source : Nat → Nat → Byte}
  {transfer : Word → Word → Nat → Driver → Driver}

theorem toNat_sectorCount {bytes : Word} (few : bytes.toNat < 2147483648) :
    (sectorCount bytes).toNat = (bytes.toNat + 2047) / 2048 := by
  have low : (bytes &&& 2047).toNat = bytes.toNat % 2048 :=
    Rounding.toNat_and_lowBits bytes (by decide : 11 ≤ 32)
  have high : (bytes >>> 11).toNat = bytes.toNat / 2048 := by
    rw [BitVec.toNat_ushiftRight, Nat.shiftRight_eq_div_pow]
  rw [sectorCount, BitVec.toNat_add, high]
  by_cases whole : bytes &&& 2047 = 0
  · rw [whole] at low
    rw [if_pos whole]
    change 0 = bytes.toNat % 2048 at low
    change (bytes.toNat / 2048 + 0) % 4294967296 = _
    omega
  · have part : bytes.toNat % 2048 ≠ 0 := by
      intro none
      exact whole (BitVec.eq_of_toNat_eq (low.trans none))
    rw [if_neg whole]
    change (bytes.toNat / 2048 + 1) % 4294967296 = _
    omega

/-- After a fetch the buffer begins with the sectors of the read, and the last of
them is the one the state names.  A sector kept from the last read may be the
first of them. -/
structure Fetched (size : Nat) (source : Nat → Nat → Byte) (start count : Nat)
    (state next : Driver) : Prop where
  fdTable : next.fdTable = state.fdTable
  fdUsed : next.fdUsed = state.fdUsed
  lastSector : next.lastSector.toNat = start + count - 1
  lastBk : next.lastBk.toNat = count - 1
  holds : ∀ slot, slot < count →
    Holds size source next.buffer slot (start + slot)

/-- The sector kept from the last read is moved to the front. -/
theorem holds_moved_first {lastBk startSector : Word} {buffer : Image}
    (kept : Holds size source buffer lastBk.toNat startSector.toNat) :
    Holds size source
      (if 0 < lastBk then copied 0 (size * lastBk.toNat) size buffer else buffer)
      0 startSector.toNat := by
  by_cases behind : 0 < lastBk
  · rw [if_pos behind]
    exact kept.copied_first
  · have isFirst : lastBk.toNat = 0 := by
      rw [BitVec.lt_def] at behind
      exact Nat.eq_zero_of_not_pos behind
    rw [if_neg behind]
    rwa [isFirst] at kept

/-- The read begins in the sector kept: the others are brought behind it. -/
theorem fetch_again_fetched
    (transfers : 1 < numSectors.toNat →
      ∀ first count apBuf state, ∃ mode, transfer first count apBuf state =
        { state with
          buffer := loaded size source first.toNat count.toNat apBuf state.buffer
          cdReadMode := mode })
    (again : startSector = state.lastSector)
    (kept : Holds size source state.buffer state.lastBk.toNat startSector.toNat)
    (some : 0 < numSectors.toNat)
    (fits : startSector.toNat + numSectors.toNat ≤ 4294967296) :
    Fetched size source startSector.toNat numSectors.toNat state
      (fetch size transfer startSector numSectors state) := by
  have first := holds_moved_first kept
  have lastSector : (startSector + numSectors - 1).toNat =
      startSector.toNat + numSectors.toNat - 1 := by
    bv_omega
  rw [fetch, if_pos again, if_pos again]
  by_cases more : 1 < numSectors
  · rw [if_pos (.inr ⟨rfl, more⟩)]
    rw [BitVec.lt_def] at more
    obtain ⟨mode, transferred⟩ := transfers more (startSector + 1)
      (numSectors - 1) (size * (1 : Word).toNat) _
    rw [transferred]
    exact
      { fdTable := rfl
        fdUsed := rfl
        lastSector := lastSector
        lastBk := by
          change (numSectors - 1).toNat = _
          bv_omega
        holds := by
          intro slot below
          rcases Nat.eq_zero_or_pos slot with rfl | behind
          · exact first.loaded_behind Nat.one_pos
          · have next : startSector.toNat + slot =
                (startSector + 1).toNat + (slot - 1) := by
              bv_omega
            have inside : slot < 1 + (numSectors - 1).toNat := by
              bv_omega
            rw [next]
            exact holds_loaded behind inside }
  · have single : numSectors.toNat = 1 := by
      rw [BitVec.lt_def] at more
      change ¬1 < numSectors.toNat at more
      omega
    rw [if_neg (by
      rintro (no | ⟨_, yes⟩)
      · cases no
      · exact more yes)]
    exact
      { fdTable := rfl
        fdUsed := rfl
        lastSector := lastSector
        lastBk := by rw [single]; rfl
        holds := by
          intro slot below
          rw [single] at below
          obtain rfl := Nat.lt_one_iff.mp below
          exact first }

theorem fetch_other_fetched
    (transfers : ∀ first count apBuf state, ∃ mode, transfer first count apBuf state =
        { state with
          buffer := loaded size source first.toNat count.toNat apBuf state.buffer
          cdReadMode := mode })
    (other : startSector ≠ state.lastSector)
    (some : 0 < numSectors.toNat)
    (fits : startSector.toNat + numSectors.toNat ≤ 4294967296) :
    Fetched size source startSector.toNat numSectors.toNat state
      (fetch size transfer startSector numSectors state) := by
  rw [fetch, if_neg other, if_neg other, if_pos (.inl rfl)]
  obtain ⟨mode, transferred⟩ := transfers (startSector + 0)
    (numSectors - 0) (size * (0 : Word).toNat) _
  rw [transferred]
  exact
    { fdTable := rfl
      fdUsed := rfl
      lastSector := by
        change (startSector + numSectors - 1).toNat = _
        bv_omega
      lastBk := by
        change (numSectors - 1).toNat = _
        bv_omega
      holds := by
        intro slot below
        have atSlot : Holds size source
            (loaded size source startSector.toNat numSectors.toNat (size * 0)
              state.buffer) slot (startSector.toNat + (slot - 0)) :=
          holds_loaded (Nat.zero_le slot) (by omega)
        simpa using atSlot }

theorem fetch_fetched
    (transfers : 1 < numSectors.toNat ∨ startSector ≠ state.lastSector →
      ∀ first count apBuf state, ∃ mode, transfer first count apBuf state =
        { state with
          buffer := loaded size source first.toNat count.toNat apBuf state.buffer
          cdReadMode := mode })
    (kept : startSector = state.lastSector →
      Holds size source state.buffer state.lastBk.toNat startSector.toNat)
    (some : 0 < numSectors.toNat)
    (fits : startSector.toNat + numSectors.toNat ≤ 4294967296) :
    Fetched size source startSector.toNat numSectors.toNat state
      (fetch size transfer startSector numSectors state) := by
  by_cases again : startSector = state.lastSector
  · exact fetch_again_fetched (fun more => transfers (.inl more)) again (kept again)
      some fits
  · exact fetch_other_fetched (transfers (.inr again)) again some fits

end

/-! ### Bytes taken from the buffer -/

section

variable {disc : Disc} {buffer : Image} {start count : Nat}

theorem extent_add (disc : Disc) (lba sectors place : Nat) :
    extent disc (lba + sectors) place = extent disc lba (2048 * sectors + place) := by
  rw [extent, extent, Nat.mul_add_mod, Nat.mul_add_div (by decide), Nat.add_assoc]

/-- A file's bytes from the sector they begin in. -/
theorem content_eq (disc : Disc) (lba pos count : Nat) :
    content disc lba pos count =
      slice (extent disc (lba + pos / 2048)) (pos % 2048) count := by
  apply slice_congr
  intro offset _inside
  rw [extent_add, ← Nat.add_assoc, Nat.div_add_mod]

theorem slice_of_holds (offset size : Nat)
    (holds : ∀ slot, slot < count → Holds 2048 disc.byte buffer slot (start + slot))
    (inside : offset + size ≤ 2048 * count) :
    slice buffer offset size = slice (extent disc start) offset size := by
  apply slice_congr
  intro more less
  exact read_of_holds holds (by omega)

/-- Data of one raw sector. -/
theorem slice_of_raw (slot place more : Nat)
    (holds : ∀ slot, slot < count → Holds 2064 disc.raw buffer slot (start + slot))
    (below : 0 < more → slot < count) (inside : place + more ≤ 2048) :
    slice buffer (2064 * slot + (place + 12)) more =
      slice (extent disc start) (2048 * slot + place) more := by
  apply slice_congr
  intro offset less
  have within : place + offset < 2048 := by omega
  have isPlace : 2064 * slot + (place + 12) + offset =
      2064 * slot + (place + offset + 12) := by
    omega
  rw [isPlace, holds slot (below (by omega)) _ (by omega), Disc.raw,
    if_pos (by omega), Nat.add_assoc (2048 * slot), ← extent_add, extent,
    Nat.div_eq_of_lt within, Nat.mod_eq_of_lt within]
  rfl

theorem gathered_of_holds {offset : Nat} (size : Nat)
    (holds : ∀ slot, slot < count → Holds 2064 disc.raw buffer slot (start + slot))
    (first : offset < 2048) (inside : offset + size ≤ 2048 * count) :
    gathered buffer offset size = slice (extent disc start) offset size := by
  have isFirst : min (2060 - (offset + 12)) size = min (2048 - offset) size := by
    omega
  have near : slice buffer (offset + 12) (min (2048 - offset) size) =
      slice (extent disc start) offset (min (2048 - offset) size) := by
    have part := slice_of_raw 0 offset (min (2048 - offset) size) holds (by omega)
      (by omega)
    simpa only [Nat.mul_zero, Nat.zero_add] using part
  rw [gathered, isFirst, near]
  by_cases fewer : size ≤ 2048 - offset
  · rw [Nat.min_eq_right fewer, Nat.sub_self, Nat.zero_div, Nat.zero_mod]
    exact (List.append_nil _).trans (List.append_nil _)
  · rw [Nat.min_eq_left (Nat.le_of_not_le fewer)]
    generalize isRest : size - (2048 - offset) = rest
    have isSize : size = 2048 - offset + (2048 * (rest / 2048) + rest % 2048) := by
      rw [Nat.div_add_mod]
      omega
    have begins : offset + (2048 - offset) = 2048 := by omega
    have far : slice buffer (2064 * (rest / 2048 + 1) + 12) (rest % 2048) =
        slice (extent disc start) (2048 + 2048 * (rest / 2048)) (rest % 2048) := by
      rw [Nat.add_comm 2048, ← Nat.mul_succ]
      exact slice_of_raw _ 0 _ holds (by omega) (by omega)
    have middle : ∀ sector, sector ∈ List.range (rest / 2048) →
        slice buffer (2064 * (sector + 1) + 12) 2048 =
          slice (extent disc start) (2048 + 2048 * sector) 2048 := by
      intro sector member
      have below := List.mem_range.mp member
      rw [Nat.add_comm 2048, ← Nat.mul_succ]
      exact slice_of_raw _ 0 _ holds (by omega) (by omega)
    rw [List.flatMap_congr middle, far, ← slice_mul, List.append_assoc, ← slice_add]
    have joined := slice_add (extent disc start) offset (2048 - offset)
      (2048 * (rest / 2048) + rest % 2048)
    rw [begins, ← isSize] at joined
    exact joined.symm

end

/-! ### One event -/

section

variable {format : Format} {disc : Disc} {driver next : Driver} {volume : Volume}
  {index : Fin 16} {entry : FDEntry} {file : File} {known : Bool}
  {size granted : Word} {pos : Nat} {filePos : Word}

theorem FileRel.startSector_toNat (rel : FileRel known index entry file) :
    (entry.lba + (entry.filePos >>> 11)).toNat = file.firstSector := by
  have pos_le := rel.pos_le
  have inside := rel.inside
  rw [BitVec.toNat_add, BitVec.toNat_ushiftRight, Nat.shiftRight_eq_div_pow, rel.lba,
    rel.pos, File.firstSector]
  exact Nat.mod_eq_of_lt (by omega)

theorem FileRel.offSector_toNat (rel : FileRel known index entry file) :
    (entry.filePos &&& 0x7FF).toNat = file.pos % 2048 := by
  rw [← rel.pos]
  exact Rounding.toNat_and_lowBits entry.filePos (by decide : 11 ≤ 32)

theorem FileRel.numSectors_toNat (rel : FileRel known index entry file)
    (isGranted : granted.toNat = file.granted size) :
    (sectorCount ((entry.filePos &&& 0x7FF) + granted)).toNat =
      (file.pos % 2048 + file.granted size + 2047) / 2048 := by
  have few : file.granted size ≤ 16384 := Nat.min_le_right ..
  have sum : ((entry.filePos &&& 0x7FF) + granted).toNat =
      file.pos % 2048 + file.granted size := by
    rw [BitVec.toNat_add, rel.offSector_toNat, isGranted]
    exact Nat.mod_eq_of_lt (by omega)
  rw [toNat_sectorCount (by omega), sum]

theorem File.lastSector_eq (file : File) (some : 0 < file.granted size) :
    file.lastSector size = file.firstSector +
      (file.pos % 2048 + file.granted size + 2047) / 2048 - 1 := by
  rw [File.lastSector, File.firstSector]
  omega

theorem File.granted_le (file : File) (size : Word) :
    file.granted size ≤ file.size - file.pos := by
  rw [File.granted]
  omega

theorem FileRel.setPos (rel : FileRel known index entry file)
    (isPos : filePos.toNat = pos) (inFile : pos ≤ file.size) :
    FileRel known index { entry with filePos } { file with pos } where
  fd := rel.fd
  lba := rel.lba
  size := rel.size
  pos := isPos
  pos_le := inFile
  size_lt := rel.size_lt
  inside := rel.inside

theorem Rel.setPos (rel : Rel format disc driver volume)
    (isPos : filePos.toNat = pos) (inFile : pos ≤ (volume.file index).size) :
    Rel format disc (driver.setPos index filePos) (volume.setPos index pos) where
  files other := by
    rw [Driver.setPos, Volume.setPos]
    by_cases same : other = index
    · subst same
      simpa using (rel.files other).setPos isPos inFile
    · simpa [Function.update_of_ne same] using rel.files other
  used := rel.used
  lastSector := rel.lastSector
  buffer := rel.buffer

/-- What a fetch for a read leaves, with the position after the read. -/
theorem Rel.fetched (rel : Rel format disc driver volume)
    (some : 0 < (volume.file index).granted size)
    (fetched : Fetched (stride format) (unit disc format)
      (volume.file index).firstSector
      (((volume.file index).pos % 2048 + (volume.file index).granted size + 2047) /
        2048) driver next)
    (isPos : filePos.toNat =
      (volume.file index).pos + (volume.file index).granted size) :
    Rel format disc (next.setPos index filePos)
      { volume.setPos index
          ((volume.file index).pos + (volume.file index).granted size) with
        lastRead := (volume.file index).lastSector size
        kept := true } := by
  have within := (volume.file index).granted_le size
  have pos_le := (rel.files index).pos_le
  have inFile : (volume.file index).pos + (volume.file index).granted size ≤
      (volume.file index).size := by
    omega
  have moved := rel.setPos isPos inFile
  have isLast := (volume.file index).lastSector_eq some
  refine
    { files := ?_
      used := fetched.fdUsed.trans rel.used
      lastSector := fetched.lastSector.trans isLast.symm
      buffer := fun _ => ?_ }
  · intro other
    have atOther := moved.files other
    rw [Driver.setPos] at atOther ⊢
    rw [fetched.fdTable]
    exact atOther
  · have holds := fetched.holds
      (((volume.file index).pos % 2048 + (volume.file index).granted size + 2047) /
        2048 - 1) (by omega)
    change Holds _ _ next.buffer next.lastBk.toNat _
    rw [fetched.lastBk, isLast]
    rwa [← Nat.add_sub_assoc (by omega)] at holds

theorem delivers_of_met {drive : Drive} {fd : Word}
    (rel : Rel format disc driver volume) (isHandle : volume.handle fd = some index)
    (met : Met format volume (.read fd size drive))
    (isGranted : granted.toNat = (volume.file index).granted size)
    (some : 0 < (volume.file index).granted size)
    (needed : 1 < (sectorCount
        (((driver.fdTable index).filePos &&& 0x7FF) + granted)).toNat ∨
      (driver.fdTable index).lba + ((driver.fdTable index).filePos >>> 11) ≠
        driver.lastSector) :
    delivers format drive := by
  have entry := rel.files index
  rcases (met.2 index isHandle some).2 with ⟨again, single⟩ | delivered
  · rw [entry.numSectors_toNat isGranted] at needed
    have isLast := (volume.file index).lastSector_eq some
    rcases needed with several | other
    · omega
    · refine absurd (BitVec.eq_of_toNat_eq ?_) other
      rw [entry.startSector_toNat, rel.lastSector, again]
  · exact delivered

theorem kept_of_met {drive : Drive} {fd : Word}
    (rel : Rel format disc driver volume) (isHandle : volume.handle fd = some index)
    (met : Met format volume (.read fd size drive))
    (some : 0 < (volume.file index).granted size)
    (again : (driver.fdTable index).lba + ((driver.fdTable index).filePos >>> 11) =
      driver.lastSector) :
    Holds (stride format) (unit disc format) driver.buffer driver.lastBk.toNat
      ((driver.fdTable index).lba + ((driver.fdTable index).filePos >>> 11)).toNat := by
  have isFirst := (rel.files index).startSector_toNat
  have isLast : (volume.file index).firstSector = volume.lastRead := by
    rw [← isFirst, again, rel.lastSector]
  rw [isFirst, isLast]
  exact rel.buffer ((met.2 index isHandle some).1 isLast)

theorem isoTransfers {drive : Drive} {needed : Prop}
    (delivered : needed → delivers .iso drive) (isNeeded : needed)
    (first count : Word) (apBuf : Nat) (state : Driver) :
    ∃ mode,
      { state with
        buffer := (readSect disc drive first count apBuf state.buffer).buffer
        cdReadMode := (readSect disc drive first count apBuf state.buffer).mode } =
      { state with
        buffer := loaded (stride .iso) (unit disc .iso) first.toNat count.toNat apBuf
          state.buffer
        cdReadMode := mode } := by
  have accepted : drive 0 (tryMode 0) = .accepted := delivered isNeeded
  rw [readSect_accepted accepted]
  exact ⟨_, rfl⟩

theorem udfTransfers {drive : Drive} {needed : Prop}
    (delivered : needed → delivers .udf drive) (isNeeded : needed)
    (first count : Word) (apBuf : Nat) (state : Driver) :
    ∃ mode,
      { state with
        buffer := (readDVDVSectors disc drive first count apBuf state.buffer).2 } =
      { state with
        buffer := loaded (stride .udf) (unit disc .udf) first.toNat count.toNat apBuf
          state.buffer
        cdReadMode := mode } := by
  have accepted : drive 0 dvdReadMode = .accepted := delivered isNeeded
  rw [readDVDVSectors, accepted]
  exact ⟨state.cdReadMode, rfl⟩

theorem FileRel.moved_toNat (rel : FileRel known index entry file)
    (isGranted : granted.toNat = file.granted size) :
    (entry.filePos + granted).toNat = file.pos + file.granted size := by
  have within := file.granted_le size
  have pos_le := rel.pos_le
  have size_lt := rel.size_lt
  rw [BitVec.toNat_add, rel.pos, isGranted]
  exact Nat.mod_eq_of_lt (by omega)

/-- The sectors of a read have 32-bit numbers. -/
theorem FileRel.sectors_fit (rel : FileRel known index entry file)
    (isGranted : granted.toNat = file.granted size) (some : 0 < file.granted size) :
    (entry.lba + (entry.filePos >>> 11)).toNat +
        (sectorCount ((entry.filePos &&& 0x7FF) + granted)).toNat ≤ 4294967296 := by
  have within := file.granted_le size
  have inside := rel.inside
  rw [rel.startSector_toNat, rel.numSectors_toNat isGranted, File.firstSector]
  omega

theorem step_read_unknown {drive : Drive} {fd : Word}
    (rel : Rel format disc driver volume) (unknown : volume.handle fd = none) :
    (step format disc driver (.read fd size drive)).1 =
        (volume.step format disc (.read fd size drive)).1 ∧
      Rel format disc (step format disc driver (.read fd size drive)).2
        (volume.step format disc (.read fd size drive)).2 := by
  have looked := rel.lookupFD_eq fd
  rw [unknown] at looked
  cases format with
  | iso =>
      simp only [step, Volume.step, isoRead, looked, unknown, Reply.of]
      exact ⟨trivial, rel⟩
  | udf =>
      simp only [step, Volume.step, udfRead, looked, unknown, Reply.of]
      exact ⟨trivial, rel⟩

theorem step_read_nothing {drive : Drive} {fd : Word}
    (rel : Rel format disc driver volume) (isHandle : volume.handle fd = some index)
    (met : Met format volume (.read fd size drive))
    (nothing : (volume.file index).granted size = 0) :
    (step format disc driver (.read fd size drive)).1 =
        (volume.step format disc (.read fd size drive)).1 ∧
      Rel format disc (step format disc driver (.read fd size drive)).2
        (volume.step format disc (.read fd size drive)).2 := by
  have looked := rel.lookupFD_eq fd
  rw [isHandle] at looked
  have isGranted := (rel.files index).granted_toNat met.1
  have none : (driver.fdTable index).granted size = 0 :=
    BitVec.eq_of_toNat_eq (isGranted.trans nothing)
  cases format with
  | iso =>
      simp only [step, Volume.step, isoRead, looked, isHandle, Reply.of, none,
        nothing, if_true]
      exact ⟨rfl, rel⟩
  | udf =>
      simp only [step, Volume.step, udfRead, looked, isHandle, Reply.of, none,
        nothing, if_true]
      exact ⟨rfl, rel⟩

theorem step_read_some {drive : Drive} {fd : Word}
    (rel : Rel format disc driver volume) (isHandle : volume.handle fd = some index)
    (met : Met format volume (.read fd size drive))
    (some : 0 < (volume.file index).granted size) :
    (step format disc driver (.read fd size drive)).1 =
        (volume.step format disc (.read fd size drive)).1 ∧
      Rel format disc (step format disc driver (.read fd size drive)).2
        (volume.step format disc (.read fd size drive)).2 := by
  have looked := rel.lookupFD_eq fd
  rw [isHandle] at looked
  have entry := rel.files index
  have isGranted := entry.granted_toNat met.1
  have nothing : (volume.file index).granted size ≠ 0 := Nat.ne_of_gt some
  have notNone : (driver.fdTable index).granted size ≠ 0 := by
    intro none
    rw [none] at isGranted
    exact nothing isGranted.symm
  have isPos := entry.moved_toNat isGranted
  have isFirst := entry.startSector_toNat
  have isCount := entry.numSectors_toNat isGranted
  have isOffset := entry.offSector_toNat
  have kept := kept_of_met rel isHandle met some
  have delivered := delivers_of_met rel isHandle met isGranted some
  have fits := entry.sectors_fit isGranted some
  have count_pos : 0 < (sectorCount (((driver.fdTable index).filePos &&& 0x7FF) +
      (driver.fdTable index).granted size)).toNat := by
    rw [isCount]
    omega
  cases format with
  | iso =>
      have fetched := fetch_fetched (isoTransfers delivered) kept count_pos fits
      rw [isFirst, isCount] at fetched
      have bytes := slice_of_holds ((volume.file index).pos % 2048)
        ((volume.file index).granted size) fetched.holds (by omega)
      simp only [step, Volume.step, isoRead, looked, isHandle, Reply.of,
        if_neg notNone, if_neg nothing, isOffset, isGranted]
      refine ⟨?_, rel.fetched some fetched isPos⟩
      rw [content_eq]
      exact congrArg Reply.bytes bytes
  | udf =>
      have fetched := fetch_fetched (udfTransfers delivered) kept count_pos fits
      rw [isFirst, isCount] at fetched
      have bytes := gathered_of_holds ((volume.file index).granted size)
        fetched.holds (Nat.mod_lt (volume.file index).pos (by decide)) (by omega)
      simp only [step, Volume.step, udfRead, looked, isHandle, Reply.of,
        if_neg notNone, if_neg nothing, isOffset, isGranted]
      refine ⟨?_, rel.fetched some fetched isPos⟩
      rw [content_eq]
      exact congrArg Reply.bytes bytes

/-- Both formats read what the volume holds. -/
theorem step_read {drive : Drive} {fd : Word} (rel : Rel format disc driver volume)
    (met : Met format volume (.read fd size drive)) :
    (step format disc driver (.read fd size drive)).1 =
        (volume.step format disc (.read fd size drive)).1 ∧
      Rel format disc (step format disc driver (.read fd size drive)).2
        (volume.step format disc (.read fd size drive)).2 := by
  cases isHandle : volume.handle fd with
  | none => exact step_read_unknown rel isHandle
  | some index =>
      rcases Nat.eq_zero_or_pos ((volume.file index).granted size) with nothing | some
      · exact step_read_nothing rel isHandle met nothing
      · exact step_read_some rel isHandle met some

theorem Rel.searched (rel : Rel format disc driver volume) (buffer : Image) :
    Rel format disc (driver.searched format buffer) (volume.searched format) := by
  cases format with
  | iso => exact rel
  | udf =>
      exact
        { files := rel.files
          used := rel.used
          lastSector := rel.lastSector
          buffer := fun kept => by cases kept }

theorem step_openFile {found : Option (Word × Word)} {searched : Image}
    (rel : Rel format disc driver volume)
    (met : Met format volume (.openFile found searched)) :
    (step format disc driver (.openFile found searched)).1 =
        (volume.step format disc (.openFile found searched)).1 ∧
      Rel format disc (step format disc driver (.openFile found searched)).2
        (volume.step format disc (.openFile found searched)).2 := by
  have rel := rel.searched searched
  rcases found with none | ⟨lba, size⟩
  · exact ⟨rfl, rel⟩
  · have used := rel.used
    simp only [step, Volume.step, openFile, allocFD]
    generalize driver.searched format searched = driver at *
    generalize volume.searched format = volume at *
    cases free : firstFree volume.used with
    | none =>
        simp only [used, free, Reply.of]
        exact ⟨trivial, rel⟩
    | some index =>
        simp only [used, free, Reply.of]
        refine ⟨trivial,
          { files := ?_
            used := rfl
            lastSector := rel.lastSector
            buffer := rel.buffer }⟩
        intro other
        by_cases same : other = index
        · subst same
          simp only [Function.update_self]
          exact
            { fd := rfl
              lba := rfl
              size := rfl
              pos := rfl
              pos_le := Nat.zero_le _
              size_lt := met.1
              inside := met.2 }
        · simpa only [Function.update_of_ne same] using rel.files other

theorem step_lseek (rel : Rel format disc driver volume) (fd offset : Word)
    (whence : Whence) :
    (step format disc driver (.lseek fd offset whence)).1 =
        (volume.step format disc (.lseek fd offset whence)).1 ∧
      Rel format disc (step format disc driver (.lseek fd offset whence)).2
        (volume.step format disc (.lseek fd offset whence)).2 := by
  have looked := rel.lookupFD_eq fd
  cases isHandle : volume.handle fd with
  | none =>
      rw [isHandle] at looked
      simp only [step, Volume.step, lseek, looked, isHandle, Reply.of]
      exact ⟨trivial, rel⟩
  | some index =>
      rw [isHandle] at looked
      have entry := rel.files index
      have size_lt := entry.size_lt
      have pos_le := entry.pos_le
      have seek : ∀ base : Word, base.toNat < 2147483648 →
          let moved := if (driver.fdTable index).fileSize < base + offset then
            (driver.fdTable index).fileSize else base + offset
          let target := File.target.place (volume.file index)
            (base.toNat + offset.toInt)
          Reply.position moved.toNat = .position target ∧
            Rel format disc (driver.setPos index moved) (volume.setPos index target) := by
        intro base below
        have isPos := toNat_clipped (volume.file index) base offset
          (driver.fdTable index).fileSize entry.size size_lt below
        exact ⟨congrArg Reply.position isPos,
          rel.setPos isPos ((volume.file index).place_le _)⟩
      cases whence with
      | set =>
          have moved := seek 0#32 (by decide)
          rw [BitVec.zero_add] at moved
          simp only [step, Volume.step, lseek, looked, isHandle, Reply.of, File.target]
          simpa using moved
      | cur =>
          have moved := seek (driver.fdTable index).filePos (by rw [entry.pos]; omega)
          rw [entry.pos] at moved
          simp only [step, Volume.step, lseek, looked, isHandle, Reply.of, File.target]
          exact moved
      | fromEnd =>
          have moved := seek (driver.fdTable index).fileSize (by rw [entry.size]; omega)
          rw [entry.size] at moved
          simp only [step, Volume.step, lseek, looked, isHandle, Reply.of, File.target]
          exact moved
      | other =>
          simp only [step, Volume.step, lseek, looked, isHandle, Reply.of, File.target]
          exact ⟨trivial, rel⟩

theorem step_close (rel : Rel format disc driver volume) (fd : Word) :
    (step format disc driver (.close fd)).1 = (volume.step format disc (.close fd)).1 ∧
      Rel format disc (step format disc driver (.close fd)).2
        (volume.step format disc (.close fd)).2 := by
  have looked := rel.lookupFD_eq fd
  cases isHandle : volume.handle fd with
  | none =>
      rw [isHandle] at looked
      simp only [step, Volume.step, close, looked, isHandle, Reply.of]
      exact ⟨trivial, rel⟩
  | some index =>
      rw [isHandle] at looked
      simp only [step, Volume.step, close, looked, isHandle, Reply.of]
      exact ⟨trivial,
        { files := rel.files
          used := by rw [rel.used]
          lastSector := rel.lastSector
          buffer := rel.buffer }⟩

theorem step_related (rel : Rel format disc driver volume) (event : Event)
    (met : Met format volume event) :
    (step format disc driver event).1 = (volume.step format disc event).1 ∧
      Rel format disc (step format disc driver event).2 (volume.step format disc event).2 := by
  cases event with
  | openFile found searched => exact step_openFile rel met
  | lseek fd offset whence => exact step_lseek rel fd offset whence
  | read fd size drive => exact step_read rel met
  | close fd => exact step_close rel fd
  | search buffer =>
      exact ⟨rfl,
        { files := rel.files
          used := rel.used
          lastSector := rel.lastSector
          buffer := fun kept => by cases kept }⟩

end

theorem run_related {format : Format} {disc : Disc} {driver : Driver}
    {volume : Volume} (events : List Event) (related : Rel format disc driver volume)
    (meets : AllMet (Volume.step format disc) (Met format) events volume) :
    answers (step format disc) events driver =
        answers (Volume.step format disc) events volume ∧
      Rel format disc (final (step format disc) events driver)
        (final (Volume.step format disc) events volume) := by
  have kept : ∀ driver volume event, Rel format disc driver volume →
      Met format volume event →
        (step format disc driver event).1 = (volume.step format disc event).1 ∧
          Rel format disc (step format disc driver event).2
            (volume.step format disc event).2 :=
    fun _ _ event rel met => step_related rel event met
  exact simulates kept events related meets

/-- In every run that meets what the driver needs it answers like the volume: the
bytes of a read are those of the file. -/
theorem answers_eq_volume (format : Format) (disc : Disc) (buffer : Image)
    (mode : CdRMode) (events : List Event)
    (meets : AllMet (Volume.step format disc) (Met format) events fresh) :
    answers (step format disc) events (started buffer mode) =
      answers (Volume.step format disc) events fresh :=
  (run_related events (rel_started format disc buffer mode) meets).1

/-- Two files, the second read over the end of the sector where the first ended, and
a third one, whose search leaves other bytes in the buffer. -/
def shortRun : List Event :=
  [.openFile (some (20, 3)) fun _ => 9, .openFile (some (20, 5000)) fun _ => 9,
    .read 0 2 fun _ _ => .accepted, .lseek 1 2046 .set,
    .read 1 4 fun _ _ => .accepted, .close 0, .read 1 1 fun _ _ => .refused 1,
    .openFile (some (30, 9)) fun _ => 9, .read 0 4 fun _ _ => .accepted,
    .read 1 2 fun _ _ => .accepted, .read 1 1 fun _ _ => .refused 1]

def numberedDisc : Disc :=
  { byte := fun _ offset => BitVec.ofNat 8 offset, framing := fun _ _ => 0 }

theorem answers_eq_volume_shortRun :
    answers (step .udf numberedDisc) shortRun (started (fun _ => 0) (tryMode 0)) =
      answers (Volume.step .udf numberedDisc) shortRun fresh :=
  answers_eq_volume .udf numberedDisc (fun _ => 0) (tryMode 0) shortRun (by decide)

/-! ### A file read from one end to the other -/

/-- What the reads of a handle brought, one behind the other. -/
def brought (fd : Word) : List (Event × Reply) → List Byte
  | [] => []
  | (.read other _ _, .bytes data) :: rest =>
      if other = fd then data ++ brought fd rest else brought fd rest
  | _ :: rest => brought fd rest

/-- The event neither moves the position of the handle nor gives it away. -/
def Spares (fd : Word) : Event → Prop
  | .lseek other _ _ => other ≠ fd
  | .close other => other ≠ fd
  | _ => True

section

variable {volume : Volume} {index : Fin 16} {fd : Word}

structure Volume.HasOpen (volume : Volume) (index : Fin 16) (file : File) : Prop where
  file : volume.file index = file
  known : volume.known index = true
  used : volume.used index = true

theorem Volume.handle_eq_some {other : Word}
    (isHandle : volume.handle other = some index) : other = BitVec.ofNat 32 index := by
  rw [Volume.handle] at isHandle
  by_cases below : other.toNat < 16
  · rw [dif_pos below] at isHandle
    split at isHandle
    · rw [← Option.some.inj isHandle]
      exact BitVec.eq_of_toNat_eq (toNat_ofNat_index ⟨other.toNat, below⟩).symm
    · cases isHandle
  · rw [dif_neg below] at isHandle
    cases isHandle

theorem Volume.HasOpen.handle {file : File} (isOpen : volume.HasOpen index file) :
    volume.handle (BitVec.ofNat 32 index) = some index := by
  have below : (BitVec.ofNat 32 index).toNat < 16 := by
    rw [toNat_ofNat_index]
    exact index.isLt
  have same : (⟨(BitVec.ofNat 32 index).toNat, below⟩ : Fin 16) = index :=
    Fin.ext (toNat_ofNat_index index)
  rw [Volume.handle, dif_pos below, same, if_pos (.inr isOpen.known)]

theorem firstFree_some {used : Fin 16 → Bool} (found : firstFree used = some index) :
    used index = false := by
  simpa using List.find?_some found

theorem Volume.HasOpen.searched {file : File} (isOpen : volume.HasOpen index file)
    (format : Format) : (volume.searched format).HasOpen index file := by
  cases format with
  | iso => exact isOpen
  | udf => exact { file := isOpen.file, known := isOpen.known, used := isOpen.used }

theorem Volume.HasOpen.setPos_other {file : File} {found : Fin 16}
    (isOpen : volume.HasOpen index file) (differs : index ≠ found) (pos : Nat) :
    (volume.setPos found pos).HasOpen index file where
  file := by simpa only [Volume.setPos, Function.update_of_ne differs] using isOpen.file
  known := isOpen.known
  used := isOpen.used

/-- A free entry is not the one of the file. -/
theorem Volume.HasOpen.ne_free {file : File} {opened : Fin 16}
    (isOpen : volume.HasOpen index file) (free : firstFree volume.used = some opened) :
    index ≠ opened := by
  rintro rfl
  have isFree := firstFree_some free
  rw [isOpen.used] at isFree
  cases isFree

/-- The events that are not about the handle leave its file as it is. -/
theorem Volume.HasOpen.step_other {file : File} (isOpen : volume.HasOpen index file)
    (format : Format) (disc : Disc) (event : Event)
    (spares : Spares (BitVec.ofNat 32 index) event)
    (notRead : ∀ size drive, event ≠ .read (BitVec.ofNat 32 index) size drive) :
    (volume.step format disc event).2.HasOpen index file := by
  have apart : ∀ {other : Word} {found : Fin 16}, volume.handle other = some found →
      other ≠ BitVec.ofNat 32 index → index ≠ found := by
    rintro other found isHandle differs rfl
    exact differs (Volume.handle_eq_some isHandle)
  cases event with
  | openFile found searched =>
      have isOpen := isOpen.searched format
      rcases found with none | ⟨lba, size⟩
      · exact isOpen
      · simp only [Volume.step]
        generalize volume.searched format = volume at *
        cases free : firstFree volume.used with
        | none => exact isOpen
        | some opened =>
            have differs := isOpen.ne_free free
            exact
              { file := by simpa only [Function.update_of_ne differs] using isOpen.file
                known := by
                  simpa only [Function.update_of_ne differs] using isOpen.known
                used := by simpa only [Function.update_of_ne differs] using isOpen.used }
  | lseek other offset whence =>
      simp only [Volume.step]
      cases isHandle : volume.handle other with
      | none => exact isOpen
      | some found =>
          have differs := apart isHandle spares
          dsimp only
          cases (volume.file found).target offset whence with
          | none => exact isOpen
          | some pos => exact isOpen.setPos_other differs pos
  | read other size drive =>
      simp only [Volume.step]
      cases isHandle : volume.handle other with
      | none => exact isOpen
      | some found =>
          have differs : index ≠ found := by
            rintro rfl
            exact notRead size drive (by rw [Volume.handle_eq_some isHandle])
          dsimp only
          split
          · exact isOpen
          · have moved := isOpen.setPos_other differs
              ((volume.file found).pos + (volume.file found).granted size)
            exact { file := moved.file, known := moved.known, used := moved.used }
  | close other =>
      simp only [Volume.step]
      cases isHandle : volume.handle other with
      | none => exact isOpen
      | some found =>
          have differs := apart isHandle spares
          exact
            { file := isOpen.file
              known := isOpen.known
              used := by simpa only [Function.update_of_ne differs] using isOpen.used }
  | search buffer =>
      exact { file := isOpen.file, known := isOpen.known, used := isOpen.used }

theorem Volume.HasOpen.step_own {file : File} (isOpen : volume.HasOpen index file)
    (format : Format) (disc : Disc) (size : Word) (drive : Drive) :
    (volume.step format disc (.read (BitVec.ofNat 32 index) size drive)).1 =
        .bytes (content disc file.lba file.pos (file.granted size)) ∧
      (volume.step format disc (.read (BitVec.ofNat 32 index) size drive)).2.HasOpen index
        { file with pos := file.pos + file.granted size } := by
  simp only [Volume.step, isOpen.handle, isOpen.file]
  refine ⟨trivial, ?_⟩
  split
  next nothing =>
    rw [nothing]
    exact isOpen
  next some =>
    exact
      { file := by simp [Volume.setPos, isOpen.file]
        known := isOpen.known
        used := isOpen.used }

theorem content_add (disc : Disc) (lba pos near far : Nat) :
    content disc lba pos (near + far) =
      content disc lba pos near ++ content disc lba (pos + near) far :=
  slice_add _ pos near far

theorem brought_other {event : Event} {answer : Reply}
    (notRead : ∀ size drive, event ≠ .read fd size drive)
    (rest : List (Event × Reply)) :
    brought fd ((event, answer) :: rest) = brought fd rest := by
  cases event with
  | read other size drive =>
      have differs : other ≠ fd := by
        rintro rfl
        exact notRead size drive rfl
      cases answer with
      | bytes data => rw [brought, if_neg differs]
      | error _ | handle _ | position _ | done => rfl
  | openFile _ _ | lseek _ _ _ | close _ | search _ => rfl

theorem File.eq_size_of_none {file : File} {size : Word} (inFile : file.pos ≤ file.size)
    (some : size ≠ 0) (none : file.granted size = 0) : file.pos = file.size := by
  have positive : 0 < size.toNat := by
    apply Nat.pos_of_ne_zero
    intro zero
    exact some (BitVec.eq_of_toNat_eq zero)
  rw [File.granted] at none
  omega

/-- The reads of a file follow one another, whatever other files are used between
them.  The one that brings nothing comes at the end of the file. -/
theorem Volume.HasOpen.consecutive {file : File}
    (isOpen : volume.HasOpen index file) (format : Format) (disc : Disc)
    (events : List Event)
    (inFile : file.pos ≤ file.size)
    (spares : ∀ event ∈ events, Spares (BitVec.ofNat 32 index) event) :
    let pairs := events.zip (answers (Volume.step format disc) events volume)
    ∃ count, file.pos + count ≤ file.size ∧
      brought (BitVec.ofNat 32 index) pairs = content disc file.lba file.pos count ∧
      ∀ size drive, size ≠ 0 →
        (.read (BitVec.ofNat 32 index) size drive, .bytes []) ∈ pairs →
          file.pos + count = file.size := by
  induction events generalizing volume file with
  | nil =>
      refine ⟨0, inFile, rfl, ?_⟩
      intro size drive _some member
      cases member
  | cons event rest ih =>
      have sparesRest : ∀ event ∈ rest, Spares (BitVec.ofNat 32 index) event :=
        fun event member => spares event (List.mem_cons_of_mem _ member)
      by_cases own : ∃ size drive, event = .read (BitVec.ofNat 32 index) size drive
      · obtain ⟨size, drive, rfl⟩ := own
        obtain ⟨answered, opened⟩ := isOpen.step_own format disc size drive
        have within := file.granted_le size
        obtain ⟨count, fits, reads, ends⟩ :=
          ih opened (by dsimp only; omega) sparesRest
        dsimp only at fits reads ends ⊢
        rw [answers, List.zip_cons_cons, answered]
        refine ⟨file.granted size + count, by omega, ?_, ?_⟩
        · rw [brought, if_pos rfl, reads, content_add]
        · intro other otherDrive some member
          rcases List.mem_cons.mp member with same | later
          · obtain ⟨isRead, isAnswer⟩ := Prod.mk.inj same
            obtain ⟨_isHandle, rfl, _sameDrive⟩ := Event.read.inj isRead
            have none : file.granted other = 0 := by
              have lengths := congrArg List.length (Reply.bytes.inj isAnswer)
              rw [content, length_slice] at lengths
              exact lengths.symm
            have atEnd := file.eq_size_of_none inFile some none
            omega
          · rw [← Nat.add_assoc]
            exact ends other otherDrive some later
      · have notRead : ∀ size drive,
            event ≠ .read (BitVec.ofNat 32 index) size drive :=
          fun size drive isRead => own ⟨size, drive, isRead⟩
        have opened := isOpen.step_other format disc event
          (spares event List.mem_cons_self) notRead
        obtain ⟨count, fits, reads, ends⟩ := ih opened inFile sparesRest
        dsimp only at reads ends ⊢
        rw [answers, List.zip_cons_cons]
        refine ⟨count, fits, (brought_other notRead _).trans reads, ?_⟩
        intro size drive some member
        rcases List.mem_cons.mp member with same | later
        · exact absurd (Prod.mk.inj same).1.symm (notRead size drive)
        · exact ends size drive some later

theorem Volume.hasOpen_of_opened {format : Format} {disc : Disc} {lba size : Word}
    {searched : Image}
    (opened : (volume.step format disc
      (.openFile (some (lba, size)) searched)).1 = .handle index) :
    (volume.step format disc (.openFile (some (lba, size)) searched)).2.HasOpen index
      { lba := lba.toNat, size := size.toNat, pos := 0 } := by
  simp only [Volume.step] at opened ⊢
  generalize volume.searched format = volume at *
  cases free : firstFree volume.used with
  | none =>
      rw [free] at opened
      cases opened
  | some found =>
      rw [free] at opened
      obtain rfl := Reply.handle.inj opened
      exact
        { file := Function.update_self ..
          known := Function.update_self ..
          used := Function.update_self .. }

/-- From its opening on, whatever is done with other files between, the reads of a
file bring its bytes from the first on, each of them once.  A read that brings
nothing says that all of them came. -/
theorem reads_bring_file (format : Format) (disc : Disc) (buffer : Image)
    (mode : CdRMode) (before after : List Event) (lba size : Word) (searched : Image)
    (index : Fin 16)
    (meets : AllMet (Volume.step format disc) (Met format)
      (before ++ .openFile (some (lba, size)) searched :: after) fresh)
    (opened : (step format disc (final (step format disc) before (started buffer mode))
      (.openFile (some (lba, size)) searched)).1 = .handle index)
    (spares : ∀ event ∈ after, Spares (BitVec.ofNat 32 index) event) :
    let state := final (step format disc)
      (before ++ [.openFile (some (lba, size)) searched]) (started buffer mode)
    let pairs := after.zip (answers (step format disc) after state)
    ∃ count, count ≤ size.toNat ∧
      brought (BitVec.ofNat 32 index) pairs = content disc lba.toNat 0 count ∧
      ∀ wanted drive, wanted ≠ 0 →
        (.read (BitVec.ofNat 32 index) wanted drive, .bytes []) ∈ pairs →
          count = size.toNat := by
  have metBefore := (allMet_append before _ fresh).mp meets
  have related := (run_related before (rel_started format disc buffer mode) metBefore.1).2
  have openStep := step_related related _ metBefore.2.1
  rw [openStep.1] at opened
  have isOpen := Volume.hasOpen_of_opened opened
  have later := run_related after openStep.2 metBefore.2.2
  obtain ⟨count, fits, reads, ends⟩ :=
    isOpen.consecutive format disc after (Nat.zero_le _) spares
  dsimp only
  rw [final_append, final, final, later.1]
  rw [Nat.zero_add] at fits
  refine ⟨count, fits, reads, ?_⟩
  intro wanted drive some member
  have atEnd := ends wanted drive some member
  rwa [Nat.zero_add] at atEnd

end

theorem reads_bring_file_short :
    let disc : Disc :=
      { byte := fun _ offset => BitVec.ofNat 8 offset, framing := fun _ _ => 0 }
    let after : List Event :=
      [.read 0 2 fun _ _ => .accepted, .openFile (some (30, 9)) fun _ => 9,
        .read 1 4 fun _ _ => .accepted, .read 0 2 fun _ _ => .accepted,
        .read 0 2 fun _ _ => .refused 1]
    let state := final (step .iso disc) ([] ++ [.openFile (some (20, 3)) fun _ => 9])
      (started (fun _ => 0) (tryMode 0))
    let pairs := after.zip (answers (step .iso disc) after state)
    ∃ count, count ≤ 3 ∧
      brought (BitVec.ofNat 32 (0 : Fin 16)) pairs = content disc 20 0 count ∧
      ∀ wanted drive, wanted ≠ 0 →
        (.read (BitVec.ofNat 32 (0 : Fin 16)) wanted drive, .bytes []) ∈ pairs →
          count = 3 :=
  reads_bring_file .iso _ _ _ [] _ 20 3 _ 0 (by decide) rfl (by simp [Spares])

end KernelReloaded.DiscFiles
