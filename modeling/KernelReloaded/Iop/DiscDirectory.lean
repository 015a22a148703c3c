/-
Listing a directory of a disc: `ISO_DOpen` and `ISO_DRead` of src/iop/SMSCDVD.

A directory is a row of records.  Each begins with its length, none crosses the end
of a sector, and what is left of a sector behind its last record is zero.  The
driver looks at it through a window of 32 sectors and goes on to the next window
when it is through with one.
-/

import KernelReloaded.Core.CBytes
import KernelReloaded.Iop.DiscFiles

namespace KernelReloaded.DiscDirectory

open Memory (Byte Image le16 imageOfList)
open SlotMemory (slice loaded)
open CBytes
open DiscRead
open DiscFiles (extent)

def windowSectors : Nat := 32

structure DirCacheInfo where
  valid : Bool
  pathDepth : Nat
  sectorStart : Nat
  sectorNum : Nat
  cacheOffset : Nat
  cacheSize : Nat
  cache : Image

/-- `m_Length` of a record, a `short`. -/
def lengthAt (image : Image) (place : Nat) : Int :=
  (BitVec.ofNat 16 (le16 image place)).toInt

def DirCacheInfo.readWindow (disc : Disc) (drive : Drive) (info : DirCacheInfo)
    (cacheOffset : Nat) : DirCacheInfo :=
  let cacheSize := min windowSectors (info.sectorNum - cacheOffset)
  let done := readSect disc drive (BitVec.ofNat 32 (info.sectorStart + cacheOffset))
    (BitVec.ofNat 32 cacheSize) 0 info.cache
  { info with
    cacheOffset, cacheSize
    cache := done.buffer
    valid := done.answer }

/-- `CDVD_Cache_Dir` with the path of the cached directory and `CACHE_START`. -/
def DirCacheInfo.cacheStart (disc : Disc) (drive : Drive) (info : DirCacheInfo) :
    DirCacheInfo :=
  if info.cacheOffset = 0 then { info with valid := true }
  else info.readWindow disc drive 0

/-- `CDVD_Cache_Dir` with the path of the cached directory and `CACHE_NEXT`.  A
cache that is not valid is filled by a search for the path. -/
def DirCacheInfo.cacheNext (disc : Disc) (search : DirCacheInfo → DirCacheInfo)
    (drive : Drive) (info : DirCacheInfo) : DirCacheInfo :=
  if info.valid then info.readWindow disc drive (info.cacheOffset + info.cacheSize)
  else search info

/-- `m_FileProperties` says that the record is about a directory. -/
def isDirectory (record : Image) : Bool := record 25 &&& 0x02 != 0

def copyName (joliet : Bool) (record apName : Image) : Image :=
  let lLen := if joliet then (record 32).toNat / 2 else (record 32).toNat
  let copied : Image :=
    if joliet then fun place =>
      if place < lLen then record (33 + (2 * place + 1)) else apName place
    else strncpy apName (fun place => record (33 + place)) 128
  let ended := Function.update copied lLen 0
  -- the version of a file name
  if isDirectory record then ended else strtok 0x3B 256 ended

/-- The part of `io_dirent_t` that is filled in. -/
structure Dirent where
  directory : Bool
  name : Image

def parentName (name : Image) : Image := fun place =>
  if place < 2 then 0x2E else if place = 2 then 0 else name place

structure Listing where
  info : DirCacheInfo
  /-- `m_EscapeSeq` of the volume is that of a Joliet disc. -/
  joliet : Bool
  /-- `s_tocEntryPointer`, as a distance from the cache. -/
  tocEntryPointer : Option Int
  dirEntry : Nat

def Listing.record (state : Listing) (pointer : Int) : Image := fun offset =>
  state.info.cache (pointer.toNat + offset)

inductive Failure
  | ENFILE
  | ENOENT
  | EPROTO
  deriving DecidableEq

/-- `ISO_DOpen` after the search for the path, which found the directory or not. -/
def isoDOpen (disc : Disc) (drive : Drive) (found : Bool) (info : DirCacheInfo)
    (state : Listing) : Except Failure Unit × Listing :=
  if state.tocEntryPointer.isSome then (.error .ENFILE, state)
  else if found = false then (.error .ENOENT, { state with info })
  else
    let info := info.cacheStart disc drive
    if info.valid = false then (.error .ENOENT, { state with info })
    else
      let first := lengthAt info.cache 0
      let pointer :=
        if info.pathDepth = 0 then first + lengthAt info.cache first.toNat else first
      (.ok (), { state with info, tocEntryPointer := some pointer, dirEntry := 0 })

def Listing.hand (state : Listing) (pointer : Int) (lpBuf : Dirent) :
    Dirent × Listing :=
  let record := state.record pointer
  ({ directory := isDirectory record
     name :=
       if state.dirEntry = 0 ∧ state.info.pathDepth ≠ 0 then parentName lpBuf.name
       else copyName state.joliet record lpBuf.name },
    { state with
      tocEntryPointer := some (pointer + lengthAt state.info.cache pointer.toNat)
      dirEntry := state.dirEntry + 1 })

/-- The loop of `ISO_DRead` over the windows.  The drive answers for each of them;
`none` where the rounds do not suffice. -/
def dreadLoop (disc : Disc) (search : DirCacheInfo → DirCacheInfo)
    (drive : Nat → Drive) (lpBuf : Dirent) :
    (rounds : Nat) → (pointer : Int) → Listing →
      Option (Except Failure Dirent × Listing)
  | 0, _, _ => none
  | rounds + 1, pointer, state =>
      let limit : Int := state.info.cacheSize * 2048
      let pointer :=
        if pointer < limit ∧ lengthAt state.info.cache pointer.toNat = 0 then
          (pointer / 2048 + 1) * 2048
        else pointer
      if pointer < limit then
        let handed := state.hand pointer lpBuf
        some (.ok handed.1, handed.2)
      else if state.info.cacheOffset + state.info.cacheSize < state.info.sectorNum then
        let info := state.info.cacheNext disc search
          (drive (state.info.cacheOffset + state.info.cacheSize))
        if info.valid = false then
          some (.error .ENOENT, { state with info, tocEntryPointer := some pointer })
        else dreadLoop disc search drive lpBuf rounds 0 { state with info }
      else some (.error .ENOENT, { state with tocEntryPointer := some pointer })

def isoDRead (disc : Disc) (search : DirCacheInfo → DirCacheInfo)
    (drive : Nat → Drive) (lpBuf : Dirent) (state : Listing) :
    Option (Except Failure Dirent × Listing) :=
  match state.tocEntryPointer with
  | none => some (.error .EPROTO, state)
  | some pointer =>
      dreadLoop disc search drive lpBuf (state.info.sectorNum + 1) pointer state

/-! ### Directories on a disc -/

structure Record where
  bytes : List Byte
  isLength : lengthAt (imageOfList bytes) 0 = bytes.length
  even : bytes.length % 2 = 0
  named : 33 + (imageOfList bytes 32).toNat ≤ bytes.length
  short : (imageOfList bytes 32).toNat ≤ 128

def totalLength (records : List Record) : Nat :=
  (records.flatMap Record.bytes).length

structure Sector where
  records : List Record
  some : records ≠ []
  fits : totalLength records ≤ 2048

def Sector.bytes (sector : Sector) : List Byte :=
  sector.records.flatMap Record.bytes ++
    List.replicate (2048 - totalLength sector.records) 0

def OnDisc (disc : Disc) (start : Nat) (sectors : List Sector) : Prop :=
  slice (extent disc start) 0 (2048 * sectors.length) = sectors.flatMap Sector.bytes

structure Entry where
  directory : Bool
  name : List Byte
  deriving DecidableEq

def Dirent.seen (dirent : Dirent) : Entry where
  directory := dirent.directory
  name := text dirent.name 0 256

def Record.name (joliet : Bool) (record : Record) : List Byte :=
  let image := imageOfList record.bytes
  let length := (image 32).toNat
  let whole :=
    if joliet then text (fun place => image (34 + 2 * place)) 0 (length / 2)
    else text (fun place => image (33 + place)) 0 length
  if isDirectory image then whole else firstToken 0x3B whole

def Record.entry (joliet : Bool) (record : Record) : Entry where
  directory := isDirectory (imageOfList record.bytes)
  name := record.name joliet

/-- The entries of some records.  The first of a directory that is not the root is
its parent. -/
def entries (joliet : Bool) (pathDepth dirEntry : Nat) : List Record → List Entry
  | [] => []
  | record :: rest =>
      (if dirEntry = 0 ∧ pathDepth ≠ 0 then
        { directory := isDirectory (imageOfList record.bytes), name := [0x2E, 0x2E] }
      else record.entry joliet) :: rest.map (Record.entry joliet)

/-- The entries of a directory, without the one for itself and, in the root, the one
for its parent. -/
def listed (joliet : Bool) (pathDepth : Nat) (sectors : List Sector) : List Entry :=
  entries joliet pathDepth 0
    ((sectors.flatMap Sector.records).drop (if pathDepth = 0 then 2 else 1))

section

variable {disc : Disc} {start : Nat} {sectors front behind : List Sector}
  {sector : Sector} {passed ahead : List Record} {record : Record}

theorem Record.length_pos (record : Record) : 33 ≤ record.bytes.length :=
  Nat.le_trans (Nat.le_add_right 33 _) record.named

theorem totalLength_append (first second : List Record) :
    totalLength (first ++ second) = totalLength first + totalLength second := by
  rw [totalLength, List.flatMap_append, List.length_append]
  rfl

theorem totalLength_even (records : List Record) : totalLength records % 2 = 0 := by
  induction records with
  | nil => rfl
  | cons record rest ih =>
      have even := record.even
      rw [totalLength, List.flatMap_cons, List.length_append]
      rw [totalLength] at ih
      omega

theorem Sector.length_bytes (sector : Sector) : sector.bytes.length = 2048 := by
  have fits := sector.fits
  rw [Sector.bytes, List.length_append, List.length_replicate]
  rw [totalLength] at fits ⊢
  omega

theorem length_flatMap_bytes (sectors : List Sector) :
    (sectors.flatMap Sector.bytes).length = 2048 * sectors.length := by
  induction sectors with
  | nil => rfl
  | cons sector rest ih =>
      rw [List.flatMap_cons, List.length_append, ih, sector.length_bytes,
        List.length_cons, Nat.mul_succ, Nat.add_comm]

theorem slice_append {Item : Type*} {memory : Nat → Item} {place : Nat}
    {first second : List Item}
    (same : slice memory place (first ++ second).length = first ++ second) :
    slice memory place first.length = first ∧
      slice memory (place + first.length) second.length = second := by
  rw [List.length_append, SlotMemory.slice_add] at same
  exact List.append_inj same (SlotMemory.length_slice ..)

theorem byte_of_slice {memory : Image} {place : Nat} {bytes : List Byte} (index : Nat)
    (same : slice memory place bytes.length = bytes) (inside : index < bytes.length) :
    memory (place + index) = imageOfList bytes index := by
  rw [imageOfList]
  conv => rhs; rw [← same]
  rw [slice, List.getD_eq_getElem?_getD, List.getElem?_map,
    List.getElem?_range inside]
  rfl

theorem OnDisc.sector_at (onDisc : OnDisc disc start sectors)
    (isSplit : sectors = front ++ sector :: behind) :
    slice (extent disc start) (2048 * front.length) sector.bytes.length =
      sector.bytes := by
  rw [OnDisc, ← length_flatMap_bytes, isSplit, List.flatMap_append,
    List.flatMap_cons] at onDisc
  have later := (slice_append onDisc).2
  rw [Nat.zero_add, length_flatMap_bytes] at later
  exact (slice_append later).1

theorem OnDisc.record_at (onDisc : OnDisc disc start sectors)
    (isSplit : sectors = front ++ sector :: behind)
    (isRecord : sector.records = passed ++ record :: ahead) :
    slice (extent disc start) (2048 * front.length + totalLength passed)
      record.bytes.length = record.bytes := by
  have whole := onDisc.sector_at isSplit
  rw [Sector.bytes, isRecord, List.flatMap_append, List.flatMap_cons,
    List.append_assoc, List.append_assoc] at whole
  exact (slice_append (slice_append whole).2).1

theorem OnDisc.pad_at (onDisc : OnDisc disc start sectors)
    (isSplit : sectors = front ++ sector :: behind) {index : Nat}
    (after : totalLength sector.records ≤ index) (inside : index < 2048) :
    extent disc start (2048 * front.length + index) = 0 := by
  have whole := onDisc.sector_at isSplit
  rw [Sector.bytes] at whole
  obtain ⟨more, rfl⟩ := Nat.exists_eq_add_of_le after
  have left : more < 2048 - totalLength sector.records := by omega
  have found := byte_of_slice more (slice_append whole).2
    (by rwa [List.length_replicate])
  rw [← Nat.add_assoc, totalLength, found, imageOfList, List.getD_replicate _ left]

end

/-! ### What the driver takes from a record -/

section

variable {image : Image} {record : Record} {joliet : Bool}

def Stands (record : Record) (image : Image) : Prop :=
  ∀ index, index < record.bytes.length → image index = imageOfList record.bytes index

theorem Stands.isDirectory_eq (stands : Stands record image) :
    isDirectory image = isDirectory (imageOfList record.bytes) := by
  have long := record.length_pos
  rw [isDirectory, isDirectory, stands 25 (by omega)]

theorem Stands.lengthAt_eq (stands : Stands record image) :
    lengthAt image 0 = record.bytes.length := by
  have long := record.length_pos
  rw [← record.isLength, lengthAt, lengthAt]
  congr 2
  apply Memory.le16_congr
  intro offset few
  rw [Nat.zero_add]
  exact stands offset (by omega)

theorem Stands.text_copyName (stands : Stands record image) (joliet : Bool)
    (apName : Image) :
    text (copyName joliet image apName) 0 256 = record.name joliet := by
  have named := record.named
  have short := record.short
  have long := record.length_pos
  have isLength : image 32 = imageOfList record.bytes 32 := stands 32 (by omega)
  have ended : ∀ whole, text whole 0 256 =
        (if joliet then
          text (fun place => imageOfList record.bytes (34 + 2 * place)) 0
            ((imageOfList record.bytes 32).toNat / 2)
        else text (fun place => imageOfList record.bytes (33 + place)) 0
          (imageOfList record.bytes 32).toNat) →
      text (if isDirectory image then whole else strtok 0x3B 256 whole) 0 256 =
        record.name joliet := by
    intro whole same
    rw [Record.name, ← stands.isDirectory_eq, ← same]
    split
    · rfl
    · exact text_strtok 0x3B 256 whole
  rw [copyName, isLength]
  apply ended
  cases joliet with
  | false =>
      refine (text_strncpy apName _ short (by omega)).trans ?_
      apply text_congr
      intro index inside _before
      rw [Nat.zero_add]
      exact stands (33 + index) (by omega)
  | true =>
      refine text_cut (by simp only [if_true]; omega) ?_
      intro index inside _before
      simp only [if_true] at inside ⊢
      rw [if_pos inside, ← stands (34 + 2 * index) (by omega)]
      congr 1
      omega

end

/-! ### The window -/

section

variable {disc : Disc} {sectors front behind : List Sector} {sector : Sector}
  {passed ahead : List Record} {record : Record} {info : DirCacheInfo}
  {drive : Drive}

structure Mounted (disc : Disc) (sectors : List Sector) (info : DirCacheInfo) :
    Prop where
  onDisc : OnDisc disc info.sectorStart sectors
  sectorNum : info.sectorNum = sectors.length
  some : 0 < sectors.length
  fits : info.sectorStart + sectors.length ≤ 4294967296

structure Shows (disc : Disc) (info : DirCacheInfo) : Prop where
  valid : info.valid = true
  size : info.cacheSize = min windowSectors (info.sectorNum - info.cacheOffset)
  cache : ∀ place, place < 2048 * info.cacheSize →
    info.cache place = extent disc info.sectorStart (2048 * info.cacheOffset + place)

theorem Mounted.readWindow (mounted : Mounted disc sectors info) (drive : Drive)
    (cacheOffset : Nat) : Mounted disc sectors (info.readWindow disc drive cacheOffset) :=
  { onDisc := mounted.onDisc
    sectorNum := mounted.sectorNum
    some := mounted.some
    fits := mounted.fits }

theorem Mounted.readWindow_shows (mounted : Mounted disc sectors info)
    (accepted : drive 0 (tryMode 0) = .accepted) {cacheOffset : Nat}
    (inside : cacheOffset < sectors.length) :
    Shows disc (info.readWindow disc drive cacheOffset) := by
  have fits := mounted.fits
  have isStart : (BitVec.ofNat 32 (info.sectorStart + cacheOffset)).toNat =
      info.sectorStart + cacheOffset := by
    rw [BitVec.toNat_ofNat]
    exact Nat.mod_eq_of_lt (by omega)
  have isCount : (BitVec.ofNat 32 (min windowSectors
      (info.sectorNum - cacheOffset))).toNat =
        min windowSectors (info.sectorNum - cacheOffset) := by
    rw [BitVec.toNat_ofNat]
    exact Nat.mod_eq_of_lt (Nat.lt_of_le_of_lt (Nat.min_le_left ..) (by decide))
  rw [DirCacheInfo.readWindow, readSect_accepted accepted, isStart, isCount]
  refine { valid := rfl, size := rfl, cache := ?_ }
  intro place below
  dsimp only at below ⊢
  rw [loaded, if_pos (by omega), Nat.sub_zero, ← DiscFiles.extent_add, extent]

theorem lengthAt_shift (image : Image) (place : Nat) :
    lengthAt image place = lengthAt (fun offset => image (place + offset)) 0 := by
  rw [lengthAt, lengthAt]
  rfl

theorem totalLength_le (isRecord : sector.records = passed ++ ahead) :
    totalLength passed + totalLength ahead ≤ 2048 := by
  have fits := sector.fits
  rwa [isRecord, totalLength_append] at fits

theorem Shows.stands (front : List Sector) (passed : List Record)
    (shows : Shows disc info) (mounted : Mounted disc sectors info)
    (isSplit : sectors = front ++ sector :: behind)
    (isRecord : sector.records = passed ++ record :: ahead) {place : Nat}
    (isPlace : 2048 * info.cacheOffset + place =
      2048 * front.length + totalLength passed)
    (inWindow : front.length < info.cacheOffset + info.cacheSize) :
    Stands record fun offset => info.cache (place + offset) := by
  intro index inside
  have fits := totalLength_le isRecord
  rw [← List.singleton_append, totalLength_append] at fits
  have isLength : totalLength [record] = record.bytes.length := by
    rw [totalLength, List.flatMap_singleton]
  dsimp only
  rw [shows.cache _ (by omega), ← Nat.add_assoc, isPlace]
  exact byte_of_slice index (mounted.onDisc.record_at isSplit isRecord) inside

/-- Behind the last record of a sector that it does not fill. -/
theorem Shows.lengthAt_pad (shows : Shows disc info)
    (mounted : Mounted disc sectors info)
    (isSplit : sectors = front ++ sector :: behind) {place : Nat}
    (isPlace : 2048 * info.cacheOffset + place =
      2048 * front.length + totalLength sector.records)
    (inWindow : front.length < info.cacheOffset + info.cacheSize)
    (room : totalLength sector.records < 2048) : lengthAt info.cache place = 0 := by
  have even := totalLength_even sector.records
  have zero : ∀ offset, offset < 2 → info.cache (place + offset) = 0 := by
    intro offset few
    rw [shows.cache _ (by omega), ← Nat.add_assoc, isPlace, Nat.add_assoc]
    exact mounted.onDisc.pad_at isSplit (by omega) (by omega)
  have isZero : le16 info.cache place = 0 := by
    have first := zero 0 Nat.two_pos
    rw [Nat.add_zero] at first
    rw [le16, first, zero 1 Nat.one_lt_two]
    rfl
  rw [lengthAt, isZero]
  rfl

end

/-! ### One record after the other -/

section

variable {disc : Disc} {drive : Nat → Drive} {sectors front behind : List Sector}
  {sector : Sector} {ahead : List Record} {record : Record} {state : Listing}
  {pointer : Int}

/-- The entries that are still to come. -/
inductive Coming (disc : Disc) (sectors : List Sector) (state : Listing) :
    List Entry → Prop
  /-- The pointer is behind the passed records of a sector in the window. -/
  | inside (mounted : Mounted disc sectors state.info) (shows : Shows disc state.info)
      (front : List Sector) (sector : Sector) (behind : List Sector)
      (passed ahead : List Record) (place : Nat)
      (isSplit : sectors = front ++ sector :: behind)
      (isRecord : sector.records = passed ++ ahead) (notFirst : passed ≠ [])
      (pointer : state.tocEntryPointer = some (place : Int))
      (isPlace : 2048 * state.info.cacheOffset + place =
        2048 * front.length + totalLength passed)
      (afterStart : state.info.cacheOffset ≤ front.length)
      (inWindow : front.length < state.info.cacheOffset + state.info.cacheSize) :
      Coming disc sectors state (entries state.joliet state.info.pathDepth
        state.dirEntry (ahead ++ behind.flatMap Sector.records))
  | done (mounted : Mounted disc sectors state.info) (shows : Shows disc state.info)
      (pointer : state.tocEntryPointer = some (state.info.cacheSize * 2048 : Int))
      (last : state.info.sectorNum ≤ state.info.cacheOffset + state.info.cacheSize) :
      Coming disc sectors state []

theorem dreadLoop_hand {search : DirCacheInfo → DirCacheInfo} {rounds : Nat}
    (lpBuf : Dirent) (below : pointer < state.info.cacheSize * 2048)
    (isLength : lengthAt state.info.cache pointer.toNat ≠ 0) :
    dreadLoop disc search drive lpBuf (rounds + 1) pointer state =
      some (.ok (state.hand pointer lpBuf).1, (state.hand pointer lpBuf).2) := by
  rw [dreadLoop, if_neg (not_and_of_not_right _ isLength), if_pos below]

theorem text_parentName (name : Image) : text (parentName name) 0 256 = [0x2E, 0x2E] := by
  rfl

theorem hand_seen (stands : Stands record (state.record pointer)) (lpBuf : Dirent)
    (rest : List Record) :
    (state.hand pointer lpBuf).1.seen :: entries state.joliet state.info.pathDepth
        (state.dirEntry + 1) rest =
      entries state.joliet state.info.pathDepth state.dirEntry (record :: rest) := by
  have later : entries state.joliet state.info.pathDepth (state.dirEntry + 1) rest =
      rest.map (Record.entry state.joliet) := by
    cases rest with
    | nil => rfl
    | cons next rest =>
        rw [entries, if_neg (fun both => Nat.succ_ne_zero _ both.1)]
        rfl
  rw [later, entries]
  congr 1
  rw [Listing.hand, Dirent.seen, stands.isDirectory_eq]
  dsimp only
  split
  · rw [text_parentName]
  · rw [stands.text_copyName]
    rfl

/-- What is answered when these entries are still to come. -/
def Answers (disc : Disc) (sectors : List Sector) (coming : List Entry)
    (done : Except Failure Dirent × Listing) : Prop :=
  match coming with
  | [] => done.1 = .error .ENOENT ∧ Coming disc sectors done.2 []
  | entry :: rest =>
      ∃ dirent, done.1 = .ok dirent ∧ dirent.seen = entry ∧
        Coming disc sectors done.2 rest

/-- A record in the window is handed over. -/
theorem answers_hand (lpBuf : Dirent) (place : Nat) (passed : List Record)
    (mounted : Mounted disc sectors state.info)
    (shows : Shows disc state.info) (isSplit : sectors = front ++ sector :: behind)
    (isRecord : sector.records = passed ++ record :: ahead)
    (isPlace : 2048 * state.info.cacheOffset + place =
      2048 * front.length + totalLength passed)
    (afterStart : state.info.cacheOffset ≤ front.length)
    (inWindow : front.length < state.info.cacheOffset + state.info.cacheSize) :
    (place : Int) < state.info.cacheSize * 2048 ∧
      lengthAt state.info.cache place ≠ 0 ∧
      Answers disc sectors
        (entries state.joliet state.info.pathDepth state.dirEntry
          (record :: (ahead ++ behind.flatMap Sector.records)))
        (.ok (state.hand place lpBuf).1, (state.hand place lpBuf).2) := by
  have stands : Stands record (state.record place) :=
    shows.stands front passed mounted isSplit isRecord isPlace inWindow
  have isLength : lengthAt state.info.cache place = record.bytes.length := by
    rw [lengthAt_shift]
    exact stands.lengthAt_eq
  have long := record.length_pos
  have isSingle : totalLength [record] = record.bytes.length := by
    rw [totalLength, List.flatMap_singleton]
  have fits := totalLength_le isRecord
  rw [← List.singleton_append, totalLength_append, isSingle] at fits
  refine ⟨by omega, by omega, ?_⟩
  rw [← hand_seen stands lpBuf]
  refine ⟨_, rfl, rfl, ?_⟩
  have moved : (state.hand place lpBuf).2.tocEntryPointer =
      some ((place + record.bytes.length : Nat) : Int) := by
    rw [Listing.hand, Int.toNat_natCast, isLength]
    rfl
  exact @Coming.inside disc sectors (state.hand place lpBuf).2 mounted shows front
    sector behind (passed ++ [record]) ahead (place + record.bytes.length) isSplit
    (by rw [isRecord, List.append_assoc, List.singleton_append])
    (List.append_ne_nil_of_right_ne_nil _ (List.cons_ne_nil _ _)) moved
    (by
      rw [totalLength_append, isSingle]
      change 2048 * state.info.cacheOffset + _ = _
      omega) afterStart inWindow

theorem answers_first (lpBuf : Dirent) (place : Nat)
    (mounted : Mounted disc sectors state.info)
    (shows : Shows disc state.info) (isSplit : sectors = front ++ sector :: behind)
    (isPlace : 2048 * state.info.cacheOffset + place = 2048 * front.length)
    (afterStart : state.info.cacheOffset ≤ front.length)
    (inWindow : front.length < state.info.cacheOffset + state.info.cacheSize) :
    (place : Int) < state.info.cacheSize * 2048 ∧
      lengthAt state.info.cache place ≠ 0 ∧
      Answers disc sectors
        (entries state.joliet state.info.pathDepth state.dirEntry
          (sector.records ++ behind.flatMap Sector.records))
        (.ok (state.hand place lpBuf).1, (state.hand place lpBuf).2) := by
  obtain ⟨record, ahead, isRecords⟩ := List.exists_cons_of_ne_nil sector.some
  rw [isRecords]
  exact answers_hand lpBuf place [] mounted shows isSplit isRecords isPlace afterStart
    inWindow

/-- The place is behind the last record of a sector in the window. -/
structure Through (disc : Disc) (sectors : List Sector) (info : DirCacheInfo)
    (front : List Sector) (sector : Sector) (behind : List Sector) (place : Nat) :
    Prop where
  mounted : Mounted disc sectors info
  shows : Shows disc info
  isSplit : sectors = front ++ sector :: behind
  isPlace : 2048 * info.cacheOffset + place =
    2048 * front.length + totalLength sector.records
  afterStart : info.cacheOffset ≤ front.length
  inWindow : front.length < info.cacheOffset + info.cacheSize

section

variable {place : Nat} (through : Through disc sectors state.info front sector behind place)
  (search : DirCacheInfo → DirCacheInfo) (lpBuf : Dirent) (rounds : Nat)

include through

theorem Through.sectorNum_eq :
    state.info.sectorNum = front.length + (behind.length + 1) := by
  rw [through.mounted.sectorNum, through.isSplit, List.length_append, List.length_cons]

theorem Through.next_sector
    (following : place = 2048 * (front.length + 1 - state.info.cacheOffset) →
      front.length + 1 < state.info.cacheOffset + state.info.cacheSize →
        lengthAt state.info.cache place ≠ 0) :
    (if (place : Int) < state.info.cacheSize * 2048 ∧
        lengthAt state.info.cache (place : Int).toNat = 0 then
      ((place : Int) / 2048 + 1) * 2048 else place) =
      ((2048 * (front.length + 1 - state.info.cacheOffset) : Nat) : Int) := by
  obtain ⟨mounted, shows, isSplit, isPlace, afterStart, inWindow⟩ := through
  have fits := sector.fits
  have positive : 0 < totalLength sector.records := by
    obtain ⟨record, rest, isRecords⟩ := List.exists_cons_of_ne_nil sector.some
    have long := record.length_pos
    rw [isRecords, totalLength, List.flatMap_cons, List.length_append]
    omega
  rw [Int.toNat_natCast]
  by_cases room : totalLength sector.records < 2048
  · rw [if_pos ⟨by omega, shows.lengthAt_pad mounted isSplit isPlace inWindow room⟩]
    omega
  · have isNext : place = 2048 * (front.length + 1 - state.info.cacheOffset) := by
      omega
    rw [if_neg]
    · rw [← isNext]
    · rintro ⟨below, none⟩
      exact following isNext (by omega) none

/-- The place where the next sector begins is the end of the window. -/
theorem Through.limit_eq
    (outside : ¬ front.length + 1 < state.info.cacheOffset + state.info.cacheSize) :
    ((2048 * (front.length + 1 - state.info.cacheOffset) : Nat) : Int) =
      state.info.cacheSize * 2048 := by
  have afterStart := through.afterStart
  have inWindow := through.inWindow
  omega

theorem Through.answers_last (atEnd : behind = []) :
    ∃ done, dreadLoop disc search drive lpBuf (rounds + 1) place state = some done ∧
      Answers disc sectors [] done := by
  have isNum := through.sectorNum_eq
  rw [atEnd, List.length_nil] at isNum
  have size := through.shows.size
  have afterStart := through.afterStart
  have inWindow := through.inWindow
  have adjusted := through.next_sector (by omega)
  rw [through.limit_eq (by omega)] at adjusted
  have last : state.info.sectorNum ≤ state.info.cacheOffset + state.info.cacheSize := by
    omega
  refine ⟨(.error .ENOENT, { state with
    tocEntryPointer := some (state.info.cacheSize * 2048 : Int) }), ?_, rfl,
    .done through.mounted through.shows rfl last⟩
  rw [dreadLoop]
  dsimp only
  rw [adjusted, if_neg (by omega), if_neg (by omega)]

theorem Through.isNext {next : Sector} {after : List Sector}
    (isBehind : behind = next :: after) :
    sectors = (front ++ [sector]) ++ next :: after := by
  rw [through.isSplit, isBehind, List.append_assoc, List.singleton_append]

/-- What is left of the sector is skipped. -/
theorem Through.answers_sector {next : Sector} {after : List Sector}
    (isBehind : behind = next :: after)
    (inside : front.length + 1 < state.info.cacheOffset + state.info.cacheSize) :
    ∃ done, dreadLoop disc search drive lpBuf (rounds + 1) place state = some done ∧
      Answers disc sectors (entries state.joliet state.info.pathDepth state.dirEntry
        (next.records ++ after.flatMap Sector.records)) done := by
  have afterStart := through.afterStart
  have length : (front ++ [sector]).length = front.length + 1 := List.length_append
  obtain ⟨below, isLength, answered⟩ := answers_first lpBuf
    (2048 * (front.length + 1 - state.info.cacheOffset)) through.mounted through.shows
    (through.isNext isBehind) (by omega) (by omega) (by omega)
  have adjusted := through.next_sector (by
    intro isStart _inside
    rwa [isStart])
  refine ⟨_, ?_, answered⟩
  rw [dreadLoop]
  dsimp only
  rw [adjusted, if_pos below]

/-- The next sector is the first one of the next window. -/
theorem Through.answers_window {next : Sector} {after : List Sector}
    (isBehind : behind = next :: after)
    (outside : ¬ front.length + 1 < state.info.cacheOffset + state.info.cacheSize)
    (accepted : ∀ offset, drive offset 0 (tryMode 0) = .accepted) :
    ∃ done, dreadLoop disc search drive lpBuf (rounds + 2) place state = some done ∧
      Answers disc sectors (entries state.joliet state.info.pathDepth state.dirEntry
        (next.records ++ after.flatMap Sector.records)) done := by
  have inWindow := through.inWindow
  have isNum := through.sectorNum_eq
  rw [isBehind, List.length_cons] at isNum
  have isOffset : state.info.cacheOffset + state.info.cacheSize = front.length + 1 := by
    omega
  have left : front.length + 1 < sectors.length := by
    rw [← through.mounted.sectorNum]
    omega
  have shows := through.mounted.readWindow_shows (accepted (front.length + 1)) left
  have some : 0 < (state.info.readWindow disc (drive (front.length + 1))
      (front.length + 1)).cacheSize := by
    have window : 0 < windowSectors := by decide
    rw [DirCacheInfo.readWindow]
    dsimp only
    omega
  have isWindow : state.info.cacheNext disc search (drive (front.length + 1)) =
      state.info.readWindow disc (drive (front.length + 1)) (front.length + 1) := by
    rw [DirCacheInfo.cacheNext, if_pos through.shows.valid, isOffset]
  have length : (front ++ [sector]).length = front.length + 1 := List.length_append
  obtain ⟨below, isLength, answered⟩ := @answers_first disc sectors _ after next
    { state with
      info := state.info.readWindow disc (drive (front.length + 1)) (front.length + 1) }
    lpBuf 0
    (through.mounted.readWindow _ _) shows (through.isNext isBehind)
    (by rw [length]; rfl) (Nat.le_of_eq length.symm)
    (by rw [length]; exact Nat.lt_add_of_pos_right some)
  refine ⟨_, ?_, answered⟩
  rw [dreadLoop]
  dsimp only
  rw [through.next_sector (by omega), through.limit_eq outside, if_neg (by omega),
    if_pos (by omega), isOffset, isWindow, shows.valid, if_neg (by decide)]
  exact dreadLoop_hand lpBuf below isLength

end

theorem dreadLoop_answers (search : DirCacheInfo → DirCacheInfo) (rounds : Nat)
    {coming : List Entry}
    (accepted : ∀ offset, drive offset 0 (tryMode 0) = .accepted)
    (standing : Coming disc sectors state coming) (lpBuf : Dirent)
    (isPointer : state.tocEntryPointer = some pointer) :
    ∃ done, dreadLoop disc search drive lpBuf (rounds + 2) pointer state = some done ∧
      Answers disc sectors coming done := by
  cases standing with
  | done mounted shows atPointer last =>
      obtain rfl := Option.some.inj (isPointer.symm.trans atPointer)
      refine ⟨(.error .ENOENT, { state with
        tocEntryPointer := some (state.info.cacheSize * 2048 : Int) }), ?_, rfl,
        .done mounted shows rfl last⟩
      rw [dreadLoop, if_neg (by omega), if_neg (by omega), if_neg (by omega)]
  | inside mounted shows front sector behind passed ahead place isSplit isRecord
      notFirst atPointer isPlace afterStart inWindow =>
      obtain rfl := Option.some.inj (isPointer.symm.trans atPointer)
      cases ahead with
      | cons record ahead =>
          obtain ⟨below, isLength, answered⟩ :=
            answers_hand lpBuf place passed mounted shows isSplit isRecord isPlace
              afterStart inWindow
          exact ⟨_, dreadLoop_hand lpBuf below isLength, answered⟩
      | nil =>
          rw [List.append_nil] at isRecord
          rw [← isRecord] at isPlace
          have through : Through disc sectors state.info front sector behind place :=
            { mounted, shows, isSplit, isPlace, afterStart, inWindow }
          cases behind with
          | nil => exact through.answers_last search lpBuf (rounds + 1) rfl
          | cons next behind =>
              by_cases inside :
                  front.length + 1 < state.info.cacheOffset + state.info.cacheSize
              · exact through.answers_sector search lpBuf (rounds + 1) rfl inside
              · exact through.answers_window search lpBuf rounds rfl inside accepted

/-! ### A whole directory -/

def dread (disc : Disc) (search : DirCacheInfo → DirCacheInfo) (state : Listing)
    (call : Dirent × (Nat → Drive)) : Option (Except Failure Entry) × Listing :=
  match isoDRead disc search call.2 call.1 state with
  | none => (none, state)
  | some done => (some (done.1.map Dirent.seen), done.2)

def deliver (coming : List Entry) (_call : Dirent × (Nat → Drive)) :
    Option (Except Failure Entry) × List Entry :=
  match coming with
  | [] => (some (.error .ENOENT), [])
  | entry :: rest => (some (.ok entry), rest)

theorem Coming.has_pointer {coming : List Entry}
    (standing : Coming disc sectors state coming) :
    ∃ pointer, state.tocEntryPointer = some pointer ∧ 0 < state.info.sectorNum := by
  cases standing with
  | inside mounted _ _ _ _ _ _ _ _ _ _ atPointer =>
      exact ⟨_, atPointer, mounted.sectorNum ▸ mounted.some⟩
  | done mounted _ atPointer _ =>
      exact ⟨_, atPointer, mounted.sectorNum ▸ mounted.some⟩

theorem dread_coming (search : DirCacheInfo → DirCacheInfo) {coming : List Entry}
    (standing : Coming disc sectors state coming)
    (call : Dirent × (Nat → Drive))
    (accepted : ∀ offset, call.2 offset 0 (tryMode 0) = .accepted) :
    (dread disc search state call).1 = (deliver coming call).1 ∧
      Coming disc sectors (dread disc search state call).2 (deliver coming call).2 := by
  obtain ⟨pointer, isPointer, some⟩ := standing.has_pointer
  obtain ⟨rounds, isRounds⟩ := Nat.exists_eq_add_of_le' some
  obtain ⟨done, isDone, answered⟩ := dreadLoop_answers search rounds accepted
    standing call.1 isPointer
  rw [dread, isoDRead, isPointer]
  dsimp only
  rw [isRounds, Nat.add_assoc, isDone]
  dsimp only
  cases coming with
  | nil =>
      obtain ⟨isError, next⟩ := answered
      refine ⟨?_, next⟩
      rw [deliver, isError]
      rfl
  | cons entry rest =>
      obtain ⟨dirent, isDirent, isSeen, next⟩ := answered
      refine ⟨?_, next⟩
      rw [deliver, isDirent, ← isSeen]
      rfl

theorem deliver_answers (calls : List (Dirent × (Nat → Drive)))
    (coming : List Entry) :
    Simulation.answers deliver calls coming =
      (List.range calls.length).map fun index =>
        some (match coming[index]? with
          | some entry => .ok entry
          | none => .error .ENOENT) := by
  induction calls generalizing coming with
  | nil => rfl
  | cons call rest ih =>
      rw [Simulation.answers, ih, List.length_cons, List.range_succ_eq_map,
        List.map_cons, List.map_map]
      cases coming with
      | nil => rfl
      | cons entry coming => rfl

/-- The pointer an opened directory starts with is behind the records left out. -/
theorem coming_of_opened (state : Listing) {first : Sector} {rest : List Sector}
    {info : DirCacheInfo}
    (mounted : Mounted disc (first :: rest) info) (shows : Shows disc info)
    (atStart : info.cacheOffset = 0) (two : 2 ≤ first.records.length) :
    Coming disc (first :: rest)
      { state with
        info
        tocEntryPointer := some (
          if info.pathDepth = 0 then
            lengthAt info.cache 0 +
              lengthAt info.cache (lengthAt info.cache 0).toNat
          else lengthAt info.cache 0)
        dirEntry := 0 }
      (listed state.joliet info.pathDepth (first :: rest)) := by
  obtain ⟨own, parent, more, isRecords⟩ : ∃ own parent more,
      first.records = own :: parent :: more := by
    match isRecords : first.records with
    | own :: parent :: more => exact ⟨own, parent, more, rfl⟩
    | [_] | [] => simp [isRecords] at two
  have size := shows.size
  rw [mounted.sectorNum, atStart, Nat.sub_zero] at size
  have window : 0 < windowSectors := by decide
  have some := mounted.some
  have inWindow : ([] : List Sector).length < info.cacheOffset + info.cacheSize := by
    rw [List.length_nil]
    omega
  have ownLength : lengthAt info.cache 0 = own.bytes.length := by
    rw [lengthAt_shift]
    exact (shows.stands [] [] mounted rfl isRecords (by rw [atStart]; rfl)
      inWindow).lengthAt_eq
  have isOne : totalLength [own] = own.bytes.length := by
    rw [totalLength, List.flatMap_singleton]
  have parentLength : lengthAt info.cache own.bytes.length = parent.bytes.length := by
    rw [lengthAt_shift]
    exact (shows.stands [] [own] mounted rfl isRecords (by rw [atStart, isOne]; simp)
      inWindow).lengthAt_eq
  have isTwo : totalLength [own, parent] =
      own.bytes.length + parent.bytes.length := by
    rw [← isOne, ← List.singleton_append, totalLength_append, totalLength,
      totalLength, List.flatMap_singleton, List.flatMap_singleton]
  rw [ownLength, Int.toNat_natCast, parentLength]
  by_cases root : info.pathDepth = 0
  · rw [if_pos root, listed, if_pos root, List.flatMap_cons, isRecords]
    exact @Coming.inside disc (first :: rest) _ mounted shows [] first rest [own, parent]
      more (own.bytes.length + parent.bytes.length) rfl isRecords (List.cons_ne_nil _ _)
      rfl (by rw [isTwo]; dsimp only; rw [atStart]; simp) (Nat.le_of_eq atStart) inWindow
  · rw [if_neg root, listed, if_neg root, List.flatMap_cons, isRecords]
    exact @Coming.inside disc (first :: rest) _ mounted shows [] first rest [own]
      (parent :: more) own.bytes.length rfl isRecords (List.cons_ne_nil _ _) rfl
      (by rw [isOne]; dsimp only; rw [atStart]; simp) (Nat.le_of_eq atStart) inWindow

theorem Mounted.cacheStart {info : DirCacheInfo} {drive : Drive}
    (mounted : Mounted disc sectors info) (shows : Shows disc info)
    (accepted : drive 0 (tryMode 0) = .accepted) :
    Mounted disc sectors (info.cacheStart disc drive) ∧
      Shows disc (info.cacheStart disc drive) ∧
      (info.cacheStart disc drive).cacheOffset = 0 ∧
      (info.cacheStart disc drive).pathDepth = info.pathDepth := by
  rw [DirCacheInfo.cacheStart]
  by_cases atStart : info.cacheOffset = 0
  · have same : { info with valid := true } = info := by
      rw [← shows.valid]
    rw [if_pos atStart, same]
    exact ⟨mounted, shows, atStart, rfl⟩
  · rw [if_neg atStart]
    exact ⟨mounted.readWindow drive 0, mounted.readWindow_shows accepted mounted.some,
      rfl, rfl⟩

/-- A directory of any number of sectors is listed record by record, with nothing
left out or handed over twice where one window ends and the next begins, and after
its last record no more is handed over. -/
theorem dread_lists {first : Sector} {rest : List Sector} {info : DirCacheInfo}
    (mounted : Mounted disc (first :: rest) info) (shows : Shows disc info)
    (two : 2 ≤ first.records.length) {dopenDrive : Drive}
    (accepted : dopenDrive 0 (tryMode 0) = .accepted)
    (closed : state.tocEntryPointer = none)
    (search : DirCacheInfo → DirCacheInfo) (calls : List (Dirent × (Nat → Drive)))
    (accepts : ∀ call ∈ calls, ∀ offset, call.2 offset 0 (tryMode 0) = .accepted) :
    let opened := isoDOpen disc dopenDrive true info state
    opened.1 = .ok () ∧
      Simulation.answers (dread disc search) calls opened.2 =
        (List.range calls.length).map fun index =>
          some (match (listed state.joliet info.pathDepth (first :: rest))[index]? with
            | some entry => .ok entry
            | none => .error .ENOENT) := by
  obtain ⟨nextMounted, nextShows, atStart, sameDepth⟩ :=
    mounted.cacheStart shows accepted
  rw [isoDOpen, closed, ← sameDepth]
  dsimp only [Option.isSome]
  rw [if_neg (by decide), if_neg (by decide), if_neg (by rw [nextShows.valid]; decide)]
  refine ⟨rfl, ?_⟩
  have coming := coming_of_opened state nextMounted nextShows atStart two
  have kept : ∀ state coming call, Coming disc (first :: rest) state coming →
      (∀ offset, call.2 offset 0 (tryMode 0) = .accepted) →
        (dread disc search state call).1 = (deliver coming call).1 ∧
          Coming disc (first :: rest) (dread disc search state call).2
            (deliver coming call).2 :=
    fun _ _ call standing accepted => dread_coming search standing call accepted
  have answered := (Simulation.simulates kept calls coming
    (Simulation.allMet_of_forall (fun call member _ => accepts call member) _)).1
  rw [answered, deliver_answers]

end

/-! ### A directory written on a disc -/

def written (start : Nat) (sectors : List Sector) : Disc where
  byte sector offset :=
    imageOfList (sectors.flatMap Sector.bytes) (2048 * (sector - start) + offset)
  framing _ _ := 0

theorem onDisc_written (start : Nat) (sectors : List Sector) :
    OnDisc (written start sectors) start sectors := by
  apply List.ext_getElem
  · rw [SlotMemory.length_slice, length_flatMap_bytes]
  · intro index inside _
    rw [SlotMemory.length_slice] at inside
    simp only [slice, List.getElem_map, List.getElem_range]
    rw [Nat.zero_add, extent, written]
    dsimp only
    rw [Nat.add_sub_cancel_left, Nat.div_add_mod, imageOfList,
      List.getD_eq_getElem?_getD, List.getElem?_eq_getElem, Option.getD_some]

def shortRecord (flags : Byte) (name : List Byte) : List Byte :=
  [BitVec.ofNat 8 (33 + name.length), 0] ++ List.replicate 23 0 ++ [flags] ++
    List.replicate 6 0 ++ [BitVec.ofNat 8 name.length] ++ name

section

variable {flags : Byte} {name : List Byte}

theorem length_shortRecord : (shortRecord flags name).length = 33 + name.length := by
  simp only [shortRecord, List.length_append, List.length_cons, List.length_nil,
    List.length_replicate]

theorem lengthAt_shortRecord (short : name.length ≤ 128) :
    lengthAt (imageOfList (shortRecord flags name)) 0 = 33 + name.length := by
  have low : (BitVec.ofNat 8 (33 + name.length)).toNat = 33 + name.length := by
    rw [BitVec.toNat_ofNat]
    exact Nat.mod_eq_of_lt (by omega)
  have isLength : le16 (imageOfList (shortRecord flags name)) 0 = 33 + name.length := by
    rw [le16, ← low]
    rfl
  have isWord : (BitVec.ofNat 16 (33 + name.length)).toNat = 33 + name.length := by
    rw [BitVec.toNat_ofNat]
    exact Nat.mod_eq_of_lt (by omega)
  rw [lengthAt, isLength, BitVec.toInt_eq_toNat_of_lt (by omega), isWord]
  rfl

theorem nameLength_shortRecord (short : name.length ≤ 128) :
    (imageOfList (shortRecord flags name) 32).toNat = name.length := by
  have isLength : imageOfList (shortRecord flags name) 32 = BitVec.ofNat 8 name.length :=
    rfl
  rw [isLength, BitVec.toNat_ofNat]
  exact Nat.mod_eq_of_lt (by omega)

end

def namedRecord (flags : Byte) (name : List Byte) (odd : name.length % 2 = 1)
    (short : name.length ≤ 128) : Record where
  bytes := shortRecord flags name
  isLength := by
    rw [lengthAt_shortRecord short, length_shortRecord]
    rfl
  even := by
    rw [length_shortRecord]
    omega
  named := by
    rw [nameLength_shortRecord short, length_shortRecord]
  short := by rwa [nameLength_shortRecord short]

/-- The entries for the directory and its parent, and a file `A.B`. -/
def firstSector : Sector where
  records :=
    [namedRecord 2 [0] rfl (by decide), namedRecord 2 [1] rfl (by decide),
      namedRecord 0 [0x41, 0x2E, 0x42, 0x3B, 0x31] rfl (by decide)]
  some := List.cons_ne_nil _ _
  fits := by decide

/-- A file with its number in the name. -/
def numberedSector (number : Nat) : Sector where
  records := [namedRecord 0 [0x46, BitVec.ofNat 8 (0x41 + number), 0x58] (by simp)
    (by simp)]
  some := List.cons_ne_nil _ _
  fits := by
    rw [totalLength, List.flatMap_singleton, namedRecord, length_shortRecord]
    simp

def manySectors : List Sector := firstSector :: (List.range 33).map numberedSector

def manyInfo : DirCacheInfo where
  valid := true
  pathDepth := 0
  sectorStart := 20
  sectorNum := 34
  cacheOffset := 0
  cacheSize := 32
  cache := extent (written 20 manySectors) 20

def manyListing : Listing where
  info := manyInfo
  joliet := false
  tocEntryPointer := none
  dirEntry := 0

theorem manyInfo_mounted : Mounted (written 20 manySectors) manySectors manyInfo where
  onDisc := onDisc_written 20 manySectors
  sectorNum := by decide
  some := by decide
  fits := by decide

theorem manyInfo_shows : Shows (written 20 manySectors) manyInfo where
  valid := rfl
  size := rfl
  cache place _ := by
    rw [manyInfo]
    dsimp only
    rw [Nat.mul_zero, Nat.zero_add]

theorem dread_lists_twoWindows :
    let disc := written 20 manySectors
    let calls : List (Dirent × (Nat → Drive)) :=
      List.replicate 36 ({ directory := false, name := fun _ => 0 },
        fun _ _ _ => .accepted)
    let opened := isoDOpen disc (fun _ _ => .accepted) true manyInfo manyListing
    opened.1 = .ok () ∧
      Simulation.answers (dread disc id) calls opened.2 =
        (List.range calls.length).map fun index =>
          some (match (listed false 0 manySectors)[index]? with
            | some entry => .ok entry
            | none => .error .ENOENT) :=
  dread_lists manyInfo_mounted manyInfo_shows (by decide) rfl rfl id _ (by simp)

example : (listed false 0 manySectors).length = 34 ∧
    (listed false 0 manySectors).take 2 =
      [{ directory := false, name := [0x41, 0x2E, 0x42] },
        { directory := false, name := [0x46, 0x41, 0x58] }] := by
  decide +kernel

end KernelReloaded.DiscDirectory
