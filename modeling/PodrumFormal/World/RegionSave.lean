import PodrumFormal.World.RegionRun

/-!
# Saving and opening

`open_region` rebuilds the tables and the free map from the bytes of a file.
On the file of a well-formed region it arrives at that region.
-/

set_option autoImplicit false

namespace PodrumWorld.RegionSave

open Endian Slices Extents EventRun PodrumZlib.ZlibHelper Region RegionLayout RegionRun

/-- The tables are the ints that their copies in the stream read as.  Such an
int is below `2 ^ 31`. -/
structure Copied (region : RegionFile) : Prop where
  offsets : ∀ key : Key,
    intValue (slice region.fileStream (4 * key.val) 4) = region.offsets.get key
  timestamps : ∀ key : Key,
    intValue (slice region.fileStream (4096 + 4 * key.val) 4) = region.chunkTimestamps.get key

/-! ## The tables -/

theorem offset_lt {region : RegionFile} (wellFormed : WellFormed region) (key : Key) :
    region.offsets.get key < 2 ^ 31 := by
  by_cases zero : region.offsets.get key = 0
  · rw [zero]
    decide
  · have held : layout region key = some ⟨(region.offsets.get key / 256).toNat,
        (region.offsets.get key % 256).toNat⟩ := if_neg zero
    have last := (wellFormed.allocated.inside key _ held).2
    have whole := wellFormed.whole
    have below := wellFormed.below
    dsimp only at last
    omega

/-- What `set_region_offset` and `set_region_timestamp` keep, while the
timestamps fit. -/
theorem copied_of_mirrored {region : RegionFile} (wellFormed : WellFormed region)
    (mirrored : Mirrored region)
    (timestamps : ∀ key : Key, 0 ≤ region.chunkTimestamps.get key ∧
      region.chunkTimestamps.get key < 2 ^ 31) : Copied region where
  offsets key := by
    rw [mirrored.offsets key]
    exact intValue_intBytes (wellFormed.nonneg key) (offset_lt wellFormed key)
  timestamps key := by
    rw [mirrored.timestamps key]
    exact intValue_intBytes (timestamps key).1 (timestamps key).2

theorem loadTable_eq {table : Vector Int sectorInts} {offset : Nat} {stream : List UInt8}
    (copies : ∀ key : Key, intValue (slice stream (offset + 4 * key.val) 4) = table.get key) :
    loadTable offset stream = table := by
  apply Vector.ext
  intro index bound
  rw [loadTable, Vector.getElem_ofFn]
  exact copies ⟨index, bound⟩

/-! ## The free map -/

/-- A sector is in the run of one of the entries. -/
def InRunOf (entries : List Int) (sector : Nat) : Prop :=
  ∃ offset ∈ entries, ∃ extent, extentOf offset = some extent ∧ extent.Covers sector

theorem inRunOf_cons {offset : Int} {entries : List Int} {sector : Nat} :
    InRunOf (offset :: entries) sector ↔
      (∃ extent, extentOf offset = some extent ∧ extent.Covers sector) ∨
        InRunOf entries sector := by
  simp only [InRunOf, List.mem_cons, exists_eq_or_imp]

/-- An entry that is zero, or the offset of a run in the file. -/
def InFile (size : Nat) (offset : Int) : Prop :=
  0 ≤ offset ∧ ∀ extent, extentOf offset = some extent → extent.start + extent.count ≤ size

theorem markEntry_inFile {sectorFree : List UInt8} {offset : Int}
    (small : sectorFree.length < 2 ^ 31) (inFile : InFile sectorFree.length offset) :
    ∃ marked, markEntry sectorFree offset = some marked ∧
      marked.length = sectorFree.length ∧ (Marked sectorFree → Marked marked) ∧
      ∀ sector, Free marked sector ↔ Free sectorFree sector ∧
        ¬∃ extent, extentOf offset = some extent ∧ extent.Covers sector := by
  obtain ⟨nonneg, inside⟩ := inFile
  by_cases zero : offset = 0
  · refine ⟨sectorFree, ?_, rfl, id, fun sector => ?_⟩
    · rw [markEntry, if_neg fun both => both.1 zero]
    · rw [extentOf, if_pos zero]
      simp
  · have start : ((offset / 256).toNat : Int) = offset / 256 :=
      Int.toNat_of_nonneg (Int.ediv_nonneg nonneg (by decide))
    have count : ((offset % 256).toNat : Int) = offset % 256 :=
      Int.toNat_of_nonneg (Int.emod_nonneg _ (by decide))
    have extent : extentOf offset = some ⟨(offset / 256).toNat, (offset % 256).toNat⟩ :=
      if_neg zero
    have fits := inside _ extent
    dsimp only at fits
    have sum : toULong (offset / 256 + offset % 256) ≤ sectorFree.length := by
      rw [toULong]
      omega
    have length : (splice sectorFree (offset / 256).toNat
        (List.replicate (offset % 256).toNat 0)).length = sectorFree.length :=
      length_splice (by rwa [List.length_replicate])
    refine ⟨_, ?_, length, fun marked => marked_splice marked (marked_replicate _ (.inl rfl)),
      fun sector => ?_⟩
    · rw [markEntry, if_pos ⟨zero, sum⟩, ← start, ← count]
      exact markSectors_inside 0 fits
    · rw [free_splice fits, extent]
      by_cases covered : (offset / 256).toNat ≤ sector ∧
          sector < (offset / 256).toNat + (offset % 256).toNat
      · rw [if_pos covered]
        exact iff_of_false (by decide) fun both => both.2 ⟨_, rfl, covered⟩
      · rw [if_neg covered]
        refine (and_iff_left ?_).symm
        rintro ⟨held, same, covers⟩
        obtain rfl := Option.some.inj same
        exact covered covers

theorem markEntries_inFile : ∀ (entries : List Int) (sectorFree : List UInt8),
    sectorFree.length < 2 ^ 31 → (∀ offset ∈ entries, InFile sectorFree.length offset) →
    ∃ marked, entries.foldlM markEntry sectorFree = some marked ∧
      marked.length = sectorFree.length ∧ (Marked sectorFree → Marked marked) ∧
      ∀ sector, Free marked sector ↔ Free sectorFree sector ∧ ¬InRunOf entries sector := by
  intro entries
  induction entries with
  | nil =>
      intro sectorFree _ _
      refine ⟨sectorFree, rfl, rfl, id, fun sector => ?_⟩
      simp [InRunOf]
  | cons offset entries ih =>
      intro sectorFree small inFile
      obtain ⟨first, others⟩ := List.forall_mem_cons.mp inFile
      obtain ⟨middle, stepped, length, keeps, free⟩ := markEntry_inFile small first
      obtain ⟨marked, run, lastLength, lastKeeps, lastFree⟩ :=
        ih middle (by rwa [length]) (by rwa [length])
      refine ⟨marked, ?_, lastLength.trans length, fun known => lastKeeps (keeps known),
        fun sector => ?_⟩
      · rw [List.foldlM_cons, stepped]
        exact run
      · rw [lastFree, free, inRunOf_cons, not_or, and_assoc]

/-- Maps of marks with the same free sectors are the same. -/
theorem marked_ext {left right : List UInt8} (leftMarked : Marked left)
    (rightMarked : Marked right) (length : left.length = right.length)
    (free : ∀ sector, sector < left.length → (Free left sector ↔ Free right sector)) :
    left = right := by
  apply List.ext_getElem length
  intro sector inLeft inRight
  have same := free sector inLeft
  rw [Free, Free, List.getElem?_eq_getElem inLeft, List.getElem?_eq_getElem inRight,
    Option.some.injEq, Option.some.injEq] at same
  rcases leftMarked _ (List.getElem_mem inLeft) with used | unused
  · rcases rightMarked _ (List.getElem_mem inRight) with alsoUsed | other
    · rw [used, alsoUsed]
    · exact absurd (same.mpr other) (by rw [used]; decide)
  · rw [unused, same.mp unused]

/-! ## Opening the file of a region -/

section Open

variable {region : RegionFile}

theorem entry_inFile (wellFormed : WellFormed region) {offset : Int}
    (member : offset ∈ region.offsets.toList) : InFile region.sectorFree.length offset := by
  obtain ⟨index, bound, rfl⟩ := List.mem_iff_getElem.mp member
  have below : index < sectorInts := by
    rw [Vector.length_toList] at bound
    exact bound
  rw [Vector.getElem_toList]
  exact ⟨wellFormed.nonneg ⟨index, below⟩, fun extent held =>
    (wellFormed.allocated.inside ⟨index, below⟩ extent held).2⟩

theorem inRunOf_offsets (sector : Nat) :
    InRunOf region.offsets.toList sector ↔ Owned (layout region) sector := by
  constructor
  · rintro ⟨offset, member, extent, held, covers⟩
    obtain ⟨index, bound, rfl⟩ := List.mem_iff_getElem.mp member
    have below : index < sectorInts := by
      rw [Vector.length_toList] at bound
      exact bound
    rw [Vector.getElem_toList] at held
    exact ⟨⟨index, below⟩, extent, held, covers⟩
  · rintro ⟨key, extent, held, covers⟩
    refine ⟨region.offsets.get key, ?_, extent, held, covers⟩
    exact Vector.mem_toList_iff.mpr (Vector.getElem_mem key.isLt)

/-- All sectors but the two of the header. -/
theorem free_unmarked {size sector : Nat} (header : 2 ≤ size) :
    Free (splice (List.replicate size 1) 0 [0, 0]) sector ↔ 2 ≤ sector ∧ sector < size := by
  have inside : 0 + ([0, 0] : List UInt8).length ≤ (List.replicate size (1 : UInt8)).length := by
    rw [List.length_replicate]
    exact header
  have pair : ([0, 0] : List UInt8) = List.replicate 2 0 := rfl
  rw [pair, free_splice (by rw [List.length_replicate]; omega)]
  by_cases early : 0 ≤ sector ∧ sector < 0 + 2
  · rw [if_pos early]
    exact iff_of_false (by decide) fun late => by omega
  · rw [if_neg early, Free, List.getElem?_replicate]
    split
    · exact iff_of_true rfl ⟨by omega, by assumption⟩
    · exact iff_of_false (by simp) fun both => by omega

/-- The region that is opened over the stream of a well-formed one. -/
theorem openRegion_copied (wellFormed : WellFormed region) (copied : Copied region)
    {path : List UInt8} {files : Files}
    (loaded : loadStream (files path) = some region.fileStream) :
    openRegion path files = some { region with filePath := path } := by
  have whole := wellFormed.whole
  have header := wellFormed.header
  have below := wellFormed.below
  have sectors : region.fileStream.length / sectorBytes = region.sectorFree.length := by
    rw [whole, sectorBytes, Nat.mul_div_cancel_left _ (by decide)]
  have offsets : loadTable 0 region.fileStream = region.offsets :=
    loadTable_eq fun key => by rw [Nat.zero_add]; exact copied.offsets key
  have timestamps : loadTable sectorBytes region.fileStream = region.chunkTimestamps :=
    loadTable_eq copied.timestamps
  have unmarkedLength : (splice (List.replicate region.sectorFree.length (1 : UInt8)) 0
      [0, 0]).length = region.sectorFree.length := by
    rw [length_splice (by rw [List.length_replicate]; exact header), List.length_replicate]
  obtain ⟨marked, run, length, keeps, free⟩ :=
    markEntries_inFile region.offsets.toList
      (splice (List.replicate region.sectorFree.length 1) 0 [0, 0])
      (by rw [unmarkedLength]; omega)
      (by rw [unmarkedLength]; exact fun offset => entry_inFile wellFormed)
  have known : Marked marked := by
    apply keeps
    apply marked_splice (marked_replicate _ (.inr rfl))
    exact marked_replicate 2 (.inl rfl)
  have same : marked = region.sectorFree := by
    apply marked_ext known wellFormed.marked (length.trans unmarkedLength)
    intro sector bound
    rw [length, unmarkedLength] at bound
    rw [free, free_unmarked header, inRunOf_offsets, wellFormed.allocated.free_iff sector bound]
    exact and_congr_left' (and_iff_left bound)
  have first : writeAt (List.replicate region.sectorFree.length (1 : UInt8)) 0 [0, 0] =
      some (splice (List.replicate region.sectorFree.length 1) 0 [0, 0]) :=
    writeAt_inside 0 (by rw [List.length_replicate]; exact header)
  have both : readAt region.fileStream 0 8192 = some (slice region.fileStream 0 8192) :=
    readAt_inside 0 (by omega)
  have opened := wellFormed.opened
  rw [same] at run
  refine Option.bind_eq_some_iff.mpr ⟨region.fileStream, loaded, ?_⟩
  refine Option.bind_eq_some_iff.mpr ⟨_, by rw [sectors]; exact first, ?_⟩
  refine Option.bind_eq_some_iff.mpr ⟨_, both, ?_⟩
  refine Option.bind_eq_some_iff.mpr ⟨_, by rw [offsets]; exact run, ?_⟩
  rw [offsets, timestamps, ← opened]

theorem loadStream_whole (wellFormed : WellFormed region) :
    loadStream region.fileStream = some region.fileStream := by
  have whole := wellFormed.whole
  have header := wellFormed.header
  have exact : region.fileStream.length % sectorBytes = 0 := by
    rw [whole, sectorBytes, Nat.mul_mod_right]
  have long : ¬region.fileStream.length < sectorBytes := by
    rw [sectorBytes]
    omega
  simp only [loadStream, if_neg long, exact, true_or, if_true, List.replicate_zero,
    List.append_nil]

end Open

/-! ## A new file -/

/-- Two sectors of header, and no chunk. -/
def emptyRegion (path : List UInt8) : RegionFile where
  filePath := path
  fileStream := List.replicate 8192 0
  offsets := Vector.replicate sectorInts 0
  chunkTimestamps := Vector.replicate sectorInts 0
  sectorFree := [0, 0]
  isOpen := 1

section New

variable (path : List UInt8)

theorem emptyRegion_entry (key : Key) :
    (emptyRegion path).offsets.get key = 0 ∧ (emptyRegion path).chunkTimestamps.get key = 0 :=
  ⟨Vector.getElem_replicate key.isLt, Vector.getElem_replicate key.isLt⟩

theorem emptyRegion_layout (key : Key) : layout (emptyRegion path) key = none := by
  have zero : (emptyRegion path).offsets.get key = 0 := (emptyRegion_entry path key).1
  exact if_pos zero

theorem wellFormed_emptyRegion : WellFormed (emptyRegion path) where
  opened := rfl
  whole := List.length_replicate
  header := Nat.le_refl 2
  below := by
    rw [emptyRegion, List.length_replicate]
    decide
  nonneg key := Int.le_of_eq (emptyRegion_entry path key).1.symm
  counts key extent held := by
    rw [emptyRegion_layout] at held
    cases held
  allocated :=
    { inside := fun key extent held => by
        rw [emptyRegion_layout] at held
        cases held
      apart := fun first _ left _ _ held => by
        rw [emptyRegion_layout] at held
        cases held
      free_iff := fun sector bound => by
        have header : sector < 2 := bound
        refine iff_of_false (fun free => ?_) fun late => by omega
        have mark : (1 : UInt8) ∈ ([0, 0] : List UInt8) := List.mem_of_getElem? free
        exact absurd mark (by decide) }
  marked := marked_replicate 2 (.inl rfl)

theorem mirrored_emptyRegion : Mirrored (emptyRegion path) where
  offsets key := by
    have bound : key.val < 1024 := key.isLt
    have zeros : slice (List.replicate 8192 (0 : UInt8)) (4 * key.val) 4 = List.replicate 4 0 :=
      slice_replicate (by omega) 0
    rw [(emptyRegion_entry path key).1]
    exact zeros
  timestamps key := by
    have bound : key.val < 1024 := key.isLt
    have zeros : slice (List.replicate 8192 (0 : UInt8)) (4096 + 4 * key.val) 4 =
        List.replicate 4 0 := slice_replicate (by omega) 0
    rw [(emptyRegion_entry path key).2]
    exact zeros

theorem openRegion_short {files : Files} (short : (files path).length < sectorBytes) :
    openRegion path files = some (emptyRegion path) := by
  have wellFormed := wellFormed_emptyRegion path
  have copied := copied_of_mirrored wellFormed (mirrored_emptyRegion path) fun key => by
    rw [(emptyRegion_entry path key).2]
    decide
  have zeros := loadStream_whole wellFormed
  apply openRegion_copied wellFormed copied
  have whole : ¬(emptyRegion path).fileStream.length < sectorBytes := by
    rw [emptyRegion, List.length_replicate]
    decide
  rw [loadStream, if_neg whole] at zeros
  rw [loadStream, if_pos short]
  exact zeros

end New

/-! ## Runs from a new file -/

/-- The free map, the offset table, its copy in the stream and the size of the
file agree. -/
structure InStep (region : RegionFile) : Prop where
  apart : ∀ first second left right, first ≠ second → layout region first = some left →
    layout region second = some right →
    left.start + left.count ≤ right.start ∨ right.start + right.count ≤ left.start
  inside : ∀ key extent, layout region key = some extent →
    2 ≤ extent.start ∧ extent.start + extent.count ≤ region.sectorFree.length
  whole : region.fileStream.length = 4096 * region.sectorFree.length
  table : ∀ key : Key,
    intValue (slice region.fileStream (4 * key.val) 4) = region.offsets.get key
  used : ∀ sector, sector < region.sectorFree.length →
    (region.sectorFree[sector]? = some 0 ↔ sector < 2 ∨ Owned (layout region) sector)
  free : ∀ sector, sector < region.sectorFree.length →
    (region.sectorFree[sector]? = some 1 ↔ ¬(sector < 2 ∨ Owned (layout region) sector))

theorem inStep_of_wellFormed {region : RegionFile} (wellFormed : WellFormed region)
    (mirrored : Mirrored region) : InStep region where
  apart first second left right different one other :=
    wellFormed.allocated.extents_apart different one other (wellFormed.counts first left one).1
      (wellFormed.counts second right other).1
  inside := wellFormed.allocated.inside
  whole := wellFormed.whole
  table key := by
    rw [mirrored.offsets key]
    exact intValue_intBytes (wellFormed.nonneg key) (offset_lt wellFormed key)
  used sector bound := by
    have free := wellFormed.allocated.free_iff sector bound
    rw [Free] at free
    obtain ⟨mark, held⟩ : ∃ mark, region.sectorFree[sector]? = some mark :=
      ⟨_, List.getElem?_eq_getElem bound⟩
    rw [held, Option.some.injEq] at free ⊢
    rcases wellFormed.marked mark (List.mem_of_getElem? held) with rfl | rfl
    · refine iff_of_true rfl ?_
      by_contra unused
      rw [not_or] at unused
      exact absurd (free.mpr ⟨Nat.not_lt.mp unused.1, unused.2⟩) (by decide)
    · obtain ⟨late, unowned⟩ := free.mp rfl
      refine iff_of_false (by decide) ?_
      rintro (early | owned)
      · omega
      · exact unowned owned
  free sector bound := by
    have free := wellFormed.allocated.free_iff sector bound
    rw [Free] at free
    rw [free, not_or, Nat.not_lt]

/-- No sector is lost or shared in a run from a new file. -/
theorem newRegion_inStep (zlib : Zlib) (path : List UInt8) (files : Files)
    (short : (files path).length < sectorBytes) (writes : List ChunkWrite)
    (throughout : Throughout (writeChunk zlib) (Allowed zlib) writes (emptyRegion path)) :
    openRegion path files = some (emptyRegion path) ∧
      ∃ after, run (writeChunk zlib) writes (emptyRegion path) = some after ∧ InStep after := by
  refine ⟨openRegion_short path short, ?_⟩
  obtain ⟨after, written, wellFormed, mirrored⟩ :=
    writeChunks_keep (wellFormed_emptyRegion path) (mirrored_emptyRegion path) throughout
  exact ⟨after, written, inStep_of_wellFormed wellFormed mirrored⟩

/-! ## A stored block -/

/-- The checksum of the zlib format. -/
def adler32 (data : List UInt8) : Nat :=
  let (low, high) := data.foldl
    (fun (low, high) byte => ((low + byte.toNat) % 65521, (high + low + byte.toNat) % 65521))
    (1, 0)
  high * 65536 + low

/-- The zlib format with its input in one stored block, as miniz writes a few
bytes that no match shortens. -/
def storedZlib : Zlib where
  encode data _ _ :=
    some ([0x78, 0x01, 0x01] ++ littleBytes 2 data.length ++
      littleBytes 2 (65535 - data.length % 65536) ++ data ++ bigBytes 4 (adler32 data))
  decode encoded _ := some ((encoded.drop 7).take (encoded.length - 11))

theorem storedZlib_needs (byte : UInt8) :
    ∃ outBuffer, storedZlib.encode [byte] 7 zlibDeflateMode = some outBuffer ∧
      sectorsNeeded outBuffer = 1 := by
  refine ⟨_, rfl, ?_⟩
  simp [sectorsNeeded, chunkHeaderSize, sectorBytes]

/-- Two chunks of one byte, and another one for the first of them. -/
def fewWrites : List ChunkWrite :=
  [⟨3, 1, [0xc1], 1700000000⟩, ⟨31, 31, [0x97], 1700000001⟩, ⟨3, 1, [0xee], 1700000002⟩]

theorem throughout_fewWrites (path : List UInt8) :
    Throughout (writeChunk storedZlib) (Allowed storedZlib) fewWrites (emptyRegion path) := by
  have bytes : ∀ write ∈ fewWrites, write.buffer.length = 1 := by decide
  apply throughout_of_room (wellFormed_emptyRegion path)
  · intro write member
    refine ⟨?_, ?_⟩
    · simp only [fewWrites, List.mem_cons, List.not_mem_nil, or_false] at member
      rcases member with rfl | rfl | rfl <;> exact ⟨by decide, by decide⟩
    · intro outBuffer encoded
      have short := bytes write member
      obtain rfl := Option.some.inj encoded
      simp [sectorsNeeded, short, chunkHeaderSize, sectorBytes]
  · rw [emptyRegion, List.length_replicate]
    decide

theorem newRegion_inStep_few :
    ([] : List UInt8).length < sectorBytes ∧
      openRegion [0x72] (fun _ => []) = some (emptyRegion [0x72]) ∧
        ∃ after, run (writeChunk storedZlib) fewWrites (emptyRegion [0x72]) = some after ∧
          InStep after :=
  ⟨by decide, newRegion_inStep storedZlib [0x72] (fun _ => []) (by decide) fewWrites
    (throughout_fewWrites [0x72])⟩

/-! ## Saving -/

/-- The timestamps are `int`s that are not negative. -/
def TimesFit (region : RegionFile) : Prop :=
  ∀ key : Key, 0 ≤ region.chunkTimestamps.get key ∧ region.chunkTimestamps.get key < 2 ^ 31

theorem writeChunk_timesFit {zlib : Zlib} {region after : RegionFile} {write : ChunkWrite}
    (wellFormed : WellFormed region) (allowed : Allowed zlib region write)
    (time : 0 ≤ write.time ∧ write.time < 2 ^ 31) (timesFit : TimesFit region)
    (written : writeChunk zlib region write = some after) : TimesFit after := by
  cases encoded : zlib.encode write.buffer 7 zlibDeflateMode with
  | none =>
      rw [writeChunk, setRegionChunk, encoded] at written
      obtain rfl := Option.some.inj written
      exact timesFit
  | some outBuffer =>
      obtain ⟨other, same, -, effect⟩ := writeChunk_cases wellFormed allowed encoded
      obtain rfl := Option.some.inj (same.symm.trans written)
      rcases effect with ⟨extent, -, -, rfl⟩ | ⟨extent, stream, sectorFree, -, rfl⟩
      · exact timesFit
      · intro key
        have entry : (relocated region (chunkKey allowed.inRange) extent outBuffer write.time
            stream sectorFree).chunkTimestamps.get key =
              if key = chunkKey allowed.inRange then write.time
              else region.chunkTimestamps.get key :=
          get_set region.chunkTimestamps (chunkKey allowed.inRange) key write.time
        rw [entry]
        split
        · exact time
        · exact timesFit key

theorem writeChunks_copied {zlib : Zlib} : ∀ {writes : List ChunkWrite} {region : RegionFile},
    WellFormed region → Mirrored region → TimesFit region →
    (∀ write ∈ writes, 0 ≤ write.time ∧ write.time < 2 ^ 31) →
    Throughout (writeChunk zlib) (Allowed zlib) writes region →
    ∃ after, run (writeChunk zlib) writes region = some after ∧ WellFormed after ∧
      Copied after := by
  intro writes
  induction writes with
  | nil =>
      intro region wellFormed mirrored timesFit _ _
      exact ⟨region, rfl, wellFormed, copied_of_mirrored wellFormed mirrored timesFit⟩
  | cons write writes ih =>
      intro region wellFormed mirrored timesFit times throughout
      obtain ⟨allowed, later⟩ := throughout
      obtain ⟨time, others⟩ := List.forall_mem_cons.mp times
      obtain ⟨next, stepped, nextWellFormed, keeps, -⟩ := writeChunk_keeps wellFormed allowed
      obtain ⟨after, rest, holds⟩ := ih nextWellFormed (keeps mirrored)
        (writeChunk_timesFit wellFormed allowed time timesFit stepped) others
        (later next stepped)
      refine ⟨after, ?_, holds⟩
      rw [run, stepped]
      exact rest

/-- What is saved is opened again as it was. -/
theorem openRegion_saveRegion (region : RegionFile) (wellFormed : WellFormed region)
    (copied : Copied region) (files : Files) :
    openRegion region.filePath (saveRegion region files) = some region := by
  apply openRegion_copied wellFormed copied
  rw [saveRegion, Function.update_self]
  exact loadStream_whole wellFormed

/-- The region of the few writes. -/
theorem openRegion_saveRegion_few :
    ∃ region, run (writeChunk storedZlib) fewWrites (emptyRegion [0x72]) = some region ∧
      openRegion region.filePath (saveRegion region fun _ => []) = some region := by
  have timesFit : TimesFit (emptyRegion [0x72]) := fun key => by
    rw [(emptyRegion_entry [0x72] key).2]
    decide
  obtain ⟨region, written, wellFormed, copied⟩ :=
    writeChunks_copied (wellFormed_emptyRegion [0x72]) (mirrored_emptyRegion [0x72]) timesFit
      (by decide) (throughout_fewWrites [0x72])
  exact ⟨region, written, openRegion_saveRegion region wellFormed copied fun _ => []⟩

end PodrumWorld.RegionSave
