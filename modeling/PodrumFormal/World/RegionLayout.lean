import PodrumFormal.Lib.Extents
import PodrumFormal.World.Region

/-!
# The layout of a region

The runs of sectors that the offset table gives to the chunks, the map of free
sectors and the file, and how a chunk gets a run that nothing else owns.
-/

set_option autoImplicit false

namespace PodrumWorld.RegionLayout

open Endian Slices Extents PodrumZlib.ZlibHelper Region

/-! ## Chunks of a region -/

/-- `0 <= x, z < 32`. -/
structure InRange (x z : Int) : Prop where
  column : 0 ≤ x ∧ x < 32
  row : 0 ≤ z ∧ z < 32

abbrev Key := Fin sectorInts

def chunkKey {x z : Int} (inRange : InRange x z) : Key :=
  ⟨(x + z * 32).toNat, by
    obtain ⟨column, row⟩ := inRange
    rw [sectorInts]
    omega⟩

theorem chunkKey_val {x z : Int} (inRange : InRange x z) :
    ((chunkKey inRange).val : Int) = x + z * 32 := by
  obtain ⟨column, row⟩ := inRange
  show (((x + z * 32).toNat : Nat) : Int) = x + z * 32
  omega

theorem chunkKey_inj {x z otherX otherZ : Int} (inRange : InRange x z)
    (other : InRange otherX otherZ) :
    chunkKey inRange = chunkKey other ↔ x = otherX ∧ z = otherZ := by
  rw [Fin.ext_iff]
  have first := chunkKey_val inRange
  have second := chunkKey_val other
  obtain ⟨column, row⟩ := inRange
  obtain ⟨otherColumn, otherRow⟩ := other
  omega

/-! ## The tables -/

section Tables

variable {x z : Int}

theorem tableGet_key (table : Vector Int sectorInts) (inRange : InRange x z) :
    tableGet table (x + z * 32) = some table[chunkKey inRange] := by
  have index := chunkKey_val inRange
  rw [tableGet, if_pos (by omega)]
  exact Vector.getElem?_eq_getElem (chunkKey inRange).isLt

theorem tableSet_key (table : Vector Int sectorInts) (value : Int) (inRange : InRange x z) :
    tableSet table (x + z * 32) value =
      some (table.set (chunkKey inRange).val value (chunkKey inRange).isLt) := by
  have index := chunkKey_val inRange
  have bound : 0 ≤ x + z * 32 ∧ (x + z * 32).toNat < sectorInts :=
    ⟨by omega, (chunkKey inRange).isLt⟩
  rw [tableSet, dif_pos bound]
  rfl

theorem get_set (table : Vector Int sectorInts) (key other : Key) (value : Int) :
    (table.set key.val value key.isLt)[other] = if other = key then value else table[other] := by
  by_cases same : other = key
  · subst same
    rw [if_pos rfl]
    exact Vector.getElem_set_self other.isLt
  · rw [if_neg same]
    exact Vector.getElem_set_ne key.isLt other.isLt fun equal => same (Fin.ext equal.symm)

@[simp] theorem intBytes_length (value : Int) : (intBytes value).length = 4 := bigBytes_length 4 _

theorem chunkRecord_length (buffer : List UInt8) :
    (chunkRecord buffer).length = buffer.length + 5 := by
  rw [chunkRecord, List.length_append, intBytes_length, List.length_cons]
  omega

/-- The bytes of a non-negative `int` are read back as the same `int`. -/
theorem intValue_intBytes {value : Int} (nonneg : 0 ≤ value) (small : value < 2 ^ 31) :
    intValue (intBytes value) = value := by
  have low : ((value % 2 ^ 32).toNat % 256 ^ 4 : Nat) = value.toNat := by omega
  rw [intValue, intBytes, bigValue_bigBytes, low, toInt_small (by omega) (by omega)]
  omega

variable {region : RegionFile}

def entryAt (region : RegionFile) (key : Key) : Int := region.offsets[key]

def stampAt (region : RegionFile) (key : Key) : Int := region.chunkTimestamps[key]

theorem getRegionOffset_entry (inRange : InRange x z) :
    getRegionOffset x z region = some (entryAt region (chunkKey inRange)) :=
  tableGet_key region.offsets inRange

theorem getRegionTimestamp_stamp (inRange : InRange x z) :
    getRegionTimestamp x z region = some (stampAt region (chunkKey inRange)) :=
  tableGet_key region.chunkTimestamps inRange

theorem setRegionOffset_key (inRange : InRange x z) (offset : Int)
    (room : 8192 ≤ region.fileStream.length) :
    setRegionOffset x z offset region =
      some
        { region with
          offsets := region.offsets.set (chunkKey inRange).val offset (chunkKey inRange).isLt
          fileStream :=
            splice region.fileStream (4 * (chunkKey inRange).val) (intBytes offset) } := by
  have index := chunkKey_val inRange
  have bound : (chunkKey inRange).val < 1024 := (chunkKey inRange).isLt
  have position : (x + z * 32) * 4 = ((4 * (chunkKey inRange).val : Nat) : Int) := by omega
  rw [setRegionOffset, tableSet_key _ _ inRange, position,
    writeAt_inside _ (by rw [intBytes_length]; omega)]
  rfl

theorem setRegionTimestamp_key (inRange : InRange x z) (timestamp : Int)
    (room : 8192 ≤ region.fileStream.length) :
    setRegionTimestamp x z timestamp region =
      some
        { region with
          chunkTimestamps :=
            region.chunkTimestamps.set (chunkKey inRange).val timestamp (chunkKey inRange).isLt
          fileStream :=
            splice region.fileStream (4096 + 4 * (chunkKey inRange).val)
              (intBytes timestamp) } := by
  have index := chunkKey_val inRange
  have bound : (chunkKey inRange).val < 1024 := (chunkKey inRange).isLt
  have position : (sectorBytes : Int) + (x + z * 32) * 4 =
      ((4096 + 4 * (chunkKey inRange).val : Nat) : Int) := by
    rw [sectorBytes]
    omega
  rw [setRegionTimestamp, tableSet_key _ _ inRange, position,
    writeAt_inside _ (by rw [intBytes_length]; omega)]
  rfl

theorem setRegionSector_inside (region : RegionFile) {buffer : List UInt8} {start : Nat}
    (opened : region.isOpen = 1) (below : region.fileStream.length < 2 ^ 31)
    (inside : 4096 * start + (buffer.length + 5) ≤ region.fileStream.length) :
    setRegionSector start buffer region =
      some
        { region with
          fileStream := splice region.fileStream (4096 * start) (chunkRecord buffer) } := by
  have position : toInt (start * sectorBytes) = ((4096 * start : Nat) : Int) := by
    rw [toInt_small (by rw [sectorBytes]; omega) (by rw [sectorBytes]; omega), sectorBytes]
    omega
  rw [setRegionSector, opened, if_neg (by decide), position,
    writeAt_inside _ (by rw [chunkRecord_length]; exact inside)]
  rfl

end Tables

/-! ## Runs of sectors -/

def extentOf (offset : Int) : Option Extent :=
  if offset = 0 then none else some ⟨(offset / 256).toNat, (offset % 256).toNat⟩

def layout (region : RegionFile) : Key → Option Extent := fun key =>
  extentOf region.offsets[key]

def Free (sectorFree : List UInt8) (sector : Nat) : Prop := sectorFree[sector]? = some 1

/-- A sector is marked as free or as used. -/
def Marked (sectorFree : List UInt8) : Prop := ∀ mark ∈ sectorFree, mark = 0 ∨ mark = 1

/-- Whole sectors behind two of header, and runs of 1 to 127 sectors, apart
from each other, that own the sectors that are not free. -/
structure WellFormed (region : RegionFile) : Prop where
  opened : region.isOpen = 1
  whole : region.fileStream.length = 4096 * region.sectorFree.length
  header : 2 ≤ region.sectorFree.length
  below : region.fileStream.length < 2 ^ 31
  nonneg : ∀ key : Key, 0 ≤ region.offsets[key]
  counts : ∀ key extent, layout region key = some extent →
    1 ≤ extent.count ∧ extent.count ≤ 127
  allocated : Allocated 2 region.sectorFree.length (layout region) (Free region.sectorFree)
  marked : Marked region.sectorFree

theorem extentOf_packOffset {extent : Extent} (some : 1 ≤ extent.count)
    (few : extent.count ≤ 127) :
    extentOf (packOffset extent.start extent.count) = Option.some extent := by
  rw [packOffset, if_pos (Int.natCast_nonneg _), extentOf, if_neg (by omega)]
  have start : ((extent.start : Int) * 256 + extent.count) / 256 = extent.start := by omega
  have count : ((extent.start : Int) * 256 + extent.count) % 256 = extent.count := by omega
  rw [start, count]
  rfl

/-- The entry of a chunk that has a run. -/
theorem entry_of_layout {region : RegionFile} (wellFormed : WellFormed region) {key : Key}
    {extent : Extent} (held : layout region key = some extent) :
    entryAt region key ≠ 0 ∧ entryAt region key / 256 = extent.start ∧
      entryAt region key % 256 = extent.count := by
  have nonneg : 0 ≤ entryAt region key := wellFormed.nonneg key
  rw [layout, extentOf] at held
  split at held
  · cases held
  · rename_i some
    obtain rfl := Option.some.inj held
    refine ⟨some, ?_, ?_⟩
    · exact (Int.toNat_of_nonneg (Int.ediv_nonneg nonneg (by decide))).symm
    · exact (Int.toNat_of_nonneg (Int.emod_nonneg _ (by decide))).symm

theorem layout_of_entry {region : RegionFile} {key : Key} (some : entryAt region key ≠ 0) :
    layout region key =
      Option.some ⟨(entryAt region key / 256).toNat, (entryAt region key % 256).toNat⟩ :=
  if_neg some

theorem toChar_small {value : Int} (nonneg : 0 ≤ value) (small : value ≤ 127) :
    toChar value = value := by
  rw [toChar, Int.bmod_def]
  omega

/-! ## The search -/

section Search

variable {cells : List UInt8} {required : Int}

theorem extendRun_free : ∀ (sectors : List UInt8) (index runStart runLength : Nat),
    cells.drop index = sectors → (runLength ≠ 0 → runStart + runLength = index) →
    (∀ step < runLength, Free cells (runStart + step)) →
    ∀ step < (extendRun required sectors index runStart runLength).2,
      Free cells ((extendRun required sectors index runStart runLength).1 + step) := by
  intro sectors
  induction sectors with
  | nil =>
      intro index runStart runLength _ _ free
      exact free
  | cons sector sectors ih =>
      intro index runStart runLength suffix ends free
      obtain ⟨here, rest⟩ := of_drop_eq_cons suffix
      rw [extendRun]
      generalize next : (if runLength ≠ 0 then
          if sector = 1 then (runStart, runLength + 1) else (runStart, 0)
        else if sector = 1 then (index, 1) else (runStart, runLength)) = run
      -- The run goes on, ends, begins at this sector, or is still to begin.
      have kept : (run.2 ≠ 0 → run.1 + run.2 = index + 1) ∧
          ∀ step < run.2, Free cells (run.1 + step) := by
        subst next
        by_cases running : runLength ≠ 0
        · have ends := ends running
          by_cases unused : sector = 1
          · rw [if_pos running, if_pos unused]
            refine ⟨fun _ => by dsimp only; omega, fun step bound => ?_⟩
            by_cases last : step = runLength
            · rw [last, ends, Free, here, unused]
            · exact free step (by dsimp only at bound; omega)
          · rw [if_pos running, if_neg unused]
            exact ⟨fun some => absurd rfl some, fun step bound => absurd bound (Nat.not_lt_zero _)⟩
        · rw [if_neg running]
          by_cases unused : sector = 1
          · rw [if_pos unused]
            refine ⟨fun _ => rfl, fun step bound => ?_⟩
            have first : step = 0 := by dsimp only at bound; omega
            rw [first, Free]
            exact here.trans (congrArg some unused)
          · rw [if_neg unused]
            exact ⟨fun some => absurd some running, free⟩
      by_cases enough : required ≤ run.2
      · rw [if_pos enough]
        exact kept.2
      · rw [if_neg enough]
        exact ih (index + 1) run.1 run.2 rest kept.1 kept.2

/-- A run that is long enough is one of free sectors. -/
theorem findRun_free (positive : 1 ≤ required) (found : required ≤ (findRun required cells).2) :
    ∃ start : Nat, (findRun required cells).1 = start ∧
      ∀ step < required.toNat, Free cells (start + step) := by
  unfold findRun at found ⊢
  cases first : cells.findIdx? (· = 1) with
  | none =>
      rw [first] at found
      have short : required ≤ 0 := found
      omega
  | some index =>
      rw [first] at found
      refine ⟨_, rfl, fun step bound => ?_⟩
      exact extendRun_free _ index index 0 rfl (fun some => absurd rfl some)
        (fun _ impossible => absurd impossible (Nat.not_lt_zero _)) step
        (by dsimp only at found; omega)

end Search

/-! ## The free map -/

section FreeMap

variable {cells : List UInt8} {start count : Nat}

theorem markSectors_inside (mark : UInt8) (inside : start + count ≤ cells.length) :
    markSectors mark start count cells =
      some (splice cells start (List.replicate count mark)) := by
  rw [markSectors, Int.toNat_natCast, writeAt_inside _ (by rwa [List.length_replicate])]

theorem free_splice {mark : UInt8} (inside : start + count ≤ cells.length) (sector : Nat) :
    Free (splice cells start (List.replicate count mark)) sector ↔
      if start ≤ sector ∧ sector < start + count then mark = 1 else Free cells sector := by
  rw [Free, getElem?_splice (by rwa [List.length_replicate]), List.length_replicate]
  split
  · rw [List.getElem?_replicate, if_pos (by omega), Option.some.injEq]
  · rfl

theorem marked_splice {values : List UInt8} (marked : Marked cells)
    (values01 : Marked values) : Marked (splice cells start values) := fun mark member =>
  (mem_splice member).elim (marked mark) (values01 mark)

theorem marked_replicate (count : Nat) {mark : UInt8} (known : mark = 0 ∨ mark = 1) :
    Marked (List.replicate count mark) := fun other member => by
  rwa [List.eq_of_mem_replicate member]

end FreeMap

/-! ## Giving a chunk other sectors -/

section Move

variable {region : RegionFile} {key : Key}

/-- The marks with the run of an entry given back. -/
theorem markSectors_release (wellFormed : WellFormed region) (key : Key) :
    ∃ freed, markSectors 1 (entryAt region key / 256) (toChar (entryAt region key % 256))
        region.sectorFree = some freed ∧
      freed.length = region.sectorFree.length ∧ Marked freed ∧
      Allocated 2 freed.length (Function.update (layout region) key none) (Free freed) := by
  have released := wellFormed.allocated.release key
  by_cases zero : entryAt region key = 0
  · have vacant : layout region key = none := if_pos zero
    refine ⟨region.sectorFree, ?_, rfl, wellFormed.marked, released.congr fun sector _ => ?_⟩
    · rw [zero]
      simp [markSectors, toChar, writeAt, splice]
    · rw [vacant]
      simp
  · have held := layout_of_entry zero
    obtain ⟨-, startEq, countEq⟩ := entry_of_layout wellFormed held
    obtain ⟨some, few⟩ := wellFormed.counts key _ held
    have inside := (wellFormed.allocated.inside key _ held).2
    generalize (entryAt region key / 256).toNat = start at *
    generalize (entryAt region key % 256).toNat = count at *
    dsimp only at startEq countEq some few inside
    have length : (splice region.sectorFree start (List.replicate count 1)).length =
        region.sectorFree.length := length_splice (by rwa [List.length_replicate])
    refine ⟨splice region.sectorFree start (List.replicate count 1), ?_, length,
      marked_splice wellFormed.marked (marked_replicate count (.inr rfl)), ?_⟩
    · rw [startEq, countEq, toChar_small (Int.natCast_nonneg _) (by omega)]
      exact markSectors_inside 1 inside
    · rw [length]
      refine released.congr fun sector _ => ?_
      rw [free_splice inside, held]
      by_cases covered : start ≤ sector ∧ sector < start + count
      · rw [if_pos covered]
        exact iff_of_true rfl (.inr ⟨_, rfl, covered⟩)
      · rw [if_neg covered]
        refine (or_iff_left ?_).symm
        rintro ⟨extent, same, covers⟩
        obtain rfl := Option.some.inj same
        exact covered covers

def sectorsNeeded (buffer : List UInt8) : Nat :=
  (buffer.length + chunkHeaderSize) / sectorBytes + 1

theorem requiredSectorCount_eq {buffer : List UInt8} (few : sectorsNeeded buffer ≤ 127) :
    requiredSectorCount buffer = sectorsNeeded buffer := by
  rw [requiredSectorCount, ← sectorsNeeded, toChar_small (Int.natCast_nonneg _) (by omega)]

theorem record_fits (buffer : List UInt8) : buffer.length + 5 ≤ 4096 * sectorsNeeded buffer := by
  rw [sectorsNeeded, chunkHeaderSize, sectorBytes]
  omega

/-- The region in which a chunk is stored in an extent, over a stream and a
free map with room for it. -/
def relocated (region : RegionFile) (key : Key) (extent : Extent) (buffer : List UInt8)
    (time : Int) (stream sectorFree : List UInt8) : RegionFile :=
  { region with
    offsets := region.offsets.set key.val (packOffset extent.start extent.count) key.isLt
    chunkTimestamps := region.chunkTimestamps.set key.val time key.isLt
    sectorFree
    fileStream :=
      splice
        (splice (splice stream (4 * key.val) (intBytes (packOffset extent.start extent.count)))
          (4096 * extent.start) (chunkRecord buffer))
        (4096 + 4 * key.val) (intBytes time) }

/-- What holds of such a stream and free map. -/
structure Relocates (region : RegionFile) (key : Key) (extent : Extent) (buffer : List UInt8)
    (stream sectorFree : List UInt8) : Prop where
  count : extent.count = sectorsNeeded buffer
  longer : ∃ more, stream = region.fileStream ++ more
  whole : stream.length = 4096 * sectorFree.length
  below : stream.length < 2 ^ 31
  few : extent.count ≤ 127
  allocated : Allocated 2 sectorFree.length
    (Function.update (layout region) key (some extent)) (Free sectorFree)
  marked : Marked sectorFree

namespace Relocates

variable {extent : Extent} {buffer stream sectorFree : List UInt8}

theorem inside (relocates : Relocates region key extent buffer stream sectorFree) :
    2 ≤ extent.start ∧ extent.start + extent.count ≤ sectorFree.length :=
  relocates.allocated.inside key extent (Function.update_self ..)

theorem room (relocates : Relocates region key extent buffer stream sectorFree) :
    buffer.length + 5 ≤ 4096 * extent.count := by
  rw [relocates.count]
  exact record_fits buffer

/-- The three writes are inside the stream. -/
theorem lengths (relocates : Relocates region key extent buffer stream sectorFree) :
    (splice stream (4 * key.val) (intBytes (packOffset extent.start extent.count))).length =
        stream.length ∧
      (splice (splice stream (4 * key.val) (intBytes (packOffset extent.start extent.count)))
        (4096 * extent.start) (chunkRecord buffer)).length = stream.length ∧
      ∀ time, (relocated region key extent buffer time stream sectorFree).fileStream.length =
        stream.length := by
  obtain ⟨late, last⟩ := relocates.inside
  have fits := relocates.room
  have whole := relocates.whole
  have bound : key.val < 1024 := key.isLt
  have first : (splice stream (4 * key.val)
      (intBytes (packOffset extent.start extent.count))).length = stream.length :=
    length_splice (by rw [intBytes_length]; omega)
  have second : (splice (splice stream (4 * key.val)
      (intBytes (packOffset extent.start extent.count))) (4096 * extent.start)
      (chunkRecord buffer)).length = stream.length := by
    rw [length_splice (by rw [first, chunkRecord_length]; omega), first]
  refine ⟨first, second, fun time => ?_⟩
  rw [relocated, length_splice (by rw [second, intBytes_length]; omega), second]

end Relocates

theorem free_lt {cells : List UInt8} {sector : Nat} (free : Free cells sector) :
    sector < cells.length :=
  (List.getElem?_eq_some_iff.mp free).1

/-- A chunk of `sectorsNeeded` sectors that are all free. -/
theorem claim_run {freed : List UInt8} {start : Nat} {buffer : List UInt8}
    (allocated : Allocated 2 freed.length (Function.update (layout region) key none) (Free freed))
    (unused : ∀ step < sectorsNeeded buffer, Free freed (start + step)) :
    2 ≤ start ∧ start + sectorsNeeded buffer ≤ freed.length ∧
      Allocated 2 freed.length
        (Function.update (layout region) key (some ⟨start, sectorsNeeded buffer⟩))
        (Free (splice freed start (List.replicate (sectorsNeeded buffer) 0))) := by
  have positive : 1 ≤ sectorsNeeded buffer := Nat.le_add_left 1 _
  have head := unused 0 (by omega)
  have last := free_lt (unused (sectorsNeeded buffer - 1) (by omega))
  have inside : start + sectorsNeeded buffer ≤ freed.length := by omega
  have late := ((allocated.free_iff start (by omega)).mp head).1
  refine ⟨late, inside, ?_⟩
  have claimed := allocated.claim key ⟨start, sectorsNeeded buffer⟩
    (Function.update_self ..) positive inside fun sector covers => by
      have offset : start + (sector - start) = sector := Nat.add_sub_cancel' covers.1
      rw [← offset]
      exact unused (sector - start) (by obtain ⟨_, below⟩ := covers; dsimp only at below; omega)
  rw [Function.update_idem] at claimed
  refine claimed.congr fun sector _ => ?_
  rw [free_splice inside]
  by_cases covered : start ≤ sector ∧ sector < start + sectorsNeeded buffer
  · rw [if_pos covered]
    exact iff_of_false (by decide) fun both => both.2 covered
  · rw [if_neg covered]
    exact (and_iff_left covered).symm

/-- A chunk in sectors behind the end of the file. -/
theorem claim_growth {freed : List UInt8} {buffer : List UInt8} (header : 2 ≤ freed.length)
    (allocated : Allocated 2 freed.length (Function.update (layout region) key none)
      (Free freed)) :
    Allocated 2 (freed.length + sectorsNeeded buffer)
      (Function.update (layout region) key (some ⟨freed.length, sectorsNeeded buffer⟩))
      (Free (freed ++ List.replicate (sectorsNeeded buffer) 0)) := by
  have claimed := (allocated.grow header (Nat.le_add_right _ (sectorsNeeded buffer))).claim
    key ⟨freed.length, sectorsNeeded buffer⟩ (Function.update_self ..)
    (Nat.le_add_left 1 _) (Nat.le_refl _) fun sector covers => .inl covers.1
  rw [Function.update_idem] at claimed
  refine claimed.congr fun sector bound => ?_
  by_cases old : sector < freed.length
  · rw [Free, List.getElem?_append_left old]
    constructor
    · intro free
      exact ⟨.inr free, fun covers => Nat.not_le.mpr old covers.1⟩
    · rintro ⟨beyond | free, -⟩
      · omega
      · exact free
  · have zero : (freed ++ List.replicate (sectorsNeeded buffer) (0 : UInt8))[sector]? = some 0 := by
      rw [List.getElem?_append_right (by omega), List.getElem?_replicate, if_pos (by omega)]
    rw [Free, zero]
    exact iff_of_false (by decide) fun both => both.2 ⟨Nat.not_lt.mp old, bound⟩

theorem sectorsNeeded_pos (buffer : List UInt8) : 1 ≤ sectorsNeeded buffer :=
  Nat.le_add_left 1 _

/-- The writes of the first branch, and the timestamp behind them. -/
theorem reuseRun_stores {x z : Int} (inRange : InRange x z) (base : RegionFile)
    (buffer : List UInt8) (opened : base.isOpen = 1) (below : base.fileStream.length < 2 ^ 31)
    (header : 8192 ≤ base.fileStream.length) {start count : Nat}
    (inside : start + count ≤ base.sectorFree.length)
    (room : 4096 * start + (buffer.length + 5) ≤ base.fileStream.length) (time : Int) :
    (reuseRun x z buffer start count base).bind (setRegionTimestamp x z time) =
      some (relocated base (chunkKey inRange) ⟨start, count⟩ buffer time base.fileStream
        (splice base.sectorFree start (List.replicate count 0))) := by
  have bound : (chunkKey inRange).val < 1024 := (chunkKey inRange).isLt
  have linkedLength : (splice base.fileStream (4 * (chunkKey inRange).val)
      (intBytes (packOffset start count))).length = base.fileStream.length :=
    length_splice (by rw [intBytes_length]; omega)
  have storedLength : (splice (splice base.fileStream (4 * (chunkKey inRange).val)
      (intBytes (packOffset start count))) (4096 * start) (chunkRecord buffer)).length =
      base.fileStream.length := by
    rw [length_splice (by rw [linkedLength, chunkRecord_length]; exact room), linkedLength]
  rw [reuseRun, setRegionOffset_key inRange _ header]
  simp only [Option.bind_eq_bind, Option.bind_some]
  rw [markSectors_inside 0 inside]
  simp only [Option.bind_some]
  rw [setRegionSector_inside { base with
        offsets := base.offsets.set (chunkKey inRange).val (packOffset start count)
          (chunkKey inRange).isLt
        fileStream := splice base.fileStream (4 * (chunkKey inRange).val)
          (intBytes (packOffset start count))
        sectorFree := splice base.sectorFree start (List.replicate count 0) }
      opened (by rw [linkedLength]; exact below) (by rw [linkedLength]; exact room)]
  simp only [Option.bind_some]
  rw [setRegionTimestamp_key inRange time (by rw [storedLength]; exact header)]
  rfl

/-- The writes of the second branch.  The offset is written behind the chunk,
which is the same stream: they are apart. -/
theorem appendRun_stores {x z : Int} (inRange : InRange x z) (base : RegionFile)
    (opened : base.isOpen = 1) (whole : base.fileStream.length = 4096 * base.sectorFree.length)
    (header : 2 ≤ base.sectorFree.length) {count : Nat} {buffer : List UInt8}
    (below : base.fileStream.length + 4096 * count < 2 ^ 31)
    (room : buffer.length + 5 ≤ 4096 * count) (time : Int) :
    (appendRun x z buffer count base).bind (setRegionTimestamp x z time) =
      some (relocated base (chunkKey inRange) ⟨base.sectorFree.length, count⟩ buffer time
        (base.fileStream ++ List.replicate (4096 * count) 0)
        (base.sectorFree ++ List.replicate count 0)) := by
  have bound : (chunkKey inRange).val < 1024 := (chunkKey inRange).isLt
  generalize streamEq : base.fileStream ++ List.replicate (4096 * count) 0 = stream
  have length : stream.length = 4096 * (base.sectorFree.length + count) := by
    rw [← streamEq, List.length_append, List.length_replicate, whole]
    omega
  have recordFits : 4096 * base.sectorFree.length + (chunkRecord buffer).length ≤
      stream.length := by
    rw [chunkRecord_length]
    omega
  have offsetFits : 4 * (chunkKey inRange).val +
      (intBytes (packOffset base.sectorFree.length count)).length ≤ stream.length := by
    rw [intBytes_length]
    omega
  have storedLength := length_splice recordFits
  have linkedLength : (splice (splice stream (4096 * base.sectorFree.length)
      (chunkRecord buffer)) (4 * (chunkKey inRange).val)
      (intBytes (packOffset base.sectorFree.length count))).length = stream.length := by
    rw [length_splice (by rw [storedLength]; exact offsetFits), storedLength]
  have grown : growRegion count base =
      some { base with
        sectorFree := base.sectorFree ++ List.replicate count 0
        fileStream := stream } := by
    rw [growRegion, Int.toNat_natCast, sectorBytes, if_pos below, streamEq]
  rw [appendRun, grown]
  simp only [Option.bind_eq_bind, Option.bind_some]
  rw [setRegionSector_inside { base with
        sectorFree := base.sectorFree ++ List.replicate count 0
        fileStream := stream }
      opened (by dsimp only; omega) (by dsimp only; omega)]
  simp only [Option.bind_some]
  rw [setRegionOffset_key inRange _ (by dsimp only; rw [storedLength]; omega)]
  simp only [Option.bind_some]
  rw [setRegionTimestamp_key inRange time (by dsimp only; rw [linkedLength]; omega)]
  have order := splice_comm offsetFits recordFits
    (by rw [chunkRecord_length, intBytes_length]; omega)
  rw [relocated, order]

/-- Either branch gives the chunk a run that nothing else owns. -/
theorem moveChunk_relocates {x z : Int} (inRange : InRange x z) (wellFormed : WellFormed region)
    {freed : List UInt8} (length : freed.length = region.sectorFree.length)
    (marked : Marked freed)
    (allocated : Allocated 2 freed.length
      (Function.update (layout region) (chunkKey inRange) none) (Free freed))
    {buffer : List UInt8} (few : sectorsNeeded buffer ≤ 127)
    (room : requiredSectorCount buffer ≤ (findRun (requiredSectorCount buffer) freed).2 ∨
      region.fileStream.length + 4096 * sectorsNeeded buffer < 2 ^ 31) (time : Int) :
    ∃ extent stream sectorFree,
      Relocates region (chunkKey inRange) extent buffer stream sectorFree ∧
      stream.length = (if requiredSectorCount buffer ≤
          (findRun (requiredSectorCount buffer) freed).2 then region.fileStream.length
        else region.fileStream.length + 4096 * (requiredSectorCount buffer).toNat) ∧
      (moveChunk x z buffer { region with sectorFree := freed }).bind
          (setRegionTimestamp x z time) =
        some (relocated region (chunkKey inRange) extent buffer time stream sectorFree) := by
  have required := requiredSectorCount_eq few
  have fits := record_fits buffer
  have positive := sectorsNeeded_pos buffer
  have whole := wellFormed.whole
  have below := wellFormed.below
  have header := wellFormed.header
  by_cases found : requiredSectorCount buffer ≤ (findRun (requiredSectorCount buffer) freed).2
  · obtain ⟨start, startEq, unused⟩ := findRun_free (by omega) found
    rw [required, Int.toNat_natCast] at unused
    obtain ⟨late, inside, claimed⟩ := claim_run allocated unused
    have filled : (splice freed start (List.replicate (sectorsNeeded buffer) 0)).length =
        freed.length := length_splice (by rwa [List.length_replicate])
    have stores := reuseRun_stores inRange { region with sectorFree := freed } buffer
      wellFormed.opened below (by dsimp only; omega) inside (by dsimp only; omega) time
    refine ⟨⟨start, sectorsNeeded buffer⟩, region.fileStream,
      splice freed start (List.replicate (sectorsNeeded buffer) 0), ?_, (if_pos found).symm, ?_⟩
    · exact
        { count := rfl
          longer := ⟨[], (List.append_nil _).symm⟩
          whole := by rw [filled, length, whole]
          below
          few
          allocated := by rw [filled]; exact claimed
          marked := marked_splice marked (marked_replicate _ (.inl rfl)) }
    · rw [moveChunk, if_pos found, startEq, required]
      exact stores
  · have growth := room.resolve_left found
    have stores := appendRun_stores inRange { region with sectorFree := freed }
      wellFormed.opened (by dsimp only; rw [length]; exact whole) (by dsimp only; omega)
      growth fits time
    refine ⟨⟨freed.length, sectorsNeeded buffer⟩,
      region.fileStream ++ List.replicate (4096 * sectorsNeeded buffer) 0,
      freed ++ List.replicate (sectorsNeeded buffer) 0, ?_, ?_, ?_⟩
    · exact
        { count := rfl
          longer := ⟨_, rfl⟩
          whole := by simp only [List.length_append, List.length_replicate]; omega
          below := by simp only [List.length_append, List.length_replicate]; omega
          few
          allocated := by
            rw [List.length_append, List.length_replicate]
            exact claim_growth (by omega) allocated
          marked := fun mark member => (List.mem_append.mp member).elim (marked mark)
            (marked_replicate _ (.inl rfl) mark) }
    · rw [if_neg found, required, Int.toNat_natCast, List.length_append, List.length_replicate]
    · rw [moveChunk, if_neg found, required]
      exact stores

end Move

end PodrumWorld.RegionLayout
