import PodrumFormal.World.RegionLayout

/-!
# The search for a run

The search of `set_region_chunk` finds a run of free sectors whenever there is
one that is long enough, so that the file grows only where it has to.
-/

set_option autoImplicit false

namespace PodrumWorld.RegionSearch

open Slices PodrumZlib.ZlibHelper Region RegionLayout

/-- So many sectors next to each other. -/
def HasRun (free : Nat → Prop) (count : Nat) : Prop :=
  ∃ start, ∀ step < count, free (start + step)

/-! ## The loops -/

section Loops

variable {cells : List UInt8} {required start : Nat}

/-- One turn of the loop counts a free sector, and starts again at another. -/
theorem turn_counts {sector : UInt8} {index runStart runLength : Nat} {run : Nat × Nat}
    (turn : (if runLength ≠ 0 then
        if sector = 1 then (runStart, runLength + 1) else (runStart, 0)
      else if sector = 1 then (index, 1) else (runStart, runLength)) = run) :
    sector = 1 ∧ run.2 = runLength + 1 ∨ sector ≠ 1 ∧ run.2 = 0 := by
  subst turn
  by_cases unused : sector = 1
  · refine .inl ⟨unused, ?_⟩
    by_cases running : runLength ≠ 0
    · rw [if_pos running, if_pos unused]
    · rw [if_neg running, if_pos unused]
      dsimp only
      omega
  · refine .inr ⟨unused, ?_⟩
    by_cases running : runLength ≠ 0
    · rw [if_pos running, if_neg unused]
    · rw [if_neg running, if_neg unused]
      exact not_not.mp running

/-- A run that is not yet passed is reached: the loop has counted the part of
it that lies before `index`. -/
theorem extendRun_reaches (free : ∀ step < required, Free cells (start + step)) :
    ∀ (sectors : List UInt8) (index runStart runLength : Nat), cells.drop index = sectors →
      index < start + required → index ≤ start + runLength →
      required ≤ (extendRun required sectors index runStart runLength).2 := by
  intro sectors
  induction sectors with
  | nil =>
      intro index runStart runLength suffix ahead _
      rcases Nat.eq_zero_or_pos required with rfl | positive
      · exact Nat.zero_le _
      · have last := free_lt (free (required - 1) (by omega))
        have short := List.drop_eq_nil_iff.mp suffix
        omega
  | cons sector sectors ih =>
      intro index runStart runLength suffix ahead counted
      obtain ⟨here, rest⟩ := of_drop_eq_cons suffix
      rw [extendRun]
      generalize turn : (if runLength ≠ 0 then
          if sector = 1 then (runStart, runLength + 1) else (runStart, 0)
        else if sector = 1 then (index, 1) else (runStart, runLength)) = run
      have counts := turn_counts turn
      have inRun : start ≤ index → sector = 1 := fun inside => by
        have cell := free (index - start) (by omega)
        rw [Free, Nat.add_sub_cancel' inside, here] at cell
        exact Option.some.inj cell
      split
      · rename_i enough
        exact Int.ofNat_le.mp enough
      · rename_i short
        rw [Int.ofNat_le, Nat.not_le] at short
        apply ih (index + 1) run.1 run.2 rest
        · rcases counts with ⟨-, count⟩ | ⟨used, -⟩
          · omega
          · have before : ¬start ≤ index := fun inside => used (inRun inside)
            omega
        · rcases counts with ⟨-, count⟩ | ⟨used, -⟩
          · omega
          · have before : ¬start ≤ index := fun inside => used (inRun inside)
            omega

theorem findRun_reaches (positive : 1 ≤ required)
    (free : ∀ step < required, Free cells (start + step)) :
    required ≤ (findRun required cells).2 := by
  have head : cells[start]? = some 1 := free 0 positive
  have inside := free_lt head
  unfold findRun
  cases found : cells.findIdx? (· = 1) with
  | none =>
      have used := List.findIdx?_eq_none_iff.mp found 1 (List.mem_of_getElem? head)
      simp at used
  | some first =>
      have early : first ≤ start := by
        obtain ⟨_, _, before⟩ := List.findIdx?_eq_some_iff_getElem.mp found
        by_contra late
        have used := before start (Nat.not_le.mp late)
        rw [List.getElem?_eq_getElem inside, Option.some.injEq] at head
        simp [head] at used
      exact extendRun_reaches free (cells.drop first) first first 0 rfl (by omega) early

/-- The search is successful where there is a run. -/
theorem findRun_iff (positive : 1 ≤ required) :
    (required : Int) ≤ (findRun required cells).2 ↔ HasRun (Free cells) required := by
  constructor
  · intro found
    obtain ⟨start, -, free⟩ := findRun_free (by omega) found
    rw [Int.toNat_natCast] at free
    exact ⟨start, free⟩
  · rintro ⟨start, free⟩
    exact Int.ofNat_le.mpr (findRun_reaches positive free)

/-- Any free sector is enough for a count that is not positive, and with none
the run starts at -1. -/
theorem findRun_nonpos {required : Int} (nonpos : required ≤ 0) :
    required ≤ (findRun required cells).2 ∧
      ((findRun required cells).1 = -1 ∨
        ∃ start : Nat, (findRun required cells).1 = start ∧ Free cells start) := by
  refine ⟨by omega, ?_⟩
  cases found : cells.findIdx? (· = 1) with
  | none =>
      left
      rw [findRun, found]
  | some first =>
      obtain ⟨inside, free, -⟩ := List.findIdx?_eq_some_iff_getElem.mp found
      have unused : cells[first] = 1 := by simpa using free
      refine .inr ⟨first, ?_, ?_⟩
      · rw [findRun, found]
        dsimp only
        rw [List.drop_eq_getElem_cons inside, extendRun, if_neg (not_not.mpr rfl), if_pos unused,
          if_pos (by dsimp only; omega)]
      · rw [Free, List.getElem?_eq_getElem inside, unused]

/-- Where the branch of a found run is taken, the run begins at a free sector
or at -1. -/
theorem findRun_start {required : Int} (found : required ≤ (findRun required cells).2) :
    (findRun required cells).1 = -1 ∨
      ∃ start : Nat, (findRun required cells).1 = start ∧ Free cells start := by
  by_cases positive : 1 ≤ required
  · obtain ⟨start, startEq, free⟩ := findRun_free positive found
    exact .inr ⟨start, startEq, free 0 (by omega)⟩
  · exact (findRun_nonpos (Int.not_lt.mp positive)).2

end Loops

/-! ## Giving back a run -/

section Marks

variable {mark : UInt8} {start count : Int} {cells : List UInt8}

/-- The marks lie in the map. -/
def MarksFit (start count : Int) (size : Nat) : Prop := count ≤ 0 ∨ 0 ≤ start ∧ start + count ≤ size

theorem markSectors_nothing (nothing : count ≤ 0) :
    markSectors mark start count cells = some cells := by
  rw [markSectors, Int.toNat_of_nonpos nothing, List.replicate_zero, writeAt, if_pos (.inl rfl),
    splice, List.nil_append, List.length_nil, Nat.add_zero, List.take_append_drop]

theorem markSectors_fit (fit : MarksFit start count cells.length) :
    ∃ marked, markSectors mark start count cells = some marked ∧ marked.length = cells.length ∧
      ∀ sector : Nat, Free marked sector ↔
        if start ≤ sector ∧ (sector : Int) < start + count then mark = 1
        else Free cells sector := by
  by_cases nothing : count ≤ 0
  · refine ⟨cells, markSectors_nothing nothing, rfl, fun sector => ?_⟩
    rw [if_neg (by omega)]
  · obtain ⟨nonneg, inside⟩ := fit.resolve_left nothing
    obtain ⟨first, rfl⟩ := Int.eq_ofNat_of_zero_le nonneg
    obtain ⟨width, rfl⟩ := Int.eq_ofNat_of_zero_le (Int.le_of_lt (Int.not_le.mp nothing))
    have fits : first + width ≤ cells.length := by omega
    refine ⟨_, markSectors_inside mark fits, length_splice (by rwa [List.length_replicate]),
      fun sector => ?_⟩
    rw [free_splice fits]
    simp only [Int.ofNat_le, ← Int.natCast_add, Int.ofNat_lt]

theorem markSectors_iff :
    (∃ marked, markSectors mark start count cells = some marked) ↔
      MarksFit start count cells.length := by
  constructor
  · rintro ⟨marked, success⟩
    by_cases nothing : count ≤ 0
    · exact .inl nothing
    · rw [markSectors, writeAt] at success
      split at success
      · rename_i bounds
        rcases bounds with none | ⟨nonneg, inside⟩
        · rw [List.replicate_eq_nil_iff] at none
          omega
        · rw [List.length_replicate] at inside
          exact .inr ⟨nonneg, by omega⟩
      · cases success
  · intro fit
    obtain ⟨marked, success, -⟩ := @markSectors_fit mark _ _ cells fit
    exact ⟨marked, success⟩

/-- Marks that are made: the map keeps its length, and only what they cover
changes. -/
theorem markSectors_some {marked : List UInt8}
    (success : markSectors mark start count cells = some marked) :
    marked.length = cells.length ∧
      ∀ sector : Nat, Free marked sector ↔
        if start ≤ sector ∧ (sector : Int) < start + count then mark = 1
        else Free cells sector := by
  obtain ⟨other, same, spec⟩ := markSectors_fit (markSectors_iff.mp ⟨marked, success⟩)
  obtain rfl := Option.some.inj (success.symm.trans same)
  exact spec

end Marks

/-! ## Where a chunk may go -/

/-- Whole sectors, two of header and less than `2 ^ 31` bytes, whatever the
tables say. -/
structure WholeSectors (region : RegionFile) : Prop where
  opened : region.isOpen = 1
  whole : region.fileStream.length = 4096 * region.sectorFree.length
  header : 2 ≤ region.sectorFree.length
  below : region.fileStream.length < 2 ^ 31

theorem wholeSectors_of_wellFormed {region : RegionFile} (wellFormed : WellFormed region) :
    WholeSectors region :=
  ⟨wellFormed.opened, wellFormed.whole, wellFormed.header, wellFormed.below⟩

/-- Another map of the same sectors. -/
theorem WholeSectors.remapped {region : RegionFile} (sectors : WholeSectors region)
    {sectorFree : List UInt8} (length : sectorFree.length = region.sectorFree.length) :
    WholeSectors { region with sectorFree } where
  opened := sectors.opened
  whole := by dsimp only; rw [length]; exact sectors.whole
  header := by dsimp only; rw [length]; exact sectors.header
  below := sectors.below

/-- The sectors of the entry are given back inside the map. -/
def Releases (region : RegionFile) (offset : Int) : Prop :=
  MarksFit (offset / 256) (toChar (offset % 256)) region.sectorFree.length

/-- A sector that is free once those of the entry are given back. -/
def FreedBy (region : RegionFile) (offset : Int) (sector : Nat) : Prop :=
  Free region.sectorFree sector ∨
    (offset / 256 ≤ sector ∧ (sector : Int) < offset / 256 + toChar (offset % 256))

/-- There is a run for the chunk, or the file may grow by one. -/
def HasRoom (region : RegionFile) (offset : Int) (count : Nat) : Prop :=
  HasRun (FreedBy region offset) count ∨ region.fileStream.length + 4096 * count < 2 ^ 31

/-- The chunk has as many sectors as it needs. -/
def InPlace (offset : Int) (count : Nat) : Prop :=
  offset / 256 ≠ 0 ∧ toChar (offset % 256) = count

instance (offset : Int) (count : Nat) : Decidable (InPlace offset count) :=
  inferInstanceAs (Decidable (_ ∧ _))

/-- The record lies in the stream.  Its position is an `int`. -/
def RecordInside (region : RegionFile) (offset : Int) (outBuffer : List UInt8) : Prop :=
  0 ≤ toInt (offset / 256 * sectorBytes) ∧
    toInt (offset / 256 * sectorBytes) + (outBuffer.length + 5) ≤ region.fileStream.length

section Room

variable {region : RegionFile} {x z : Int} {buffer : List UInt8}

theorem freed_of_releases {offset : Int} {freed : List UInt8}
    (released : markSectors 1 (offset / 256) (toChar (offset % 256)) region.sectorFree =
      some freed) :
    freed.length = region.sectorFree.length ∧ Free freed = FreedBy region offset := by
  obtain ⟨length, free⟩ := markSectors_some released
  refine ⟨length, ?_⟩
  funext sector
  rw [free sector, FreedBy]
  split
  · rename_i covered
    exact propext (iff_of_true rfl (.inr covered))
  · rename_i outside
    exact propext (or_iff_left outside).symm

theorem moveChunk_iff (inRange : InRange x z) (sectors : WholeSectors region)
    (few : sectorsNeeded buffer ≤ 127) (time : Int) :
    (∃ after, (moveChunk x z buffer region).bind (setRegionTimestamp x z time) = some after) ↔
      HasRun (Free region.sectorFree) (sectorsNeeded buffer) ∨
        region.fileStream.length + 4096 * sectorsNeeded buffer < 2 ^ 31 := by
  have required := requiredSectorCount_eq few
  have positive := sectorsNeeded_pos buffer
  have fits := record_fits buffer
  obtain ⟨opened, whole, header, below⟩ := sectors
  rw [moveChunk, required]
  by_cases run : HasRun (Free region.sectorFree) (sectorsNeeded buffer)
  · have found := (findRun_iff positive).mpr run
    obtain ⟨start, startEq, free⟩ := findRun_free (by omega) found
    rw [Int.toNat_natCast] at free
    have last := free_lt (free (sectorsNeeded buffer - 1) (by omega))
    have stored := reuseRun_stores inRange region buffer opened below (by omega)
      (by omega : start + sectorsNeeded buffer ≤ region.sectorFree.length) (by omega) time
    rw [if_pos found, startEq, stored]
    exact iff_of_true ⟨_, rfl⟩ (.inl run)
  · have missed := mt (findRun_iff positive).mp run
    rw [if_neg missed, or_iff_right run]
    by_cases grows : region.fileStream.length + 4096 * sectorsNeeded buffer < 2 ^ 31
    · exact iff_of_true
        ⟨_, appendRun_stores inRange region opened whole header grows fits time⟩ grows
    · refine iff_of_false ?_ grows
      rintro ⟨after, success⟩
      have refused : growRegion (sectorsNeeded buffer) region = none := by
        rw [growRegion, Int.toNat_natCast]
        exact if_neg grows
      rw [appendRun, refused] at success
      cases success

theorem setRegionSector_iff (opened : region.isOpen = 1) (sectorIndex : Int) :
    (∃ after, setRegionSector sectorIndex buffer region = some after) ↔
      0 ≤ toInt (sectorIndex * sectorBytes) ∧
        toInt (sectorIndex * sectorBytes) + (buffer.length + 5) ≤ region.fileStream.length := by
  have some : chunkRecord buffer ≠ [] := fun empty => by
    have length := chunkRecord_length buffer
    rw [empty] at length
    cases length
  rw [setRegionSector, opened, if_neg (by decide), writeAt, chunkRecord_length]
  constructor
  · rintro ⟨after, success⟩
    split at success
    · rename_i bounds
      obtain ⟨nonneg, inside⟩ := bounds.resolve_left some
      exact ⟨nonneg, by omega⟩
    · cases success
  · rintro ⟨nonneg, inside⟩
    rw [if_pos (.inr ⟨nonneg, by omega⟩)]
    exact ⟨_, rfl⟩

/-- What a write of at most 127 sectors needs. -/
theorem setRegionChunk_iff {zlib : Zlib} (inRange : InRange x z)
    (sectors : WholeSectors region) {outBuffer : List UInt8}
    (encoded : zlib.encode buffer 7 zlibDeflateMode = some outBuffer)
    (few : sectorsNeeded outBuffer ≤ 127) (time : Int) :
    (∃ after, setRegionChunk zlib x z buffer time region = some after) ↔
      if InPlace (entryAt region (chunkKey inRange)) (sectorsNeeded outBuffer) then
        RecordInside region (entryAt region (chunkKey inRange)) outBuffer
      else
        Releases region (entryAt region (chunkKey inRange)) ∧
          HasRoom region (entryAt region (chunkKey inRange)) (sectorsNeeded outBuffer) := by
  have required := requiredSectorCount_eq few
  simp only [setRegionChunk, encoded, getRegionOffset_entry inRange, Option.bind_eq_bind,
    Option.bind_some, required]
  generalize entryAt region (chunkKey inRange) = offset
  by_cases inPlace : InPlace offset (sectorsNeeded outBuffer)
  · have test : offset / 256 ≠ 0 ∧ toChar (offset % 256) = sectorsNeeded outBuffer := inPlace
    rw [if_pos test, if_pos inPlace]
    exact setRegionSector_iff sectors.opened _
  · have test : ¬(offset / 256 ≠ 0 ∧ toChar (offset % 256) = sectorsNeeded outBuffer) := inPlace
    rw [if_neg test, if_neg inPlace]
    by_cases releases : Releases region offset
    · obtain ⟨freed, released⟩ := markSectors_iff.mpr releases
      obtain ⟨length, free⟩ := freed_of_releases released
      have freedSectors := sectors.remapped length
      rw [released, Option.bind_some, and_iff_right releases, HasRoom, ← free]
      exact moveChunk_iff inRange freedSectors few time
    · refine iff_of_false ?_ fun both => releases both.1
      rintro ⟨after, success⟩
      obtain ⟨freed, released, -⟩ := Option.bind_eq_some_iff.mp success
      exact releases (markSectors_iff.mp ⟨freed, released⟩)

end Room

/-! ## Writes to a well-formed region -/

section WellFormed

variable {region : RegionFile} {key : Key}

/-- A run of as many sectors as are needed is the one that is filled anew. -/
theorem inPlace_iff (wellFormed : WellFormed region) {count : Nat} :
    InPlace (entryAt region key) count ↔
      ∃ extent, layout region key = some extent ∧ extent.count = count := by
  constructor
  · rintro ⟨late, same⟩
    have held := layout_of_entry fun zero => late (by rw [zero]; rfl)
    refine ⟨_, held, ?_⟩
    have few := (wellFormed.counts key _ held).2
    rw [(entry_of_layout wellFormed held).2.2,
      toChar_small (Int.natCast_nonneg _) (by omega)] at same
    exact Int.ofNat.inj same
  · rintro ⟨extent, held, rfl⟩
    obtain ⟨-, startEq, countEq⟩ := entry_of_layout wellFormed held
    have few := (wellFormed.counts key extent held).2
    have late := (wellFormed.allocated.inside key extent held).1
    rw [InPlace, startEq, countEq, toChar_small (Int.natCast_nonneg _) (by omega)]
    exact ⟨by omega, rfl⟩

theorem releases_wellFormed (wellFormed : WellFormed region) (key : Key) :
    Releases region (entryAt region key) := by
  obtain ⟨freed, released, -⟩ := markSectors_release wellFormed key
  exact markSectors_iff.mp ⟨freed, released⟩

theorem recordInside_wellFormed (wellFormed : WellFormed region) {outBuffer : List UInt8}
    (inPlace : InPlace (entryAt region key) (sectorsNeeded outBuffer)) :
    RecordInside region (entryAt region key) outBuffer := by
  obtain ⟨extent, held, count⟩ := (inPlace_iff wellFormed).mp inPlace
  obtain ⟨late, last⟩ := wellFormed.allocated.inside key extent held
  have start := (entry_of_layout wellFormed held).2.1
  have whole := wellFormed.whole
  have below := wellFormed.below
  have fits := record_fits outBuffer
  rw [RecordInside, start, sectorBytes, toInt_small (by omega) (by omega)]
  omega

/-- A chunk of at most 127 sectors is stored where it has them already or where
there is room. -/
theorem writes_wellFormed (wellFormed : WellFormed region) {zlib : Zlib} {x z : Int}
    (inRange : InRange x z) {buffer outBuffer : List UInt8}
    (encoded : zlib.encode buffer 7 zlibDeflateMode = some outBuffer)
    (few : sectorsNeeded outBuffer ≤ 127) (time : Int) :
    (∃ after, setRegionChunk zlib x z buffer time region = some after) ↔
      (¬InPlace (entryAt region (chunkKey inRange)) (sectorsNeeded outBuffer) →
        HasRoom region (entryAt region (chunkKey inRange)) (sectorsNeeded outBuffer)) := by
  rw [setRegionChunk_iff inRange (wholeSectors_of_wellFormed wellFormed) encoded few time]
  split
  · rename_i inPlace
    exact iff_of_true (recordInside_wellFormed wellFormed inPlace) fun moves =>
      absurd inPlace moves
  · rename_i moves
    rw [and_iff_right (releases_wellFormed wellFormed _)]
    exact ⟨fun room _ => room, fun room => room moves⟩

end WellFormed

end PodrumWorld.RegionSearch
