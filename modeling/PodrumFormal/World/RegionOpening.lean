import PodrumFormal.World.RegionSave
import PodrumFormal.World.RegionSearch

/-!
# Opening any file

The length and the header of a file for which `open_region` stays inside its
arrays and arrives at whole sectors.  The padding adds the remainder instead of
what is missing, and an entry is tested only where its sectors end.
-/

set_option autoImplicit false

namespace PodrumWorld.RegionOpening

open Slices PodrumZlib.ZlibHelper Region RegionLayout RegionSave RegionSearch

/-! ## The marks of the header -/

/-- An entry whose sectors end in the file begins in it. -/
def EntrySound (size : Nat) (offset : Int) : Prop :=
  toULong (offset / 256 + offset % 256) ≤ size → MarksFit (offset / 256) (offset % 256) size

section Marks

variable {cells marked : List UInt8} {offset : Int}

theorem markEntry_length (success : markEntry cells offset = some marked) :
    marked.length = cells.length := by
  unfold markEntry at success
  split at success
  · exact (markSectors_some success).1
  · obtain rfl := Option.some.inj success
    rfl

theorem markEntry_iff :
    (∃ marked, markEntry cells offset = some marked) ↔ EntrySound cells.length offset := by
  unfold markEntry
  split
  · rename_i test
    rw [markSectors_iff]
    exact ⟨fun fit _ => fit, fun sound => sound test.2⟩
  · rename_i passed
    refine iff_of_true ⟨cells, rfl⟩ fun ends => ?_
    -- Only the entry zero is passed where its sectors end in the file.
    have zero : offset = 0 := not_not.mp fun some => passed ⟨some, ends⟩
    rw [zero]
    exact .inl (Int.le_refl 0)

theorem markEntries_iff : ∀ (entries : List Int) (cells : List UInt8),
    (∃ marked, entries.foldlM markEntry cells = some marked) ↔
      ∀ offset ∈ entries, EntrySound cells.length offset := by
  intro entries
  induction entries with
  | nil =>
      intro cells
      exact iff_of_true ⟨cells, rfl⟩ fun offset member => nomatch member
  | cons offset entries ih =>
      intro cells
      rw [List.forall_mem_cons, ← markEntry_iff, List.foldlM_cons]
      constructor
      · rintro ⟨marked, success⟩
        obtain ⟨next, stepped, rest⟩ := Option.bind_eq_some_iff.mp success
        refine ⟨⟨next, stepped⟩, ?_⟩
        rw [← markEntry_length stepped]
        exact (ih next).mp ⟨marked, rest⟩
      · rintro ⟨⟨next, stepped⟩, others⟩
        rw [← markEntry_length stepped] at others
        obtain ⟨marked, rest⟩ := (ih next).mpr others
        exact ⟨marked, Option.bind_eq_some_iff.mpr ⟨next, stepped, rest⟩⟩

theorem markEntries_length : ∀ {entries : List Int} {cells marked : List UInt8},
    entries.foldlM markEntry cells = some marked → marked.length = cells.length := by
  intro entries
  induction entries with
  | nil =>
      intro cells marked success
      obtain rfl := Option.some.inj success
      rfl
  | cons offset entries ih =>
      intro cells marked success
      obtain ⟨next, stepped, rest⟩ := Option.bind_eq_some_iff.mp success
      rw [ih rest, markEntry_length stepped]

end Marks

/-! ## The tables of a stream -/

section Load

variable {path stream : List UInt8} {region : RegionFile}

theorem loadRegion_room (success : loadRegion path stream = some region) :
    8192 ≤ stream.length := by
  obtain ⟨unmarked, -, success⟩ := Option.bind_eq_some_iff.mp success
  obtain ⟨tables, both, -⟩ := Option.bind_eq_some_iff.mp success
  rw [readAt] at both
  split at both
  · omega
  · cases both

/-- Where both tables are in the stream, only the marks may leave the map. -/
theorem loadRegion_marks (room : 8192 ≤ stream.length) :
    ∃ unmarked : List UInt8, unmarked.length = stream.length / 4096 ∧
      ∀ region, loadRegion path stream = some region ↔
        ∃ sectorFree, (loadTable 0 stream).toList.foldlM markEntry unmarked = some sectorFree ∧
          region =
            { filePath := path
              fileStream := stream
              offsets := loadTable 0 stream
              chunkTimestamps := loadTable sectorBytes stream
              sectorFree
              isOpen := 1 } := by
  have header : 0 + ([0, 0] : List UInt8).length ≤
      (List.replicate (stream.length / sectorBytes) (1 : UInt8)).length := by
    rw [List.length_replicate, sectorBytes, List.length_cons, List.length_singleton]
    omega
  have first : writeAt (List.replicate (stream.length / sectorBytes) (1 : UInt8)) 0 [0, 0] =
      some (splice (List.replicate (stream.length / sectorBytes) 1) 0 [0, 0]) :=
    writeAt_inside 0 header
  have both : readAt stream 0 8192 = some (slice stream 0 8192) := readAt_inside 0 (by omega)
  refine ⟨splice (List.replicate (stream.length / sectorBytes) 1) 0 [0, 0], ?_, fun region => ?_⟩
  · rw [length_splice header, List.length_replicate, sectorBytes]
  · constructor
    · intro success
      obtain ⟨unmarked, same, success⟩ := Option.bind_eq_some_iff.mp success
      obtain rfl := Option.some.inj (same.symm.trans first)
      obtain ⟨_, -, success⟩ := Option.bind_eq_some_iff.mp success
      obtain ⟨sectorFree, marks, success⟩ := Option.bind_eq_some_iff.mp success
      exact ⟨sectorFree, marks, (Option.some.inj success).symm⟩
    · rintro ⟨sectorFree, marks, rfl⟩
      refine Option.bind_eq_some_iff.mpr ⟨_, first, ?_⟩
      refine Option.bind_eq_some_iff.mpr ⟨_, both, ?_⟩
      exact Option.bind_eq_some_iff.mpr ⟨sectorFree, marks, rfl⟩

theorem loadRegion_some (success : loadRegion path stream = some region) :
    region.fileStream = stream ∧ region.offsets = loadTable 0 stream ∧ region.isOpen = 1 ∧
      region.sectorFree.length = stream.length / 4096 := by
  obtain ⟨unmarked, length, loads⟩ := loadRegion_marks (loadRegion_room success)
  obtain ⟨marked, marks, rfl⟩ := (loads region).mp success
  exact ⟨rfl, rfl, rfl, (markEntries_length marks).trans length⟩

theorem loadRegion_iff :
    (∃ region, loadRegion path stream = some region) ↔
      8192 ≤ stream.length ∧
        ∀ key : Key, EntrySound (stream.length / 4096) ((loadTable 0 stream).get key) := by
  have members : (∀ offset ∈ (loadTable 0 stream).toList,
      EntrySound (stream.length / 4096) offset) ↔
        ∀ key : Key, EntrySound (stream.length / 4096) ((loadTable 0 stream).get key) := by
    constructor
    · intro each key
      exact each _ (Vector.mem_toList_iff.mpr (Vector.getElem_mem key.isLt))
    · intro each offset member
      obtain ⟨index, bound, rfl⟩ := List.mem_iff_getElem.mp member
      rw [Vector.length_toList] at bound
      rw [Vector.getElem_toList]
      exact each ⟨index, bound⟩
  by_cases room : 8192 ≤ stream.length
  · obtain ⟨unmarked, length, loads⟩ := loadRegion_marks room
    rw [and_iff_right room, ← members, ← length, ← markEntries_iff]
    constructor
    · rintro ⟨region, success⟩
      obtain ⟨marked, marks, -⟩ := (loads region).mp success
      exact ⟨marked, marks⟩
    · rintro ⟨marked, marks⟩
      exact ⟨_, (loads _).mpr ⟨marked, marks, rfl⟩⟩
  · refine iff_of_false ?_ fun both => room both.1
    rintro ⟨region, success⟩
    exact room (loadRegion_room success)

end Load

/-! ## The file -/

/-- The entry of a chunk in the first sector of the file. -/
def headerEntry (file : List UInt8) (key : Key) : Int := intValue (slice file (4 * key.val) 4)

/-- A length that `open_region` pads to whole sectors, two of them at least: the
remainder is added, which is what is missing only where it is half a sector. -/
def LengthSound (length : Nat) : Prop :=
  length < 4096 ∨ (8192 ≤ length ∧ length % 4096 = 0) ∨
    (6144 ≤ length ∧ length % 4096 = 2048 ∧
      (length + 2048 < 2 ^ 31 ∨ 2 ^ 31 ≤ length % 2 ^ 32))

/-- A file of a sector or more has no entry that ends in the file and begins in
front of it. -/
def EntriesSound (file : List UInt8) : Prop :=
  4096 ≤ file.length →
    ∀ key, EntrySound ((file.length + file.length % 4096) / 4096) (headerEntry file key)

/-- Whole sectors behind the bytes of the file, and a mark for each. -/
structure Opened (file : List UInt8) (region : RegionFile) : Prop where
  whole : region.fileStream.length % 4096 = 0
  header : 8192 ≤ region.fileStream.length
  marks : region.sectorFree.length = region.fileStream.length / 4096
  bytes : 8192 ≤ file.length → file <+: region.fileStream

section File

variable {path : List UInt8} {files : Files}

/-- The loop over the added bytes ends, or there are none. -/
def Counted (length : Nat) : Prop :=
  length % 4096 = 0 ∨ length + length % 4096 < 2 ^ 31 ∨ 2 ^ 31 ≤ length % 2 ^ 32

instance (length : Nat) : Decidable (Counted length) := inferInstanceAs (Decidable (_ ∨ _ ∨ _))

/-- The file with the bytes that `open_region` adds. -/
def paddedFile (file : List UInt8) : List UInt8 := file ++ List.replicate (file.length % 4096) 0

theorem paddedFile_length (file : List UInt8) :
    (paddedFile file).length = file.length + file.length % 4096 := by
  rw [paddedFile, List.length_append, List.length_replicate]

theorem loadStream_long {file : List UInt8} (long : 4096 ≤ file.length) :
    loadStream file = if Counted file.length then some (paddedFile file) else none := by
  have whole : ¬file.length < sectorBytes := Nat.not_lt.mpr long
  simp only [loadStream, if_neg whole]
  rfl

theorem loadTable_header {file : List UInt8} (long : 4096 ≤ file.length) (more : List UInt8)
    (key : Key) : (loadTable 0 (file ++ more)).get key = headerEntry file key := by
  have bound : key.val < 1024 := key.isLt
  have entry : (loadTable 0 (file ++ more)).get key =
      intValue (slice (file ++ more) (0 + 4 * key.val) 4) := Vector.getElem_ofFn key.isLt
  rw [entry, Nat.zero_add, slice_append (by omega), headerEntry]

/-- What `open_region` arrives at, if it does. -/
theorem openRegion_some {region : RegionFile} (long : 4096 ≤ (files path).length)
    (success : openRegion path files = some region) :
    region.fileStream = paddedFile (files path) ∧ region.isOpen = 1 ∧
      region.sectorFree.length = region.fileStream.length / 4096 ∧
      ∀ key : Key, region.offsets.get key = headerEntry (files path) key := by
  obtain ⟨stream, loads, success⟩ := Option.bind_eq_some_iff.mp success
  obtain ⟨same, offsets, opened, marks⟩ := loadRegion_some success
  rw [loadStream_long long] at loads
  split at loads
  · obtain rfl := Option.some.inj loads
    refine ⟨same, opened, same ▸ marks, fun key => ?_⟩
    rw [offsets]
    exact loadTable_header long _ key
  · cases loads

theorem openRegion_defined (long : 4096 ≤ (files path).length) :
    (∃ region, openRegion path files = some region) ↔
      Counted (files path).length ∧ 8192 ≤ (files path).length + (files path).length % 4096 ∧
        EntriesSound (files path) := by
  have loads : (∃ region, loadRegion path (paddedFile (files path)) = some region) ↔
      8192 ≤ (files path).length + (files path).length % 4096 ∧ EntriesSound (files path) := by
    rw [loadRegion_iff, paddedFile_length, EntriesSound, forall_prop_of_true long]
    simp only [paddedFile, loadTable_header long]
  rw [← loads]
  by_cases counted : Counted (files path).length
  · rw [and_iff_right counted, openRegion, loadStream_long long, if_pos counted,
      Option.bind_eq_bind, Option.bind_some]
  · refine iff_of_false ?_ fun both => counted both.1
    rintro ⟨region, success⟩
    rw [openRegion, loadStream_long long, if_neg counted] at success
    cases success

theorem opened_emptyRegion {file : List UInt8} (short : file.length < 4096) :
    Opened file (emptyRegion path) where
  whole := by rw [emptyRegion, List.length_replicate]
  header := Nat.le_of_eq List.length_replicate.symm
  marks := by rw [emptyRegion, List.length_replicate]; rfl
  bytes long := by omega

/-- A file is opened right if its length and its header are sound, and only
then. -/
theorem openRegion_iff (path : List UInt8) (files : Files) :
    (∃ region, openRegion path files = some region ∧ Opened (files path) region) ↔
      LengthSound (files path).length ∧ EntriesSound (files path) := by
  by_cases short : (files path).length < 4096
  · refine iff_of_true ⟨emptyRegion path, openRegion_short path short, opened_emptyRegion short⟩
      ⟨.inl short, fun long => absurd short (Nat.not_lt.mpr long)⟩
  · have long := Nat.not_lt.mp short
    have defined := openRegion_defined long
    have padded := paddedFile_length (files path)
    rw [Counted] at defined
    rw [LengthSound]
    constructor
    · rintro ⟨region, success, opened⟩
      obtain ⟨counted, room, entries⟩ := defined.mp ⟨region, success⟩
      have whole := opened.whole
      rw [(openRegion_some long success).1, padded] at whole
      exact ⟨by omega, entries⟩
    · rintro ⟨lengths, entries⟩
      obtain ⟨region, success⟩ := defined.mpr ⟨by omega, by omega, entries⟩
      obtain ⟨stream, -, marks, -⟩ := openRegion_some long success
      exact ⟨region, success,
        { whole := by rw [stream, padded]; omega
          header := by rw [stream, padded]; omega
          marks
          bytes := fun _ => by rw [stream]; exact List.prefix_append _ _ }⟩

/-- Two sectors and a byte are padded by a byte, and a lone sector has no mark
for the second half of the header. -/
theorem oddFile_unopened :
    (¬∃ region, openRegion [0x72] (fun _ => List.replicate 8193 0) = some region ∧
      Opened (List.replicate 8193 0) region) ∧
    openRegion [0x72] (fun _ => List.replicate 4096 0) = none := by
  constructor
  · have length : (List.replicate 8193 (0 : UInt8)).length = 8193 := List.length_replicate
    rintro ⟨region, success, opened⟩
    have whole := opened.whole
    rw [(openRegion_some (by omega) success).1, paddedFile_length, length] at whole
    omega
  · have length : (List.replicate 4096 (0 : UInt8)).length = 4096 := List.length_replicate
    rw [Option.eq_none_iff_forall_ne_some]
    intro region success
    obtain ⟨-, room, -⟩ := (openRegion_defined (by omega)).mp ⟨region, success⟩
    rw [length] at room
    omega

end File

end PodrumWorld.RegionOpening
