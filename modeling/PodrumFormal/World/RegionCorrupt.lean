import PodrumFormal.World.RegionContent
import PodrumFormal.World.RegionOpening

/-!
# Corrupt files

What an entry of the header and the record that it points to must be for a
read or a write of the chunk to stay inside the stream and the free map.
-/

set_option autoImplicit false

namespace PodrumWorld.RegionCorrupt

open Slices PodrumZlib.ZlibHelper Region RegionLayout RegionSearch RegionContent RegionSave
  RegionOpening

/-! ## Reading -/

/-- The length at the place of an entry. -/
def storedLength (region : RegionFile) (offset : Int) : Int :=
  intValue (slice region.fileStream (4096 * (offset / 256).toNat) 4)

def storedVersion (region : RegionFile) (offset : Int) : List UInt8 :=
  slice region.fileStream (4096 * (offset / 256).toNat + 4) 1

/-- `zlib_decode` is called for the record of an entry. -/
def Decodes (region : RegionFile) (offset : Int) : Prop :=
  storedLength region offset ≤ sectorBytes * toChar (offset % 256) ∧
    versionMode (storedVersion region offset) ≠ none

/-- `in_buffer.size`, which is `length - 1` without a sign. -/
def inputSize (region : RegionFile) (offset : Int) : Nat :=
  toULong (storedLength region offset - 1)

/-- An entry whose sectors end in the file begins in it, and a record that is
not too long for them ends in the file and has a byte at least if it is
decoded. -/
def ReadSound (region : RegionFile) (offset : Int) : Prop :=
  offset ≠ 0 → ¬Beyond region offset →
    (0 ≤ offset / 256 ∧ offset / 256 < region.sectorFree.length) ∧
      (storedLength region offset ≤ sectorBytes * toChar (offset % 256) →
        sectorBytes * (offset / 256) + 4 + storedLength region offset ≤
          region.fileStream.length) ∧
      (Decodes region offset → 1 ≤ storedLength region offset)

section Read

variable {zlib : Zlib} {region : RegionFile} {offset : Int}

/-- The head of a record that begins in the file. -/
theorem head_reads (sectors : WholeSectors region)
    (place : 0 ≤ offset / 256 ∧ offset / 256 < region.sectorFree.length) :
    toInt (offset / 256 * sectorBytes) = ((4096 * (offset / 256).toNat : Nat) : Int) ∧
      4096 * (offset / 256).toNat + 5 ≤ region.fileStream.length := by
  obtain ⟨-, whole, -, below⟩ := sectors
  have position : offset / 256 * sectorBytes = ((4096 * (offset / 256).toNat : Nat) : Int) := by
    rw [sectorBytes]
    omega
  rw [position, toInt_small (by omega) (by omega)]
  exact ⟨rfl, by omega⟩

/-- The head of a record is not in the stream if the entry does not begin in
the file, though its sectors end there. -/
theorem head_outside (sectors : WholeSectors region) (low : -2 ^ 31 ≤ offset)
    (high : offset < 2 ^ 31) (ends : ¬Beyond region offset)
    (outside : ¬(0 ≤ offset / 256 ∧ offset / 256 < region.sectorFree.length)) :
    readAt region.fileStream (toInt (offset / 256 * sectorBytes)) 4 = none := by
  obtain ⟨-, whole, -, below⟩ := sectors
  have count : -128 ≤ toChar (offset % 256) ∧ toChar (offset % 256) ≤ 127 := by
    rw [toChar, Int.bmod_def]
    omega
  rw [Beyond, toULong] at ends
  rw [readAt, if_neg]
  rintro (nothing | ⟨nonneg, inside⟩)
  · cases nothing
  · rw [toInt, Int.bmod_def, sectorBytes] at nonneg inside
    omega

theorem decodeChunk_iff {version data : List UInt8} {length : Int} :
    (∃ chunk, decodeChunk zlib version length data = some chunk) ↔
      (versionMode version ≠ none → 1 ≤ length) := by
  unfold decodeChunk
  cases mode : versionMode version with
  | none => exact iff_of_true ⟨[], rfl⟩ fun some => absurd rfl some
  | some mode =>
      dsimp only
      by_cases short : length < 1
      · rw [if_pos short]
        refine iff_of_false ?_ fun some => absurd (some (by simp)) (Int.not_le.mpr short)
        rintro ⟨chunk, impossible⟩
        cases impossible
      · rw [if_neg short]
        exact iff_of_true ⟨_, rfl⟩ fun _ => Int.not_lt.mp short

theorem readAt_iff (cells : List UInt8) (start count : Nat) :
    (∃ read, readAt cells start count = some read) ↔ count = 0 ∨ start + count ≤ cells.length := by
  rw [readAt]
  constructor
  · rintro ⟨read, success⟩
    split at success
    · omega
    · cases success
  · intro inside
    rw [if_pos (by omega)]
    exact ⟨_, rfl⟩

/-- The reads behind the length of a record. -/
theorem record_iff {stream : List UInt8} {start : Nat} (head : start + 5 ≤ stream.length)
    (length : Int) :
    (∃ chunk, (do
      let version ← readAt stream (start + 4) 1
      let data ← readAt stream (start + 5) (length - 1).toNat
      decodeChunk zlib version length data) = some chunk) ↔
      (start + 4 + length ≤ stream.length ∧
        (versionMode (slice stream (start + 4) 1) ≠ none → 1 ≤ length)) := by
  have version : readAt stream ((start : Int) + 4) 1 = some (slice stream (start + 4) 1) :=
    readAt_inside (start + 4) (by omega)
  have room : (∃ data, readAt stream ((start : Int) + 5) (length - 1).toNat = some data) ↔
      start + 4 + length ≤ stream.length := by
    refine (readAt_iff stream (start + 5) (length - 1).toNat).trans ?_
    omega
  rw [← room]
  constructor
  · rintro ⟨chunk, success⟩
    obtain ⟨found, same, success⟩ := Option.bind_eq_some_iff.mp success
    obtain rfl := Option.some.inj (same.symm.trans version)
    obtain ⟨data, read, success⟩ := Option.bind_eq_some_iff.mp success
    exact ⟨⟨data, read⟩, decodeChunk_iff.mp ⟨chunk, success⟩⟩
  · rintro ⟨⟨data, read⟩, sound⟩
    obtain ⟨chunk, success⟩ := decodeChunk_iff.mpr sound
    refine ⟨chunk, Option.bind_eq_some_iff.mpr ⟨_, version, ?_⟩⟩
    exact Option.bind_eq_some_iff.mpr ⟨data, read, success⟩

theorem readChunk_iff (sectors : WholeSectors region) (low : -2 ^ 31 ≤ offset)
    (high : offset < 2 ^ 31) (some : offset ≠ 0) :
    (∃ chunk, readChunk zlib offset region = Option.some chunk) ↔ ReadSound region offset := by
  rw [ReadSound, forall_prop_of_true some]
  unfold readChunk
  extract_lets sectorIndex sectorCount position
  by_cases beyond : Beyond region offset
  · have test : region.sectorFree.length < toULong (sectorIndex + sectorCount) := beyond
    rw [if_pos test]
    exact iff_of_true ⟨[], rfl⟩ fun ends => absurd beyond ends
  · have test : ¬region.sectorFree.length < toULong (sectorIndex + sectorCount) := beyond
    rw [if_neg test, forall_prop_of_true beyond]
    by_cases place : 0 ≤ offset / 256 ∧ offset / 256 < region.sectorFree.length
    · obtain ⟨start, head⟩ := head_reads sectors place
      have header : readAt region.fileStream position 4 =
          Option.some (slice region.fileStream (4096 * (offset / 256).toNat) 4) := by
        rw [show position = _ from start]
        exact readAt_inside _ (by omega)
      rw [header, Option.bind_eq_bind, Option.bind_some, and_iff_right place]
      extract_lets length
      by_cases tooLong : sectorBytes * sectorCount < length
      · rw [if_pos tooLong]
        refine iff_of_true ⟨[], rfl⟩ ⟨fun fits => ?_, fun decodes => ?_⟩
        · exact absurd tooLong (Int.not_lt.mpr fits)
        · exact absurd tooLong (Int.not_lt.mpr decodes.1)
      · have fits : storedLength region offset ≤ sectorBytes * toChar (offset % 256) :=
          Int.not_lt.mp tooLong
        rw [if_neg tooLong, forall_prop_of_true fits, Decodes, and_iff_right fits,
          show position = _ from start]
        refine (record_iff head length).trans (and_congr_left' ?_)
        rw [sectorBytes]
        change _ ↔ 4096 * (offset / 256) + 4 + length ≤ _
        omega
    · rw [head_outside sectors low high beyond place]
      refine iff_of_false ?_ fun sound => place sound.1
      rintro ⟨chunk, impossible⟩
      cases impossible

end Read

/-! ## A file of whole sectors -/

/-- At least two sectors, and less than `2 ^ 31` bytes. -/
structure WholeFile (file : List UInt8) : Prop where
  whole : file.length % 4096 = 0
  header : 8192 ≤ file.length
  below : file.length < 2 ^ 31

/-- A read of the chunk stays inside the stream, and decodes no more than there
is. -/
structure ReadInside (zlib : Zlib) (region : RegionFile) (x z offset : Int) : Prop where
  inside : ∃ chunk, getRegionChunk zlib x z region = some chunk
  input : offset ≠ 0 → ¬Beyond region offset → Decodes region offset →
    inputSize region offset ≤ region.fileStream.length

/-- What a write of the compressed chunk needs of the entry: the record in the
stream where it is stored in place, else the sectors in the map and room. -/
def WriteSound (region : RegionFile) (offset : Int) (outBuffer : List UInt8) : Prop :=
  if InPlace offset (sectorsNeeded outBuffer) then RecordInside region offset outBuffer
  else Releases region offset ∧ HasRoom region offset (sectorsNeeded outBuffer)

section File

variable {zlib : Zlib} {path : List UInt8} {files : Files} {region : RegionFile} {x z : Int}

theorem headerEntry_range (file : List UInt8) (key : Key) :
    -2 ^ 31 ≤ headerEntry file key ∧ headerEntry file key < 2 ^ 31 := by
  rw [headerEntry, intValue, toInt, Int.bmod_def]
  omega

/-- The region of the file, byte for byte. -/
theorem openRegion_whole (wholeFile : WholeFile (files path))
    (success : openRegion path files = some region) :
    region.fileStream = files path ∧ WholeSectors region ∧
      ∀ key : Key, region.offsets.get key = headerEntry (files path) key := by
  obtain ⟨whole, header, below⟩ := wholeFile
  obtain ⟨stream, opened, marks, entries⟩ := openRegion_some (by omega) success
  have same : paddedFile (files path) = files path := by
    rw [paddedFile, whole, List.replicate_zero, List.append_nil]
  rw [same] at stream
  rw [stream] at marks
  refine ⟨stream, ⟨opened, ?_, ?_, ?_⟩, entries⟩
  · rw [stream, marks]
    omega
  · omega
  · rwa [stream]

theorem readInside_iff (sectors : WholeSectors region) (inRange : InRange x z)
    (range : -2 ^ 31 ≤ entryAt region (chunkKey inRange) ∧
      entryAt region (chunkKey inRange) < 2 ^ 31) :
    ReadInside zlib region x z (entryAt region (chunkKey inRange)) ↔
      ReadSound region (entryAt region (chunkKey inRange)) := by
  have defined : (∃ chunk, getRegionChunk zlib x z region = some chunk) ↔
      ReadSound region (entryAt region (chunkKey inRange)) := by
    rw [getRegionChunk_entry sectors.opened inRange]
    split
    · rename_i zero
      exact iff_of_true ⟨[], rfl⟩ fun some => absurd zero some
    · rename_i some
      exact readChunk_iff sectors range.1 range.2 some
  rw [← defined]
  refine ⟨fun inside => inside.inside, fun inside => ⟨inside, fun some ends decodes => ?_⟩⟩
  obtain ⟨place, record, byte⟩ := defined.mp inside some ends
  have last := record decodes.1
  have first := byte decodes
  rw [sectorBytes] at last
  rw [inputSize, toULong]
  omega

theorem writeSound_iff (sectors : WholeSectors region) (inRange : InRange x z)
    {buffer : List UInt8} (few : ∀ outBuffer,
      zlib.encode buffer 7 zlibDeflateMode = some outBuffer → sectorsNeeded outBuffer ≤ 127)
    (time : Int) :
    (∃ after, setRegionChunk zlib x z buffer time region = some after) ↔
      ∀ outBuffer, zlib.encode buffer 7 zlibDeflateMode = some outBuffer →
        WriteSound region (entryAt region (chunkKey inRange)) outBuffer := by
  cases encoded : zlib.encode buffer 7 zlibDeflateMode with
  | none =>
      refine iff_of_true ⟨region, ?_⟩ fun outBuffer impossible => nomatch impossible
      rw [setRegionChunk, encoded]
  | some outBuffer =>
      rw [setRegionChunk_iff inRange sectors encoded (few outBuffer encoded)]
      constructor
      · intro sound other same
        obtain rfl := Option.some.inj same
        exact sound
      · exact fun sound => sound outBuffer rfl

/-- Which files of whole sectors are opened, and which entries and records the
calls on them need, bytes and all. -/
theorem corruptFile_iff (zlib : Zlib) (path : List UInt8) (files : Files)
    (wholeFile : WholeFile (files path)) (inRange : InRange x z) :
    ((∃ region, openRegion path files = some region) ↔ EntriesSound (files path)) ∧
      ∀ region, openRegion path files = some region →
        region.fileStream = files path ∧
        entryAt region (chunkKey inRange) = headerEntry (files path) (chunkKey inRange) ∧
        (ReadInside zlib region x z (entryAt region (chunkKey inRange)) ↔
          ReadSound region (entryAt region (chunkKey inRange))) ∧
        ∀ buffer time, (∀ outBuffer, zlib.encode buffer 7 zlibDeflateMode = some outBuffer →
            sectorsNeeded outBuffer ≤ 127) →
          ((∃ after, setRegionChunk zlib x z buffer time region = some after) ↔
            ∀ outBuffer, zlib.encode buffer 7 zlibDeflateMode = some outBuffer →
              WriteSound region (entryAt region (chunkKey inRange)) outBuffer) := by
  refine ⟨?_, fun region success => ?_⟩
  · obtain ⟨whole, header, below⟩ := wholeFile
    have counted : Counted (files path).length := .inl whole
    rw [openRegion_defined (by omega), and_iff_right counted, and_iff_right (by omega)]
  · obtain ⟨stream, sectors, entries⟩ := openRegion_whole wholeFile success
    have entry : entryAt region (chunkKey inRange) =
        headerEntry (files path) (chunkKey inRange) := entries (chunkKey inRange)
    exact ⟨stream, entry,
      readInside_iff sectors inRange (by rw [entry]; exact headerEntry_range _ _),
      fun buffer time few => writeSound_iff sectors inRange few time⟩

end File

/-! ## A header with one entry -/

/-- The header with the entry `00 00 02 01` of the first chunk and no other, in
front of other sectors. -/
def oneEntry (sectors : List UInt8) : List UInt8 :=
  splice (List.replicate 8192 0) 0 (intBytes 513) ++ sectors

section OneEntry

variable (sectors : List UInt8)

theorem oneEntry_header :
    0 + (intBytes 513).length ≤ (List.replicate 8192 (0 : UInt8)).length ∧
      (splice (List.replicate 8192 (0 : UInt8)) 0 (intBytes 513)).length = 8192 := by
  have inside : 0 + (intBytes 513).length ≤ (List.replicate 8192 (0 : UInt8)).length := by
    rw [List.length_replicate, intBytes_length]
    omega
  exact ⟨inside, by rw [length_splice inside, List.length_replicate]⟩

theorem oneEntry_length : (oneEntry sectors).length = 8192 + sectors.length := by
  rw [oneEntry, List.length_append, oneEntry_header.2]

theorem inRange_first : InRange 0 0 := ⟨by decide, by decide⟩

theorem oneEntry_entries (key : Key) :
    headerEntry (oneEntry sectors) key = if key = chunkKey inRange_first then 513 else 0 := by
  have bound : 4 * (key.val + 1) ≤ 4096 := Nat.mul_le_mul_left 4 key.isLt
  obtain ⟨inside, length⟩ := oneEntry_header
  rw [headerEntry, oneEntry, slice_append (by rw [length]; omega)]
  split
  · rename_i first
    have entry := slice_splice_self inside
    rw [intBytes_length] at entry
    have place : (chunkKey inRange_first).val = 0 := rfl
    rw [first, place, Nat.mul_zero, entry]
    exact intValue_intBytes (by decide) (by decide)
  · rename_i other
    have late : key.val ≠ 0 := fun zero => other (Fin.ext zero)
    rw [slice_splice_apart inside (.inr (by rw [intBytes_length]; omega)),
      slice_replicate (by omega)]
    decide

/-- Such a file is opened, and the entry is that of a sector behind the
header. -/
theorem oneEntry_opened (few : sectors.length = 4096 ∨ sectors.length = 0) : ∃ region,
    openRegion [0x72] (fun _ => oneEntry sectors) = some region ∧
      region.fileStream = oneEntry sectors ∧ WholeSectors region ∧
      entryAt region (chunkKey inRange_first) = 513 := by
  have length := oneEntry_length sectors
  have wholeFile : WholeFile (oneEntry sectors) := ⟨by omega, by omega, by omega⟩
  have counted : Counted (oneEntry sectors).length := .inl wholeFile.whole
  have entries : EntriesSound (oneEntry sectors) := fun _ key => by
    rw [oneEntry_entries, EntrySound]
    split
    · rw [MarksFit]
      intro ends
      rw [toULong] at ends
      omega
    · exact fun _ => .inl (Int.le_refl 0)
  obtain ⟨region, success⟩ := (@openRegion_defined [0x72] (fun _ => oneEntry sectors)
    (by omega)).mpr ⟨counted, by omega, entries⟩
  obtain ⟨stream, whole, offsets⟩ :=
    @openRegion_whole [0x72] (fun _ => oneEntry sectors) region wholeFile success
  refine ⟨region, success, stream, whole, ?_⟩
  exact (offsets (chunkKey inRange_first)).trans
    ((oneEntry_entries sectors _).trans (if_pos rfl))

theorem corruptFile_iff_one : ∃ region,
    openRegion [0x72] (fun _ => oneEntry []) = some region ∧
      (ReadInside storedZlib region 0 0 (entryAt region (chunkKey inRange_first)) ↔
        ReadSound region (entryAt region (chunkKey inRange_first))) ∧
      ((∃ after, setRegionChunk storedZlib 0 0 [0xc1] 1700000000 region = some after) ↔
        ∀ outBuffer, storedZlib.encode [0xc1] 7 zlibDeflateMode = some outBuffer →
          WriteSound region (entryAt region (chunkKey inRange_first)) outBuffer) := by
  have length := oneEntry_length []
  rw [List.length_nil] at length
  have wholeFile : WholeFile (oneEntry []) := ⟨by omega, by omega, by omega⟩
  obtain ⟨-, opened⟩ :=
    corruptFile_iff storedZlib [0x72] (fun _ => oneEntry []) wholeFile inRange_first
  obtain ⟨region, success, -⟩ := oneEntry_opened [] (.inr rfl)
  obtain ⟨-, -, read, write⟩ := opened region success
  refine ⟨region, success, read, write [0xc1] 1700000000 fun outBuffer encoded => ?_⟩
  obtain ⟨other, same, one⟩ := storedZlib_needs 0xc1
  obtain rfl := Option.some.inj (encoded.symm.trans same)
  omega

end OneEntry

/-- In a file that ends behind the header, the run of the entry is filled. -/
theorem fill_outside : ∃ region,
    openRegion [0x72] (fun _ => oneEntry []) = some region ∧
      setRegionChunk storedZlib 0 0 [0xc1] 1700000000 region = none := by
  obtain ⟨region, success, stream, sectors, entry⟩ := oneEntry_opened [] (.inr rfl)
  obtain ⟨outBuffer, encoded, one⟩ := storedZlib_needs 0xc1
  refine ⟨region, success, Option.eq_none_iff_forall_ne_some.mpr fun after written => ?_⟩
  have few : sectorsNeeded outBuffer ≤ 127 := by omega
  have room := (setRegionChunk_iff inRange_first sectors encoded few 1700000000).mp
    ⟨after, written⟩
  have inPlace : InPlace 513 1 := by decide
  rw [entry, one, if_pos inPlace, RecordInside, stream, oneEntry_length] at room
  have position : toInt (513 / 256 * sectorBytes) = 8192 := by decide
  rw [position, List.length_nil] at room
  omega

/-- A sector that begins with a record of length zero. -/
def zeroRecord : List UInt8 := [0, 0, 0, 0, 2] ++ List.replicate 4091 0

/-- The length zero less one is passed without a sign. -/
theorem decode_outside : ∃ region,
    openRegion [0x72] (fun _ => oneEntry zeroRecord) = some region ∧
      getRegionChunk storedZlib 0 0 region = none ∧ Decodes region 513 ∧
      inputSize region 513 = 2 ^ 64 - 1 := by
  have size : zeroRecord.length = 4096 := by
    rw [zeroRecord, List.length_append, List.length_replicate]
    rfl
  obtain ⟨region, success, stream, sectors, entry⟩ := oneEntry_opened zeroRecord (.inl size)
  have behind : (oneEntry zeroRecord).drop 8192 = zeroRecord := by
    rw [oneEntry, List.drop_left' oneEntry_header.2]
  have start : 4096 * ((513 : Int) / 256).toNat = 8192 := by decide
  have length : storedLength region 513 = 0 := by
    have head : zeroRecord.take 4 = [0, 0, 0, 0] := rfl
    rw [storedLength, stream, start, slice, behind, head]
    decide
  have version : storedVersion region 513 = [2] := by
    rw [storedVersion, stream, start, slice, ← List.drop_drop, behind]
    rfl
  have decodes : Decodes region 513 := by
    rw [Decodes, length, version]
    decide
  refine ⟨region, success, ?_, decodes, ?_⟩
  · have unsound : ¬ReadSound region 513 := fun sound => by
      have ends : ¬Beyond region 513 := by
        have whole := sectors.whole
        have position : toULong ((513 : Int) / 256 + toChar (513 % 256)) = 3 := by decide
        rw [stream, oneEntry_length, size] at whole
        rw [Beyond, position]
        omega
      have byte := (sound (by decide) ends).2.2 decodes
      rw [length] at byte
      exact absurd byte (by decide)
    rw [getRegionChunk_entry sectors.opened inRange_first, entry, if_neg (by decide),
      Option.eq_none_iff_forall_ne_some]
    intro chunk read
    exact unsound ((readChunk_iff sectors (by decide) (by decide) (by decide)).mp ⟨chunk, read⟩)
  · rw [inputSize, length]
    rfl

/-- A write in place behind the stream, and a read that has the chunk decoded
from more than there is. -/
theorem corrupt_outside :
    (∃ region, openRegion [0x72] (fun _ => oneEntry []) = some region ∧
      setRegionChunk storedZlib 0 0 [0xc1] 1700000000 region = none) ∧
    ∃ region, openRegion [0x72] (fun _ => oneEntry zeroRecord) = some region ∧
      getRegionChunk storedZlib 0 0 region = none ∧ Decodes region 513 ∧
      inputSize region 513 = 2 ^ 64 - 1 :=
  ⟨fill_outside, decode_outside⟩

end PodrumWorld.RegionCorrupt
