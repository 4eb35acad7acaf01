import PodrumFormal.World.RegionContent
import PodrumFormal.World.RegionTimes

/-!
# Large chunks

The count of a chunk's sectors passes through a `char`.  A chunk of more than
127 sectors is written over sectors that it does not own, or behind the end of
the file, and is never read again.
-/

set_option autoImplicit false

namespace PodrumWorld.RegionLarge

open Endian Slices Extents EventRun PodrumZlib.ZlibHelper Region RegionLayout RegionRun
  RegionSave RegionSearch RegionTimes RegionContent

/-! ## Reaching a region -/

section Reached

variable {zlib : Zlib} {region : RegionFile} {path : List UInt8} {files : Files}
  {writes : List ChunkWrite}

theorem storedFits_emptyRegion (path : List UInt8) : StoredFits (emptyRegion path) :=
  fun key extent held => by
    rw [emptyRegion_layout] at held
    cases held

theorem reached_storedFits (undoes : Undoes zlib) (short : (files path).length < sectorBytes)
    (each : ∀ write ∈ writes, Storable zlib write)
    (reached : (openRegion path files).bind (run (writeChunk zlib) writes) = some region) :
    StoredFits region := by
  have start := wellFormed_emptyRegion path
  rw [openRegion_short path short, Option.bind_some] at reached
  have throughout := throughout_of_run start each reached
  refine (throughout_visits (fun region => WellFormed region ∧ StoredFits region) ?_ writes
    (emptyRegion path) ⟨start, storedFits_emptyRegion path⟩ throughout region
    (visits_end reached)).2
  rintro region write next ⟨wellFormed, stored⟩ allowed stepped
  obtain ⟨after, written, afterWellFormed, afterStored, -⟩ :=
    writeChunk_chunks undoes wellFormed stored allowed
  obtain rfl := Option.some.inj (stepped.symm.trans written)
  exact ⟨afterWellFormed, afterStored⟩

end Reached

/-! ## The writes of a large chunk -/

section Large

variable {zlib : Zlib} {region after : RegionFile} {x z : Int} {buffer outBuffer : List UInt8}

/-- A record that is written, and what is read at its head. -/
theorem setRegionSector_some {sectorIndex : Int}
    (success : setRegionSector sectorIndex outBuffer region = some after)
    (opened : region.isOpen = 1) :
    ∃ start : Nat, toInt (sectorIndex * sectorBytes) = start ∧
      start + (outBuffer.length + 5) ≤ region.fileStream.length ∧
      after =
        { region with fileStream := splice region.fileStream start (chunkRecord outBuffer) } := by
  obtain ⟨nonneg, inside⟩ := (setRegionSector_iff opened sectorIndex).mp ⟨after, success⟩
  obtain ⟨start, position⟩ := Int.eq_ofNat_of_zero_le nonneg
  rw [position] at inside
  have fits : start + (chunkRecord outBuffer).length ≤ region.fileStream.length := by
    rw [chunkRecord_length]
    omega
  rw [setRegionSector, if_neg (by rw [opened]; decide), position,
    writeAt_inside start fits] at success
  exact ⟨start, position, by omega, (Option.some.inj success).symm⟩

theorem slice_header {stream : List UInt8} {start : Nat}
    (fits : start + (outBuffer.length + 5) ≤ stream.length) :
    slice (splice stream start (chunkRecord outBuffer)) start 4 =
      intBytes (outBuffer.length + 1) := by
  have record : slice (splice stream start (chunkRecord outBuffer)) start
      (chunkRecord outBuffer).length = chunkRecord outBuffer :=
    slice_splice_self (by rw [chunkRecord_length]; exact fits)
  rw [chunkRecord_length] at record
  calc slice (splice stream start (chunkRecord outBuffer)) start 4
      = slice (slice (splice stream start (chunkRecord outBuffer)) start
          (outBuffer.length + 5)) 0 4 := by rw [slice_slice (by omega), Nat.add_zero]
    _ = slice (chunkRecord outBuffer) 0 4 := by rw [record]
    _ = intBytes (outBuffer.length + 1) := (slice_chunkRecord outBuffer).1

/-- The length at the head of the record is too much for the count. -/
theorem oversized_header {offset : Int} {start : Nat}
    (position : toInt (offset / 256 * sectorBytes) = start)
    (inside : start + 4 ≤ region.fileStream.length)
    (header : slice region.fileStream start 4 = intBytes (outBuffer.length + 1))
    (few : outBuffer.length + 1 < 2 ^ 31)
    (exceeds : sectorBytes * toChar (offset % 256) < outBuffer.length + 1) :
    Oversized region offset := by
  refine ⟨intBytes (outBuffer.length + 1), ?_, ?_⟩
  · rw [position, readAt_inside start inside, header]
  · rwa [intValue_length few]

/-- What the `char` makes of a count above 127. -/
theorem large_required (large : 127 < sectorsNeeded outBuffer) :
    -128 ≤ requiredSectorCount outBuffer ∧ requiredSectorCount outBuffer ≤ 127 ∧
      sectorBytes * requiredSectorCount outBuffer < outBuffer.length + 1 := by
  rw [sectorsNeeded, chunkHeaderSize, sectorBytes] at large
  rw [requiredSectorCount, chunkHeaderSize, sectorBytes, toChar, Int.bmod_def]
  omega

/-- The record of a run is not longer than the run. -/
theorem stored_short (wellFormed : WellFormed region) (stored : StoredFits region) {key : Key}
    {extent : Extent} (held : layout region key = some extent) :
    bigValue (slice region.fileStream (4096 * extent.start) 4) + 4 ≤ 4096 * extent.count := by
  have fits := stored key extent held
  have some := (wellFormed.counts key extent held).1
  rw [RecordFits, runBytes_length wellFormed held, runBytes, slice_slice (by omega),
    Nat.add_zero] at fits
  exact fits

/-- In place, the record is longer than the run. -/
theorem refill_large (wellFormed : WellFormed region) (stored : StoredFits region)
    (inRange : InRange x z) (large : 127 < sectorsNeeded outBuffer)
    (inPlace : entryAt region (chunkKey inRange) / 256 ≠ 0 ∧
      toChar (entryAt region (chunkKey inRange) % 256) = requiredSectorCount outBuffer)
    (success : setRegionSector (entryAt region (chunkKey inRange) / 256) outBuffer region =
      some after) :
    getRegionChunk zlib x z after = some [] ∧ after ≠ region := by
  obtain ⟨-, few, exceeds⟩ := large_required large
  obtain ⟨start, position, inside, same⟩ := setRegionSector_some success wellFormed.opened
  have below := wellFormed.below
  have header : slice after.fileStream start 4 = intBytes (outBuffer.length + 1) := by
    rw [same]
    exact slice_header inside
  have entry : entryAt after (chunkKey inRange) = entryAt region (chunkKey inRange) := by
    rw [same]
    rfl
  refine ⟨getRegionChunk_nothing (by rw [same]; exact wellFormed.opened) inRange (.inr ?_), ?_⟩
  · rw [entry]
    refine oversized_header position ?_ header (by omega) (by rw [inPlace.2]; exact exceeds)
    rw [same, length_splice (by rw [chunkRecord_length]; exact inside)]
    omega
  · rintro rfl
    -- What the run held before was not longer than the run.
    have held : layout after (chunkKey inRange) = _ :=
      layout_of_entry fun zero => inPlace.1 (by rw [zero]; rfl)
    have short := stored_short wellFormed stored held
    obtain ⟨-, startEq, countEq⟩ := entry_of_layout wellFormed held
    have count := (wellFormed.counts _ _ held).2
    have last := (wellFormed.allocated.inside _ _ held).2
    have whole := wellFormed.whole
    generalize (entryAt after (chunkKey inRange) / 256).toNat = first at *
    generalize (entryAt after (chunkKey inRange) % 256).toNat = width at *
    dsimp only at startEq countEq count short last
    rw [countEq, toChar_small (Int.natCast_nonneg _) (by omega)] at inPlace
    rw [startEq, sectorBytes, toInt_small (by omega) (by omega)] at position
    have same : 4096 * first = start := by omega
    rw [same, header, bigValue_length (by omega)] at short
    rw [← inPlace.2, sectorBytes] at exceeds
    omega

/-- The entry of a run with a wrapped count is read as nothing. -/
theorem packed_nothing {start : Nat} {required : Int} (low : -128 ≤ required)
    (high : required ≤ 127) (sectors : region.sectorFree.length < 2 ^ 31)
    (oversized : 0 ≤ required → ∀ offset : Int, offset / 256 = start →
      toChar (offset % 256) = required → Oversized region offset) :
    Beyond region (packOffset start required) ∨ Oversized region (packOffset start required) := by
  rw [packOffset]
  split
  · rename_i nonneg
    refine .inr (oversized nonneg _ (by omega) ?_)
    have count : ((start : Int) * 256 + required) % 256 = required := by omega
    rw [count, toChar_small nonneg high]
  · left
    have count : toChar (required % 256) = required := by
      rw [toChar, Int.bmod_def]
      omega
    rw [Beyond, count, toULong]
    omega

/-- With such an entry the chunk was in place. -/
theorem packOffset_inPlace {start : Nat} {required : Int} (early : 2 ≤ start)
    (high : required ≤ 127) (nonneg : 0 ≤ packOffset start required) :
    packOffset start required / 256 ≠ 0 ∧ toChar (packOffset start required % 256) = required := by
  rw [packOffset] at nonneg ⊢
  split at nonneg
  · rename_i some
    have first : ((start : Int) * 256 + required) / 256 = start := by omega
    have count : ((start : Int) * 256 + required) % 256 = required := by omega
    rw [if_pos some, first, count, toChar_small some high]
    exact ⟨by omega, rfl⟩
  · exact absurd nonneg ‹_›

/-- What a reused run leaves: the entry of the run, and the record where it
begins.  The stamp is in the header, in front of the record. -/
theorem reuseRun_after (inRange : InRange x z) (sectors : WholeSectors region)
    {runStart required : Int} (time : Int)
    (success : (reuseRun x z outBuffer runStart required region).bind
      (setRegionTimestamp x z time) = some after) :
    ∃ first : Nat, toInt (runStart * sectorBytes) = first ∧
      first + (outBuffer.length + 5) ≤ region.fileStream.length ∧ after.isOpen = 1 ∧
      after.sectorFree.length = region.sectorFree.length ∧
      after.fileStream.length = region.fileStream.length ∧
      entryAt after (chunkKey inRange) = packOffset runStart required ∧
      (8192 ≤ first → slice after.fileStream first 4 = intBytes (outBuffer.length + 1)) := by
  obtain ⟨opened, whole, header, below⟩ := sectors
  have bound : 4 * ((chunkKey inRange).val + 1) ≤ 4096 :=
    Nat.mul_le_mul_left 4 (chunkKey inRange).isLt
  rw [reuseRun, setRegionOffset_key inRange _ (by omega)] at success
  simp only [Option.bind_eq_bind, Option.bind_some] at success
  obtain ⟨stored, success, stamped⟩ := Option.bind_eq_some_iff.mp success
  obtain ⟨marks, marked, success⟩ := Option.bind_eq_some_iff.mp success
  obtain ⟨first, position, inside, rfl⟩ := setRegionSector_some success opened
  have marksLength : marks.length = region.sectorFree.length := (markSectors_some marked).1
  have linkedLength : (splice region.fileStream (4 * (chunkKey inRange).val)
      (intBytes (packOffset runStart required))).length = region.fileStream.length :=
    length_splice (by rw [intBytes_length]; omega)
  generalize splice region.fileStream (4 * (chunkKey inRange).val)
    (intBytes (packOffset runStart required)) = linked at *
  dsimp only at inside
  have storedLength : (splice linked first (chunkRecord outBuffer)).length = linked.length :=
    length_splice (by rw [chunkRecord_length]; exact inside)
  have stampFits : 4096 + 4 * (chunkKey inRange).val + (intBytes time).length ≤
      (splice linked first (chunkRecord outBuffer)).length := by
    rw [storedLength, intBytes_length]
    omega
  rw [setRegionTimestamp_key inRange time (by dsimp only; omega)] at stamped
  obtain rfl := Option.some.inj stamped
  refine ⟨first, position, by omega, opened, marksLength, ?_, ?_, fun late => ?_⟩
  · rw [length_splice stampFits, storedLength, linkedLength]
  · exact (get_set _ _ _ _).trans (if_pos rfl)
  · refine (slice_splice_apart stampFits (.inr ?_)).trans (slice_header inside)
    rw [intBytes_length]
    omega

/-- In a run that the search found, the record may go on over other sectors. -/
theorem reuse_large (inRange : InRange x z) (sectors : WholeSectors region) {runStart : Int}
    (found : runStart = -1 ∨ ∃ start : Nat, runStart = start ∧ Free region.sectorFree start)
    (inMap : ∀ start, Free region.sectorFree start →
      2 ≤ start ∧ start < region.sectorFree.length)
    (large : 127 < sectorsNeeded outBuffer) (time : Int)
    (success : (reuseRun x z outBuffer runStart (requiredSectorCount outBuffer) region).bind
      (setRegionTimestamp x z time) = some after) :
    ∃ start : Nat, 2 ≤ start ∧
      entryAt after (chunkKey inRange) = packOffset start (requiredSectorCount outBuffer) ∧
      getRegionChunk zlib x z after = some [] := by
  obtain ⟨low, high, exceeds⟩ := large_required large
  obtain ⟨first, position, inside, opened, map, stream, entry, record⟩ :=
    reuseRun_after inRange sectors time success
  have whole := sectors.whole
  have below := sectors.below
  rcases found with rfl | ⟨start, rfl, free⟩
  · have before : toInt (-1 * sectorBytes) = -4096 := by decide
    omega
  · obtain ⟨late, last⟩ := inMap start free
    rw [sectorBytes, toInt_small (by omega) (by omega)] at position
    refine ⟨start, late, entry, getRegionChunk_nothing opened inRange ?_⟩
    rw [entry]
    refine packed_nothing low high (by omega) fun _ offset startEq countEq => ?_
    have place : toInt (offset / 256 * sectorBytes) = first := by
      rw [startEq, sectorBytes, toInt_small (by omega) (by omega), position]
    exact oversized_header place (by omega) (record (by omega)) (by omega)
      (by rw [countEq]; exact exceeds)

/-- Behind the end of the file there is not the room for the record. -/
theorem append_large (sectors : WholeSectors region) (large : 127 < sectorsNeeded outBuffer) :
    appendRun x z outBuffer (requiredSectorCount outBuffer) region = none := by
  obtain ⟨-, -, exceeds⟩ := large_required large
  obtain ⟨opened, whole, header, below⟩ := sectors
  rw [Option.eq_none_iff_forall_ne_some]
  intro after success
  rw [appendRun] at success
  simp only [Option.bind_eq_bind] at success
  obtain ⟨grown, growth, success⟩ := Option.bind_eq_some_iff.mp success
  obtain ⟨stored, success, -⟩ := Option.bind_eq_some_iff.mp success
  unfold growRegion at growth
  split at growth
  · cases growth
    obtain ⟨start, position, inside, -⟩ := setRegionSector_some success opened
    dsimp only at inside
    rw [List.length_append, List.length_replicate] at inside
    rw [sectorBytes] at position inside exceeds
    rw [toInt_small (by omega) (by omega)] at position
    omega
  · cases growth

/-- A chunk of more than 127 sectors is never stored. -/
theorem writeChunk_large {write : ChunkWrite} (wellFormed : WellFormed region)
    (stored : StoredFits region) (inRange : InRange write.x write.z)
    (encoded : zlib.encode write.buffer 7 zlibDeflateMode = some outBuffer)
    (large : 127 < sectorsNeeded outBuffer)
    (written : writeChunk zlib region write = some after) :
    getRegionChunk zlib write.x write.z after = some [] ∧ after ≠ region := by
  simp only [writeChunk, setRegionChunk, encoded, getRegionOffset_entry inRange,
    Option.bind_eq_bind, Option.bind_some] at written
  split at written
  · rename_i inPlace
    exact refill_large wellFormed stored inRange large inPlace written
  · rename_i moves
    obtain ⟨freed, released, length, -, allocated⟩ :=
      markSectors_release wellFormed (chunkKey inRange)
    have sectors := (wholeSectors_of_wellFormed wellFormed).remapped length
    have inMap : ∀ start, Free freed start → 2 ≤ start ∧ start < freed.length := fun start free =>
      ⟨((allocated.free_iff start (free_lt free)).mp free).1, free_lt free⟩
    rw [released, Option.bind_some, moveChunk] at written
    split at written
    · rename_i enough
      obtain ⟨start, early, entry, read⟩ :=
        reuse_large inRange sectors (findRun_start enough) inMap large write.time written
      refine ⟨read, fun same => ?_⟩
      rw [same] at entry
      have nonneg : 0 ≤ entryAt region (chunkKey inRange) := wellFormed.nonneg (chunkKey inRange)
      rw [entry] at moves nonneg
      exact moves (packOffset_inPlace early (large_required large).2.1 nonneg)
    · rw [append_large sectors large] at written
      cases written

end Large

/-! ## Every further chunk -/

/-- The chunk is stored, or nothing is changed, and every other chunk reads as
before. -/
def StoredOrUnchanged (zlib : Zlib) (region : RegionFile) (write : ChunkWrite) : Prop :=
  ∃ after, writeChunk zlib region write = some after ∧
    (getRegionChunk zlib write.x write.z after = some write.buffer ∨ after = region) ∧
    ∀ x z, (x, z) ≠ (write.x, write.z) →
      getRegionChunk zlib x z after = getRegionChunk zlib x z region

/-- After any run of writes, a chunk is handled right if it needs at most 127
sectors, and only then. -/
theorem largeChunk_iff {zlib : Zlib} (undoes : Undoes zlib)
    (empty : ∀ outBuffer, zlib.encode [] 7 zlibDeflateMode = some outBuffer →
      sectorsNeeded outBuffer ≤ 127)
    (path : List UInt8) (files : Files) (short : (files path).length < sectorBytes)
    (writes : List ChunkWrite) (each : ∀ other ∈ writes, Storable zlib other)
    {region : RegionFile}
    (reached : (openRegion path files).bind (run (writeChunk zlib) writes) = some region)
    {write : ChunkWrite} (inRange : InRange write.x write.z) {outBuffer : List UInt8}
    (encoded : zlib.encode write.buffer 7 zlibDeflateMode = some outBuffer)
    (below : ∀ size, sizeAfter region write.x write.z outBuffer = some size → size < 2 ^ 31) :
    StoredOrUnchanged zlib region write ↔ sectorsNeeded outBuffer ≤ 127 := by
  have wellFormed := reached_wellFormed short each reached
  have stored := reached_storedFits undoes short each reached
  constructor
  · rintro ⟨after, written, kept, -⟩
    by_contra large
    obtain ⟨read, changed⟩ := writeChunk_large wellFormed stored inRange encoded
      (Nat.not_le.mp large) written
    rw [read, Option.some.injEq] at kept
    have nothing := kept.resolve_right changed
    rw [← nothing] at encoded
    exact large (empty outBuffer encoded)
  · intro few
    have allowed : Allowed zlib region write :=
      { inRange
        few := fun other same => by
          obtain rfl := Option.some.inj (encoded.symm.trans same)
          exact few
        below := fun other size same => by
          obtain rfl := Option.some.inj (encoded.symm.trans same)
          exact below size }
    obtain ⟨after, written, -, -, content⟩ := writeChunk_chunks undoes wellFormed stored allowed
    refine ⟨after, written, .inl ?_, fun x z different => ?_⟩
    · have own := congrFun content (write.x, write.z)
      rwa [Function.update_self] at own
    · have other := congrFun content (x, z)
      rwa [Function.update_of_ne different] at other

/-! ## Stored blocks -/

/-- A block that is not compressed, of at most 65535 bytes. -/
def storedBlock (last : UInt8) (data : List UInt8) : List UInt8 :=
  last :: (littleBytes 2 data.length ++ (littleBytes 2 (65535 - data.length) ++ data))

/-- Literals alone are flushed as soon as they are more than 31 KiB. -/
def rawBlockSize : Nat := 31 * 1024 + 1

def storedBlocks : Nat → List UInt8 → List UInt8
  | 0, data => storedBlock 1 data
  | fuel + 1, data =>
      if data.length ≤ rawBlockSize then storedBlock 1 data
      else storedBlock 0 (data.take rawBlockSize) ++ storedBlocks fuel (data.drop rawBlockSize)

def readBlocks : Nat → List UInt8 → List UInt8
  | 0, _ => []
  | fuel + 1, encoded =>
      let size := littleValue (slice encoded 1 2)
      let data := slice encoded 5 size
      if encoded.head? = some 1 then data
      else data ++ readBlocks fuel (encoded.drop (5 + size))

/-- The zlib format as miniz writes bytes in which it finds no match: each
block would grow, and is sent raw. -/
def blockZlib : Zlib where
  encode data _ _ :=
    some ([0x78, 0x01] ++ (storedBlocks data.length data ++ bigBytes 4 (adler32 data)))
  decode encoded _ := some (readBlocks encoded.length (encoded.drop 2))

theorem readBlocks_block (fuel : Nat) (last : UInt8) {data : List UInt8} (rest : List UInt8)
    (short : data.length ≤ 65535) :
    readBlocks (fuel + 1) (storedBlock last data ++ rest) =
      if last = 1 then data else data ++ readBlocks fuel rest := by
  have two := littleBytes_length 2 data.length
  have four : (littleBytes 2 data.length ++ littleBytes 2 (65535 - data.length)).length = 4 := by
    rw [List.length_append, littleBytes_length, littleBytes_length]
  have size : slice (storedBlock last data ++ rest) 1 2 = littleBytes 2 data.length := by
    rw [slice, storedBlock, List.cons_append, List.drop_succ_cons, List.drop_zero,
      List.append_assoc, List.take_left' two]
  have value : littleValue (littleBytes 2 data.length) = data.length := by
    rw [littleValue_littleBytes]
    exact Nat.mod_eq_of_lt (by omega)
  have behind : (storedBlock last data ++ rest).drop 5 = data ++ rest := by
    rw [storedBlock, List.cons_append, List.drop_succ_cons, ← List.append_assoc,
      List.append_assoc, List.drop_left' four]
  have content : slice (storedBlock last data ++ rest) 5 data.length = data := by
    rw [slice, behind, List.take_left' rfl]
  have next : (storedBlock last data ++ rest).drop (5 + data.length) = rest := by
    rw [← List.drop_drop, behind, List.drop_left' rfl]
  have head : (storedBlock last data ++ rest).head? = some last := rfl
  rw [readBlocks, size, value, content, next, head]
  simp only [Option.some.injEq]

theorem readBlocks_storedBlocks : ∀ (fuel limit : Nat) (data rest : List UInt8),
    data.length ≤ rawBlockSize * (fuel + 1) → fuel < limit →
    readBlocks limit (storedBlocks fuel data ++ rest) = data := by
  have describable : rawBlockSize ≤ 65535 := by decide
  intro fuel
  induction fuel with
  | zero =>
      rintro (_ | limit) data rest short enough
      · exact absurd enough (Nat.not_lt_zero _)
      · rw [storedBlocks, readBlocks_block limit 1 rest (by omega), if_pos rfl]
  | succ fuel ih =>
      rintro (_ | limit) data rest short enough
      · exact absurd enough (Nat.not_lt_zero _)
      · rw [storedBlocks]
        split
        · rename_i one
          rw [readBlocks_block limit 1 rest (Nat.le_trans one describable), if_pos rfl]
        · rw [List.append_assoc, readBlocks_block limit 0 _ (by rw [List.length_take]; omega),
            if_neg (by decide), ih limit (data.drop rawBlockSize) rest
              (by rw [List.length_drop]; exact Nat.sub_le_iff_le_add.mpr short) (by omega),
            List.take_append_drop]

theorem storedBlocks_length : ∀ (fuel : Nat) (data : List UInt8),
    data.length ≤ (storedBlocks fuel data).length := by
  have block : ∀ (last : UInt8) (data : List UInt8),
      data.length ≤ (storedBlock last data).length := fun last data => by
    simp only [storedBlock, List.length_cons, List.length_append]
    omega
  intro fuel
  induction fuel with
  | zero => exact block 1
  | succ fuel ih =>
      intro data
      rw [storedBlocks]
      split
      · exact block 1 data
      · have first := block 0 (data.take rawBlockSize)
        have others := ih (data.drop rawBlockSize)
        rw [List.length_take] at first
        rw [List.length_drop] at others
        rw [List.length_append]
        omega

theorem blockZlib_undoes : Undoes blockZlib where
  decoded buffer := by
    refine ⟨_, rfl, ?_⟩
    have length := storedBlocks_length buffer.length buffer
    have body : ([0x78, 0x01] ++ (storedBlocks buffer.length buffer ++
        bigBytes 4 (adler32 buffer))).drop 2 =
          storedBlocks buffer.length buffer ++ bigBytes 4 (adler32 buffer) := rfl
    simp only [blockZlib]
    rw [body, readBlocks_storedBlocks _ _ _ _ (by rw [rawBlockSize]; omega) (by
      simp only [List.length_append, bigBytes_length, List.length_cons, List.length_nil]
      omega)]

/-- A register of three bytes that is fed back to its end. -/
def registerBytes : Nat → UInt8 → UInt8 → UInt8 → List UInt8
  | 0, _, _, _ => []
  | count + 1, first, second, third =>
      first :: registerBytes count second third
        (first + UInt8.ofNat ((second.toNat + 1) * (third.toNat + 3) / 16))

theorem registerBytes_length (count : Nat) : ∀ first second third : UInt8,
    (registerBytes count first second third).length = count := by
  induction count with
  | zero => exact fun first second third => rfl
  | succ count ih =>
      intro first second third
      rw [registerBytes, List.length_cons, ih]

/-- As many bytes as 127 sectors have.  No three of them in a row come a second
time, so there is no match, and every byte occurs about as often. -/
def noise : List UInt8 := registerBytes 520192 1 2 3

def noiseWrite : ChunkWrite := ⟨0, 0, noise, 1700000000⟩

theorem noise_length : noiseWrite.buffer.length = 520192 := by
  rw [noiseWrite, noise, registerBytes_length]

theorem noise_needs : ∃ outBuffer,
    blockZlib.encode noiseWrite.buffer 7 zlibDeflateMode = some outBuffer ∧
    127 < sectorsNeeded outBuffer := by
  refine ⟨_, rfl, ?_⟩
  have size := noise_length
  have length := storedBlocks_length noiseWrite.buffer.length noiseWrite.buffer
  rw [sectorsNeeded, chunkHeaderSize, sectorBytes, List.length_append, List.length_append]
  omega

theorem empty_needs : ∀ outBuffer, blockZlib.encode [] 7 zlibDeflateMode = some outBuffer →
    sectorsNeeded outBuffer ≤ 127 := by
  rintro outBuffer encoded
  obtain rfl := Option.some.inj encoded
  decide

theorem reached_empty :
    (openRegion [0x72] fun _ => []).bind (run (writeChunk blockZlib) []) =
      some (emptyRegion [0x72]) := by
  rw [openRegion_short [0x72] (by decide)]
  rfl

theorem inRange_noise : InRange noiseWrite.x noiseWrite.z := ⟨by decide, by decide⟩

theorem largeChunk_iff_noise : ∃ outBuffer,
    blockZlib.encode noiseWrite.buffer 7 zlibDeflateMode = some outBuffer ∧
      (StoredOrUnchanged blockZlib (emptyRegion [0x72]) noiseWrite ↔
        sectorsNeeded outBuffer ≤ 127) := by
  obtain ⟨outBuffer, encoded, -⟩ := noise_needs
  refine ⟨outBuffer, encoded, largeChunk_iff blockZlib_undoes empty_needs [0x72] (fun _ => [])
    (by decide) [] (fun _ member => nomatch member) reached_empty inRange_noise encoded ?_⟩
  intro size foreseen
  have grown := sizeAfter_le foreseen
  rw [emptyRegion, List.length_replicate] at grown
  omega

/-- The write of the noise begins in front of the stream. -/
theorem noise_lost :
    Undoes blockZlib ∧
      (openRegion [0x72] fun _ => []).bind (run (writeChunk blockZlib) []) =
        some (emptyRegion [0x72]) ∧
      ¬StoredOrUnchanged blockZlib (emptyRegion [0x72]) noiseWrite := by
  refine ⟨blockZlib_undoes, reached_empty, ?_⟩
  obtain ⟨outBuffer, encoded, large⟩ := noise_needs
  rintro ⟨after, written, kept, -⟩
  obtain ⟨read, changed⟩ := writeChunk_large (wellFormed_emptyRegion [0x72])
    (storedFits_emptyRegion [0x72]) inRange_noise encoded large written
  rw [read, Option.some.injEq] at kept
  have length := noise_length
  rw [← kept.resolve_right changed, List.length_nil] at length
  omega

end PodrumWorld.RegionLarge
