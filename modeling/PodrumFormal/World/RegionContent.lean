import PodrumFormal.Lib.LastWrite
import PodrumFormal.World.RegionSave

/-!
# The chunks of a region

What is read of a chunk depends only on the bytes of its run, so that a write
changes what is read of its own chunk and of no other: a region is a map of
chunks.
-/

set_option autoImplicit false

namespace PodrumWorld.RegionContent

open Endian Slices Extents EventRun LastWrite PodrumZlib.ZlibHelper Region RegionLayout RegionRun
  RegionSave

/-! ## Reading a run -/

/-- A run holds its record: the stored length and the four bytes of it. -/
def RecordFits (bytes : List UInt8) : Prop := bigValue (slice bytes 0 4) + 4 ≤ bytes.length

/-- The bytes of a run. -/
def runBytes (region : RegionFile) (extent : Extent) : List UInt8 :=
  slice region.fileStream (4096 * extent.start) (4096 * extent.count)

/-- The end of every run's record is in the run. -/
def StoredFits (region : RegionFile) : Prop :=
  ∀ key extent, layout region key = some extent → RecordFits (runBytes region extent)

/-- What a run with these bytes is read as. -/
def chunkOf (zlib : Zlib) (bytes : List UInt8) : Option (List UInt8) :=
  let length := intValue (slice bytes 0 4)
  decodeChunk zlib (slice bytes 4 1) length (slice bytes 5 (length - 1).toNat)

section Read

variable {zlib : Zlib} {region : RegionFile} {key : Key} {extent : Extent}

theorem runBytes_length (wellFormed : WellFormed region)
    (held : layout region key = some extent) :
    (runBytes region extent).length = 4096 * extent.count := by
  have last := (wellFormed.allocated.inside key extent held).2
  have whole := wellFormed.whole
  exact length_slice (by omega)

theorem readChunk_of_reads {regionOffset : Int} {header version data : List UInt8}
    (inFile : ¬region.sectorFree.length <
      toULong (regionOffset / 256 + toChar (regionOffset % 256)))
    (headerRead :
      readAt region.fileStream (toInt (regionOffset / 256 * sectorBytes)) 4 = some header)
    (short : ¬sectorBytes * toChar (regionOffset % 256) < intValue header)
    (versionRead :
      readAt region.fileStream (toInt (regionOffset / 256 * sectorBytes) + 4) 1 = some version)
    (dataRead :
      readAt region.fileStream (toInt (regionOffset / 256 * sectorBytes) + 5)
        (intValue header - 1).toNat = some data) :
    readChunk zlib regionOffset region = decodeChunk zlib version (intValue header) data := by
  unfold readChunk
  extract_lets sectorIndex sectorCount offset
  change readAt region.fileStream offset 4 = some header at headerRead
  change readAt region.fileStream (offset + 4) 1 = some version at versionRead
  change readAt region.fileStream (offset + 5) _ = some data at dataRead
  rw [if_neg inFile, headerRead, Option.bind_eq_bind, Option.bind_some]
  extract_lets length
  rw [if_neg short, versionRead, Option.bind_some, dataRead, Option.bind_some]

/-- The reads of a chunk are in its run. -/
theorem readChunk_run (wellFormed : WellFormed region) (held : layout region key = some extent)
    (fits : RecordFits (runBytes region extent)) :
    readChunk zlib (region.offsets.get key) region = chunkOf zlib (runBytes region extent) := by
  have length := runBytes_length wellFormed held
  obtain ⟨some, few⟩ := wellFormed.counts key extent held
  obtain ⟨late, last⟩ := wellFormed.allocated.inside key extent held
  have inside : 4096 * extent.start + 4096 * extent.count ≤ region.fileStream.length := by
    have whole := wellFormed.whole
    omega
  have below := wellFormed.below
  have header : slice (runBytes region extent) 0 4 =
      slice region.fileStream (4096 * extent.start) 4 := by
    rw [runBytes, slice_slice (by omega), Nat.add_zero]
  have headerRead : readAt region.fileStream ((4096 * extent.start : Nat) : Int) 4 =
      Option.some (slice region.fileStream (4096 * extent.start) 4) :=
    readAt_inside _ (by omega)
  have version : slice (runBytes region extent) 4 1 =
      slice region.fileStream (4096 * extent.start + 4) 1 := slice_slice (by omega)
  have versionRead : readAt region.fileStream (((4096 * extent.start : Nat) : Int) + 4) 1 =
      Option.some (slice region.fileStream (4096 * extent.start + 4) 1) :=
    readAt_inside (4096 * extent.start + 4) (by omega)
  rw [RecordFits, header, length] at fits
  have stored : intValue (slice region.fileStream (4096 * extent.start) 4) =
      (bigValue (slice region.fileStream (4096 * extent.start) 4) : Int) :=
    toInt_small (Int.natCast_nonneg _) (by omega)
  generalize bigValue (slice region.fileStream (4096 * extent.start) 4) = size at fits stored
  have within : 5 + ((size : Int) - 1).toNat ≤ 4096 * extent.count := by
    clear length
    omega
  have data : slice (runBytes region extent) 5 ((size : Int) - 1).toNat =
      slice region.fileStream (4096 * extent.start + 5) ((size : Int) - 1).toNat :=
    slice_slice within
  have dataRead : readAt region.fileStream (((4096 * extent.start : Nat) : Int) + 5)
      ((size : Int) - 1).toNat =
      Option.some (slice region.fileStream (4096 * extent.start + 5)
        ((size : Int) - 1).toNat) :=
    readAt_inside (4096 * extent.start + 5) (by omega)
  have short : ¬((sectorBytes : Int) * extent.count < size) := by
    rw [sectorBytes]
    omega
  have count : toChar (extent.count : Int) = extent.count :=
    toChar_small (Int.natCast_nonneg _) (by omega)
  have position : toInt (extent.start * sectorBytes) = ((4096 * extent.start : Nat) : Int) := by
    rw [toInt_small (by rw [sectorBytes]; omega) (by rw [sectorBytes]; omega), sectorBytes]
    omega
  have room : toULong ((extent.start : Int) + extent.count) = extent.start + extent.count := by
    rw [toULong]
    omega
  have startEq : region.offsets.get key / 256 = extent.start :=
    (entry_of_layout wellFormed held).2.1
  have countEq : region.offsets.get key % 256 = extent.count :=
    (entry_of_layout wellFormed held).2.2
  rw [chunkOf, header, version, stored, data, ← stored]
  apply readChunk_of_reads
  · rw [startEq, countEq, count, room]
    exact Nat.not_lt.mpr last
  · rw [startEq, position]
    exact headerRead
  · rw [countEq, count, stored]
    exact short
  · rw [startEq, position]
    exact versionRead
  · rw [startEq, position, stored]
    exact dataRead

theorem getRegionChunk_entry {x z : Int} (opened : region.isOpen = 1) (inRange : InRange x z) :
    getRegionChunk zlib x z region =
      if entryAt region (chunkKey inRange) = 0 then some []
      else readChunk zlib (entryAt region (chunkKey inRange)) region := by
  have within : Region.outOfBounds x z = false := by
    obtain ⟨column, row⟩ := inRange
    simp only [Region.outOfBounds, Bool.or_eq_false_iff, decide_eq_false_iff_not]
    omega
  rw [getRegionChunk, opened, if_neg (by decide), within, if_neg Bool.false_ne_true,
    getRegionOffset_entry inRange, Option.bind_eq_bind, Option.bind_some]

/-- The sectors of the entry end behind the file. -/
def Beyond (region : RegionFile) (offset : Int) : Prop :=
  region.sectorFree.length < toULong (offset / 256 + toChar (offset % 256))

/-- The stored length does not fit in the sectors of the entry. -/
def Oversized (region : RegionFile) (offset : Int) : Prop :=
  ∃ header, readAt region.fileStream (toInt (offset / 256 * sectorBytes)) 4 = some header ∧
    sectorBytes * toChar (offset % 256) < intValue header

theorem getRegionChunk_nothing {x z : Int} (opened : region.isOpen = 1) (inRange : InRange x z)
    (refused : Beyond region (entryAt region (chunkKey inRange)) ∨
      Oversized region (entryAt region (chunkKey inRange))) :
    getRegionChunk zlib x z region = some [] := by
  rw [getRegionChunk_entry opened inRange]
  generalize entryAt region (chunkKey inRange) = offset at refused
  split
  · rfl
  · unfold readChunk
    extract_lets sectorIndex sectorCount
    split
    · rfl
    · rename_i inFile
      obtain ⟨header, read, large⟩ := refused.resolve_left inFile
      rw [read, Option.bind_eq_bind, Option.bind_some, if_pos large]

/-- A chunk is read from its run, and there is nothing where it has none. -/
theorem getRegionChunk_layout (wellFormed : WellFormed region) (stored : StoredFits region)
    {x z : Int} (inRange : InRange x z) :
    getRegionChunk zlib x z region =
      match layout region (chunkKey inRange) with
      | none => some []
      | some extent => chunkOf zlib (runBytes region extent) := by
  rw [getRegionChunk_entry wellFormed.opened inRange]
  cases held : layout region (chunkKey inRange) with
  | none =>
      have zero : entryAt region (chunkKey inRange) = 0 := by
        rw [layout, ← entryAt, extentOf] at held
        by_contra other
        rw [if_neg other] at held
        cases held
      rw [if_pos zero]
  | some extent =>
      rw [if_neg (entry_of_layout wellFormed held).1]
      exact readChunk_run wellFormed held (stored _ _ held)

end Read

/-! ## A run that was written -/

section Written

variable {buffer bytes : List UInt8}

theorem intValue_length (few : buffer.length + 1 < 2 ^ 31) :
    intValue (intBytes (buffer.length + 1)) = buffer.length + 1 :=
  intValue_intBytes (by omega) (by omega)

theorem bigValue_length (few : buffer.length + 1 < 2 ^ 31) :
    bigValue (intBytes (buffer.length + 1)) = buffer.length + 1 := by
  rw [intBytes, bigValue_bigBytes]
  omega

/-- The fields of a record. -/
theorem slice_chunkRecord (buffer : List UInt8) :
    slice (chunkRecord buffer) 0 4 = intBytes (buffer.length + 1) ∧
      slice (chunkRecord buffer) 4 1 = [versionDeflate] ∧
      slice (chunkRecord buffer) 5 buffer.length = buffer := by
  have four := intBytes_length (buffer.length + 1)
  refine ⟨?_, ?_, ?_⟩
  · rw [slice, chunkRecord, List.drop_zero, List.take_left' four]
  · rw [slice, chunkRecord, List.drop_left' four, List.take_succ_cons, List.take_zero]
  · have five : (intBytes (buffer.length + 1) ++ [versionDeflate]).length = 5 := by
      rw [List.length_append, four, List.length_singleton]
    rw [slice, chunkRecord, List.append_cons, List.drop_left' five, List.take_length]

/-- A run is read as what was written to it, whatever is behind the record. -/
theorem chunkOf_record {zlib : Zlib} (few : buffer.length + 1 < 2 ^ 31)
    (record : slice bytes 0 (buffer.length + 5) = chunkRecord buffer) :
    chunkOf zlib bytes = some ((zlib.decode buffer zlibDeflateMode).getD []) := by
  obtain ⟨header, version, data⟩ := slice_chunkRecord buffer
  rw [← record, slice_slice (by omega), Nat.zero_add] at header version data
  have stored : intValue (slice bytes 0 4) = buffer.length + 1 := by
    rw [header, intValue_length few]
  have count : ((buffer.length : Int) + 1 - 1).toNat = buffer.length := by omega
  rw [chunkOf, stored, count, version, data, decodeChunk]
  have mode : versionMode [versionDeflate] = some zlibDeflateMode := by decide
  have some : ¬((buffer.length : Int) + 1 < 1) := by omega
  simp only [mode, if_neg some]

theorem recordFits_record (few : buffer.length + 1 < 2 ^ 31)
    (record : slice bytes 0 (buffer.length + 5) = chunkRecord buffer)
    (room : buffer.length + 5 ≤ bytes.length) : RecordFits bytes := by
  obtain ⟨header, -, -⟩ := slice_chunkRecord buffer
  rw [← record, slice_slice (by omega), Nat.zero_add] at header
  rw [RecordFits, header, bigValue_length few]
  omega

end Written

/-! ## The map of chunks -/

/-- Every buffer is encoded, and decoded as it was. -/
structure Undoes (zlib : Zlib) : Prop where
  decoded : ∀ buffer, ∃ outBuffer, zlib.encode buffer 7 zlibDeflateMode = some outBuffer ∧
    zlib.decode outBuffer zlibDeflateMode = some buffer

/-- What is read at each coordinate. -/
def chunks (zlib : Zlib) (region : RegionFile) : Int × Int → Option (List UInt8) :=
  fun place => getRegionChunk zlib place.1 place.2 region

section Chunks

variable {zlib : Zlib} {region after : RegionFile} {key : Key} {extent : Extent}
  {buffer : List UInt8}

theorem getRegionChunk_outside (opened : region.isOpen = 1) {x z : Int}
    (outside : ¬InRange x z) : getRegionChunk zlib x z region = some [] := by
  have beyond : Region.outOfBounds x z = true := by
    by_contra within
    apply outside
    simp only [Region.outOfBounds, Bool.or_eq_true, decide_eq_true_eq, not_or, Int.not_le,
      Int.not_lt, ge_iff_le] at within
    obtain ⟨⟨⟨left, right⟩, top⟩, bottom⟩ := within
    exact ⟨⟨left, right⟩, ⟨top, bottom⟩⟩
  rw [getRegionChunk, opened, if_neg (by decide), if_pos beyond]

/-- The record of the chunk, and the runs of the others. -/
theorem stores_runs (stores : Stores region after key extent buffer) :
    layout after key = some extent ∧
      slice (runBytes after extent) 0 (buffer.length + 5) = chunkRecord buffer ∧
      ∀ other, other ≠ key → layout after other = layout region other ∧
        ∀ held, layout region other = some held → runBytes after held = runBytes region held := by
  refine ⟨?_, ?_, fun other different => ⟨?_, fun held holds => ?_⟩⟩
  · rw [stores.layout, Function.update_self]
  · rw [runBytes, slice_slice (by have := stores.room; omega), Nat.add_zero, stores.record]
  · rw [stores.layout, Function.update_of_ne different]
  · exact stores.others other held different holds

theorem stores_short (wellFormed : WellFormed after)
    (stores : Stores region after key extent buffer) : buffer.length + 1 < 2 ^ 31 := by
  obtain ⟨held, -, -⟩ := stores_runs stores
  have few := (wellFormed.counts key extent held).2
  have room := stores.room
  omega

theorem storedFits_stores (wellFormed : WellFormed after) (stored : StoredFits region)
    (stores : Stores region after key extent buffer) : StoredFits after := by
  obtain ⟨held, record, others⟩ := stores_runs stores
  intro other taken holds
  by_cases same : other = key
  · subst same
    obtain rfl := Option.some.inj (held.symm.trans holds)
    apply recordFits_record (stores_short wellFormed stores) record
    rw [runBytes_length wellFormed held]
    exact stores.room
  · obtain ⟨entry, bytes⟩ := others other same
    rw [entry] at holds
    rw [bytes taken holds]
    exact stored other taken holds

theorem chunks_stores (wellFormed : WellFormed region) (stored : StoredFits region)
    (afterWellFormed : WellFormed after) {x z : Int} (inRange : InRange x z)
    (stores : Stores region after (chunkKey inRange) extent buffer) :
    chunks zlib after =
      Function.update (chunks zlib region) (x, z)
        (some ((zlib.decode buffer zlibDeflateMode).getD [])) := by
  obtain ⟨held, record, others⟩ := stores_runs stores
  have afterStored := storedFits_stores afterWellFormed stored stores
  funext ⟨otherX, otherZ⟩
  rw [Function.update_apply]
  by_cases within : InRange otherX otherZ
  · rw [chunks, getRegionChunk_layout afterWellFormed afterStored within]
    by_cases same : (otherX, otherZ) = (x, z)
    · obtain ⟨rfl, rfl⟩ := Prod.mk.inj same
      rw [if_pos same, held]
      exact chunkOf_record (stores_short afterWellFormed stores) record
    · have different : chunkKey within ≠ chunkKey inRange := fun equal =>
        same (Prod.ext_iff.mpr ((chunkKey_inj within inRange).mp equal))
      obtain ⟨entry, bytes⟩ := others _ different
      rw [if_neg same, chunks, getRegionChunk_layout wellFormed stored within, entry]
      cases holds : layout region (chunkKey within) with
      | none => rfl
      | some taken => exact congrArg (chunkOf zlib) (bytes taken holds)
  · have different : (otherX, otherZ) ≠ (x, z) := fun same => by
      obtain ⟨rfl, rfl⟩ := Prod.mk.inj same
      exact within inRange
    rw [if_neg different, chunks, chunks, getRegionChunk_outside afterWellFormed.opened within,
      getRegionChunk_outside wellFormed.opened within]

/-- A write replaces one chunk of the map. -/
theorem writeChunk_chunks (undoes : Undoes zlib) {write : ChunkWrite}
    (wellFormed : WellFormed region) (stored : StoredFits region)
    (allowed : Allowed zlib region write) :
    ∃ after, writeChunk zlib region write = some after ∧ WellFormed after ∧ StoredFits after ∧
      chunks zlib after =
        Function.update (chunks zlib region) (write.x, write.z) (some write.buffer) := by
  obtain ⟨outBuffer, encoded, decoded⟩ := undoes.decoded write.buffer
  obtain ⟨after, written, afterWellFormed, -, effect⟩ := writeChunk_keeps wellFormed allowed
  obtain ⟨extent, stores⟩ := effect outBuffer encoded
  refine ⟨after, written, afterWellFormed, storedFits_stores afterWellFormed stored stores, ?_⟩
  rw [chunks_stores wellFormed stored afterWellFormed allowed.inRange stores, decoded,
    Option.getD_some]

def entryOf (write : ChunkWrite) : (Int × Int) × Option (List UInt8) :=
  ((write.x, write.z), some write.buffer)

theorem place_not_mem {writes : List ChunkWrite} {place : Int × Int}
    (absent : ∀ write ∈ writes, (write.x, write.z) ≠ place) :
    place ∉ (writes.map entryOf).map Prod.fst := by
  intro member
  rw [List.map_map] at member
  obtain ⟨write, among, same⟩ := List.mem_map.mp member
  exact absent write among same

theorem writeChunks_chunks (undoes : Undoes zlib) :
    ∀ {writes : List ChunkWrite} {region : RegionFile}, WellFormed region → StoredFits region →
      Throughout (writeChunk zlib) (Allowed zlib) writes region →
      ∃ after, run (writeChunk zlib) writes region = some after ∧
        chunks zlib after = written (chunks zlib region) (writes.map entryOf) := by
  intro writes
  induction writes with
  | nil =>
      intro region _ _ _
      exact ⟨region, rfl, rfl⟩
  | cons write writes ih =>
      intro region wellFormed stored throughout
      obtain ⟨allowed, later⟩ := throughout
      obtain ⟨next, stepped, nextWellFormed, nextStored, effect⟩ :=
        writeChunk_chunks undoes wellFormed stored allowed
      obtain ⟨after, others, content⟩ := ih nextWellFormed nextStored (later next stepped)
      refine ⟨after, ?_, ?_⟩
      · rw [run, stepped]
        exact others
      · rw [content, effect, List.map_cons, written_cons, entryOf]

/-- Every coordinate is read as the last chunk written to it, and as before the
run if there is none. -/
theorem writes_read (undoes : Undoes zlib) (wellFormed : WellFormed region)
    (stored : StoredFits region) {writes : List ChunkWrite}
    (throughout : Throughout (writeChunk zlib) (Allowed zlib) writes region) :
    ∃ after, run (writeChunk zlib) writes region = some after ∧
      (∀ earlier write later, writes = earlier ++ write :: later →
        (∀ other ∈ later, (other.x, other.z) ≠ (write.x, write.z)) →
        getRegionChunk zlib write.x write.z after = some write.buffer) ∧
      ∀ x z, (∀ write ∈ writes, (write.x, write.z) ≠ (x, z)) →
        getRegionChunk zlib x z after = getRegionChunk zlib x z region := by
  obtain ⟨after, written, content⟩ := writeChunks_chunks undoes wellFormed stored throughout
  refine ⟨after, written, ?_, fun x z absent => ?_⟩
  · rintro earlier write later rfl last
    have read := congrFun content (write.x, write.z)
    rwa [List.map_append, List.map_cons, entryOf, written_last (place_not_mem last)] at read
  · have read := congrFun content (x, z)
    rwa [written_of_not_mem (place_not_mem absent)] at read

end Chunks

theorem storedZlib_undoes : Undoes storedZlib where
  decoded buffer := by
    refine ⟨_, rfl, ?_⟩
    have head : ([0x78, 0x01, 0x01] ++ littleBytes 2 buffer.length ++
        littleBytes 2 (65535 - buffer.length % 65536)).length = 7 := by
      simp only [List.length_append, littleBytes_length, List.length_cons, List.length_nil]
    simp only [storedZlib]
    rw [List.append_assoc _ buffer, List.drop_left' head, List.length_append, head,
      List.length_append, bigBytes_length, List.take_left' (by omega)]

theorem writes_read_few :
    Undoes storedZlib ∧ ∃ after,
      run (writeChunk storedZlib) fewWrites (emptyRegion [0x72]) = some after ∧
        getRegionChunk storedZlib 3 1 after = some [0xee] ∧
        getRegionChunk storedZlib 31 31 after = some [0x97] ∧
        getRegionChunk storedZlib 0 7 after =
          getRegionChunk storedZlib 0 7 (emptyRegion [0x72]) := by
  have stored : StoredFits (emptyRegion [0x72]) := fun key extent held => by
    rw [emptyRegion_layout] at held
    cases held
  obtain ⟨after, written, last, others⟩ := writes_read storedZlib_undoes
    (wellFormed_emptyRegion [0x72]) stored (throughout_fewWrites [0x72])
  exact ⟨storedZlib_undoes, after, written,
    last (fewWrites.take 2) ⟨3, 1, [0xee], 1700000002⟩ [] rfl (by decide),
    last (fewWrites.take 1) ⟨31, 31, [0x97], 1700000001⟩ (fewWrites.drop 2) rfl (by decide),
    others 0 7 (by decide)⟩

end PodrumWorld.RegionContent
