import PodrumFormal.Lib.EventRun
import PodrumFormal.World.RegionLayout

/-!
# Runs of writes to a region

Each write keeps the runs of the chunks apart and inside the file, the free
map exact, and the tables equal to their copies in the header.
-/

set_option autoImplicit false

namespace PodrumWorld.RegionRun

open Slices Extents EventRun PodrumZlib.ZlibHelper Region RegionLayout

/-! ## One write -/

structure ChunkWrite where
  x : Int
  z : Int
  buffer : List UInt8
  time : Int

def writeChunk (zlib : Zlib) (region : RegionFile) (write : ChunkWrite) : Option RegionFile :=
  setRegionChunk zlib write.x write.z write.buffer write.time region

/-- The size of the file behind the write of a compressed chunk: it grows where
the search finds no run. -/
def sizeAfter (region : RegionFile) (x z : Int) (outBuffer : List UInt8) : Option Nat := do
  let regionOffset ← getRegionOffset x z region
  let required := requiredSectorCount outBuffer
  if regionOffset / 256 ≠ 0 ∧ toChar (regionOffset % 256) = required then
    some region.fileStream.length
  else do
    let freed ← markSectors 1 (regionOffset / 256) (toChar (regionOffset % 256)) region.sectorFree
    if required ≤ (findRun required freed).2 then some region.fileStream.length
    else some (region.fileStream.length + sectorBytes * required.toNat)

/-- A chunk of the region, of at most 127 sectors when it is compressed, that
leaves the file below `2 ^ 31` bytes. -/
structure Allowed (zlib : Zlib) (region : RegionFile) (write : ChunkWrite) : Prop where
  inRange : InRange write.x write.z
  few : ∀ outBuffer, zlib.encode write.buffer 7 zlibDeflateMode = some outBuffer →
    sectorsNeeded outBuffer ≤ 127
  below : ∀ outBuffer size, zlib.encode write.buffer 7 zlibDeflateMode = some outBuffer →
    sizeAfter region write.x write.z outBuffer = some size → size < 2 ^ 31

section Write

variable {zlib : Zlib} {region : RegionFile} {write : ChunkWrite}

/-- What a write can do: fill the run of its chunk anew, or give the chunk
another run.  The size of the file is the one foreseen. -/
theorem writeChunk_cases (wellFormed : WellFormed region) (allowed : Allowed zlib region write)
    {outBuffer : List UInt8}
    (encoded : zlib.encode write.buffer 7 zlibDeflateMode = some outBuffer) :
    ∃ after, writeChunk zlib region write = some after ∧
      sizeAfter region write.x write.z outBuffer = some after.fileStream.length ∧
      ((∃ extent, layout region (chunkKey allowed.inRange) = some extent ∧
          (extent.count : Int) = requiredSectorCount outBuffer ∧
          after =
            { region with
              fileStream :=
                splice region.fileStream (4096 * extent.start) (chunkRecord outBuffer) }) ∨
        ∃ extent stream sectorFree,
          Relocates region (chunkKey allowed.inRange) extent outBuffer stream sectorFree ∧
          after = relocated region (chunkKey allowed.inRange) extent outBuffer write.time stream
            sectorFree) := by
  have inRange := allowed.inRange
  have few := allowed.few outBuffer encoded
  have required := requiredSectorCount_eq few
  have fits := record_fits outBuffer
  have offset : getRegionOffset write.x write.z region =
      some (entryAt region (chunkKey inRange)) := getRegionOffset_entry inRange
  by_cases same : entryAt region (chunkKey inRange) / 256 ≠ 0 ∧
      toChar (entryAt region (chunkKey inRange) % 256) = requiredSectorCount outBuffer
  · have held := layout_of_entry fun zero => same.1 (by rw [zero]; rfl)
    obtain ⟨-, startEq, countEq⟩ := entry_of_layout wellFormed held
    obtain ⟨-, count⟩ := wellFormed.counts _ _ held
    obtain ⟨late, last⟩ := wellFormed.allocated.inside _ _ held
    have whole := wellFormed.whole
    generalize (entryAt region (chunkKey inRange) / 256).toNat = start at *
    generalize (entryAt region (chunkKey inRange) % 256).toNat = taken at *
    dsimp only at startEq countEq count late last
    have exact : (taken : Int) = requiredSectorCount outBuffer := by
      rw [← same.2, countEq, toChar_small (Int.natCast_nonneg _) (by omega)]
    have inside : 4096 * start + (outBuffer.length + 5) ≤ region.fileStream.length := by omega
    refine ⟨{ region with
      fileStream := splice region.fileStream (4096 * start) (chunkRecord outBuffer) },
      ?_, ?_, .inl ⟨⟨start, taken⟩, held, exact, rfl⟩⟩
    · simp only [writeChunk, setRegionChunk, encoded, offset, Option.bind_eq_bind,
        Option.bind_some, if_pos same]
      rw [startEq]
      exact setRegionSector_inside _ wellFormed.opened wellFormed.below inside
    · simp only [sizeAfter, offset, Option.bind_eq_bind, Option.bind_some, if_pos same]
      rw [length_splice (by rwa [chunkRecord_length])]
  · obtain ⟨freed, released, length, marked, allocated⟩ :=
      markSectors_release wellFormed (chunkKey inRange)
    have size : sizeAfter region write.x write.z outBuffer =
        some (if requiredSectorCount outBuffer ≤
            (findRun (requiredSectorCount outBuffer) freed).2 then region.fileStream.length
          else region.fileStream.length + 4096 * (requiredSectorCount outBuffer).toNat) := by
      simp only [sizeAfter, offset, Option.bind_eq_bind, Option.bind_some, if_neg same, released]
      split <;> rfl
    have below := allowed.below outBuffer _ encoded size
    have room : requiredSectorCount outBuffer ≤
        (findRun (requiredSectorCount outBuffer) freed).2 ∨
        region.fileStream.length + 4096 * sectorsNeeded outBuffer < 2 ^ 31 := by
      by_cases found : requiredSectorCount outBuffer ≤
          (findRun (requiredSectorCount outBuffer) freed).2
      · exact .inl found
      · rw [if_neg found, required, Int.toNat_natCast] at below
        exact .inr below
    obtain ⟨extent, stream, sectorFree, relocates, grown, moved⟩ :=
      moveChunk_relocates inRange wellFormed length marked allocated few room write.time
    refine ⟨_, ?_, ?_, .inr ⟨extent, stream, sectorFree, relocates, rfl⟩⟩
    · simp only [writeChunk, setRegionChunk, encoded, offset, Option.bind_eq_bind,
        Option.bind_some, if_neg same, released]
      exact moved
    · rw [size, ← grown, relocates.lengths.2.2 write.time]

end Write

/-! ## What a write keeps -/

/-- The tables are the ints of the first two sectors. -/
structure Mirrored (region : RegionFile) : Prop where
  offsets : ∀ key : Key,
    slice region.fileStream (4 * key.val) 4 = intBytes (region.offsets.get key)
  timestamps : ∀ key : Key,
    slice region.fileStream (4096 + 4 * key.val) 4 = intBytes (region.chunkTimestamps.get key)

section Keep

variable {region : RegionFile} {key : Key} {extent : Extent} {buffer stream sectorFree : List UInt8}

theorem layout_relocated (relocates : Relocates region key extent buffer stream sectorFree)
    (time : Int) :
    layout (relocated region key extent buffer time stream sectorFree) =
      Function.update (layout region) key (some extent) := by
  funext other
  have some : 1 ≤ extent.count := by
    rw [relocates.count]
    exact sectorsNeeded_pos buffer
  have entry := get_set region.offsets key other (packOffset extent.start extent.count)
  rw [layout]
  refine (congrArg extentOf entry).trans ?_
  by_cases same : other = key
  · rw [if_pos same, same, Function.update_self, extentOf_packOffset some relocates.few]
  · rw [if_neg same, Function.update_of_ne same]
    rfl

theorem wellFormed_relocated (wellFormed : WellFormed region)
    (relocates : Relocates region key extent buffer stream sectorFree) (time : Int) :
    WellFormed (relocated region key extent buffer time stream sectorFree) := by
  have length := relocates.lengths.2.2 time
  have inside := relocates.inside
  exact
    { opened := wellFormed.opened
      whole := by rw [length]; exact relocates.whole
      header := Nat.le_trans inside.1 (Nat.le_trans (Nat.le_add_right _ _) inside.2)
      below := by rw [length]; exact relocates.below
      nonneg := fun other => by
        refine (get_set region.offsets key other _).symm ▸ ?_
        split
        · rw [packOffset, if_pos (Int.natCast_nonneg _)]
          omega
        · exact wellFormed.nonneg other
      counts := fun other held holds => by
        rw [layout_relocated relocates time] at holds
        by_cases same : other = key
        · subst same
          rw [Function.update_self] at holds
          obtain rfl := Option.some.inj holds
          refine ⟨?_, relocates.few⟩
          rw [relocates.count]
          exact sectorsNeeded_pos buffer
        · rw [Function.update_of_ne same] at holds
          exact wellFormed.counts other held holds
      allocated := by
        rw [layout_relocated relocates time]
        exact relocates.allocated
      marked := relocates.marked }

/-! The slices of the new stream: the two entries, the chunk, and the rest. -/

theorem bounds_relocated (relocates : Relocates region key extent buffer stream sectorFree) :
    4 * key.val + (intBytes (packOffset extent.start extent.count)).length ≤ stream.length ∧
      4096 * extent.start + (chunkRecord buffer).length ≤
        (splice stream (4 * key.val)
          (intBytes (packOffset extent.start extent.count))).length ∧
      ∀ time, 4096 + 4 * key.val + (intBytes time).length ≤
        (splice (splice stream (4 * key.val)
          (intBytes (packOffset extent.start extent.count)))
          (4096 * extent.start) (chunkRecord buffer)).length := by
  obtain ⟨late, last⟩ := relocates.inside
  obtain ⟨first, second, -⟩ := relocates.lengths
  have fits := relocates.room
  have whole := relocates.whole
  have bound : key.val < 1024 := key.isLt
  rw [first, second, chunkRecord_length, intBytes_length]
  refine ⟨by omega, by omega, fun time => ?_⟩
  rw [intBytes_length]
  omega

theorem slice_relocated_apart (relocates : Relocates region key extent buffer stream sectorFree)
    (time : Int) {start count : Nat} (inside : start + count ≤ region.fileStream.length)
    (data : 8192 ≤ start)
    (apart : start + count ≤ 4096 * extent.start ∨
      4096 * extent.start + (buffer.length + 5) ≤ start) :
    slice (relocated region key extent buffer time stream sectorFree).fileStream start count =
      slice region.fileStream start count := by
  obtain ⟨linked, stored, stamped⟩ := bounds_relocated relocates
  obtain ⟨more, longer⟩ := relocates.longer
  have bound : key.val < 1024 := key.isLt
  rw [relocated, slice_splice_apart (stamped time) (by rw [intBytes_length]; omega),
    slice_splice_apart stored (by rw [chunkRecord_length]; exact apart),
    slice_splice_apart linked (by rw [intBytes_length]; omega), longer,
    slice_append inside]

theorem slice_relocated_record (relocates : Relocates region key extent buffer stream sectorFree)
    (time : Int) :
    slice (relocated region key extent buffer time stream sectorFree).fileStream
      (4096 * extent.start) (buffer.length + 5) = chunkRecord buffer := by
  obtain ⟨-, stored, stamped⟩ := bounds_relocated relocates
  have late := relocates.inside.1
  have bound : key.val < 1024 := key.isLt
  rw [relocated, slice_splice_apart (stamped time) (by rw [intBytes_length]; omega),
    ← chunkRecord_length, slice_splice_self stored]

theorem slice_relocated_offset (relocates : Relocates region key extent buffer stream sectorFree)
    (time : Int) (room : 8192 ≤ region.fileStream.length) (other : Key) :
    slice (relocated region key extent buffer time stream sectorFree).fileStream
        (4 * other.val) 4 =
      if other = key then intBytes (packOffset extent.start extent.count)
      else slice region.fileStream (4 * other.val) 4 := by
  obtain ⟨linked, stored, stamped⟩ := bounds_relocated relocates
  obtain ⟨more, longer⟩ := relocates.longer
  have late := relocates.inside.1
  have bound : key.val < 1024 := key.isLt
  have otherBound : other.val < 1024 := other.isLt
  rw [relocated, slice_splice_apart (stamped time) (by omega),
    slice_splice_apart stored (by omega)]
  by_cases same : other = key
  · have self := slice_splice_self linked
    rw [intBytes_length] at self
    rw [if_pos same, same, self]
  · have different : other.val ≠ key.val := fun equal => same (Fin.ext equal)
    rw [if_neg same, slice_splice_apart linked (by rw [intBytes_length]; omega), longer,
      slice_append (by omega)]

theorem slice_relocated_timestamp
    (relocates : Relocates region key extent buffer stream sectorFree) (time : Int)
    (room : 8192 ≤ region.fileStream.length) (other : Key) :
    slice (relocated region key extent buffer time stream sectorFree).fileStream
        (4096 + 4 * other.val) 4 =
      if other = key then intBytes time
      else slice region.fileStream (4096 + 4 * other.val) 4 := by
  obtain ⟨linked, stored, stamped⟩ := bounds_relocated relocates
  obtain ⟨more, longer⟩ := relocates.longer
  have late := relocates.inside.1
  have bound : key.val < 1024 := key.isLt
  have otherBound : other.val < 1024 := other.isLt
  rw [relocated]
  by_cases same : other = key
  · have self := slice_splice_self (stamped time)
    rw [intBytes_length] at self
    rw [if_pos same, same, self]
  · have different : other.val ≠ key.val := fun equal => same (Fin.ext equal)
    rw [if_neg same, slice_splice_apart (stamped time) (by rw [intBytes_length]; omega),
      slice_splice_apart stored (by omega),
      slice_splice_apart linked (by rw [intBytes_length]; omega), longer,
      slice_append (by omega)]

theorem mirrored_relocated (mirrored : Mirrored region)
    (relocates : Relocates region key extent buffer stream sectorFree) (time : Int)
    (room : 8192 ≤ region.fileStream.length) :
    Mirrored (relocated region key extent buffer time stream sectorFree) where
  offsets other := by
    have entry := get_set region.offsets key other (packOffset extent.start extent.count)
    rw [slice_relocated_offset relocates time room other]
    refine Eq.trans ?_ (congrArg intBytes entry).symm
    by_cases same : other = key
    · rw [if_pos same, if_pos same]
    · rw [if_neg same, if_neg same]
      exact mirrored.offsets other
  timestamps other := by
    have entry := get_set region.chunkTimestamps key other time
    rw [slice_relocated_timestamp relocates time room other]
    refine Eq.trans ?_ (congrArg intBytes entry).symm
    by_cases same : other = key
    · rw [if_pos same, if_pos same]
    · rw [if_neg same, if_neg same]
      exact mirrored.timestamps other

end Keep

/-! ## What a write stores -/

/-- The chunk is at the head of its run, and the runs of the other chunks have
the bytes they had. -/
structure Stores (region after : RegionFile) (key : Key) (extent : Extent)
    (buffer : List UInt8) : Prop where
  layout : layout after = Function.update (layout region) key (some extent)
  room : buffer.length + 5 ≤ 4096 * extent.count
  record : slice after.fileStream (4096 * extent.start) (buffer.length + 5) = chunkRecord buffer
  others : ∀ other held, other ≠ key → RegionLayout.layout region other = some held →
    slice after.fileStream (4096 * held.start) (4096 * held.count) =
      slice region.fileStream (4096 * held.start) (4096 * held.count)

section Store

variable {region : RegionFile} {key : Key} {extent : Extent} {buffer stream sectorFree : List UInt8}

theorem stores_relocated (wellFormed : WellFormed region)
    (relocates : Relocates region key extent buffer stream sectorFree) (time : Int) :
    Stores region (relocated region key extent buffer time stream sectorFree) key extent
      buffer where
  layout := layout_relocated relocates time
  room := relocates.room
  record := slice_relocated_record relocates time
  others other held different holds := by
    have whole := wellFormed.whole
    have fits := relocates.room
    obtain ⟨late, last⟩ := wellFormed.allocated.inside other held holds
    have some := (wellFormed.counts other held holds).1
    have owned : Function.update (RegionLayout.layout region) key (Option.some extent) other =
        Option.some held := by rw [Function.update_of_ne different, holds]
    have apart := relocates.allocated.extents_apart different owned (Function.update_self ..)
      some (by rw [relocates.count]; exact sectorsNeeded_pos buffer)
    exact slice_relocated_apart relocates time (by omega) (by omega) (by omega)

/-- The region in which the run of a chunk is filled anew. -/
def refilled (region : RegionFile) (extent : Extent) (buffer : List UInt8) : RegionFile :=
  { region with
    fileStream := splice region.fileStream (4096 * extent.start) (chunkRecord buffer) }

/-- A chunk that fits in the run it has. -/
theorem refill_bounds (wellFormed : WellFormed region) (held : layout region key = some extent)
    (fits : buffer.length + 5 ≤ 4096 * extent.count) :
    8192 ≤ 4096 * extent.start ∧
      4096 * extent.start + (chunkRecord buffer).length ≤ region.fileStream.length := by
  obtain ⟨late, last⟩ := wellFormed.allocated.inside key extent held
  have whole := wellFormed.whole
  rw [chunkRecord_length]
  omega

theorem wellFormed_refilled (wellFormed : WellFormed region)
    (held : layout region key = some extent)
    (fits : buffer.length + 5 ≤ 4096 * extent.count) :
    WellFormed (refilled region extent buffer) := by
  have length : (refilled region extent buffer).fileStream.length = region.fileStream.length :=
    length_splice (refill_bounds wellFormed held fits).2
  exact
    { wellFormed with
      whole := length.trans wellFormed.whole
      below := length ▸ wellFormed.below }

theorem mirrored_refilled (wellFormed : WellFormed region)
    (held : layout region key = some extent)
    (fits : buffer.length + 5 ≤ 4096 * extent.count) (mirrored : Mirrored region) :
    Mirrored (refilled region extent buffer) := by
  obtain ⟨data, inside⟩ := refill_bounds wellFormed held fits
  refine ⟨fun other => ?_, fun other => ?_⟩
  · have bound : other.val < 1024 := other.isLt
    rw [refilled, slice_splice_apart inside (by omega)]
    exact mirrored.offsets other
  · have bound : other.val < 1024 := other.isLt
    rw [refilled, slice_splice_apart inside (by omega)]
    exact mirrored.timestamps other

theorem stores_refilled (wellFormed : WellFormed region)
    (held : layout region key = some extent)
    (fits : buffer.length + 5 ≤ 4096 * extent.count) :
    Stores region (refilled region extent buffer) key extent buffer := by
  obtain ⟨data, inside⟩ := refill_bounds wellFormed held fits
  refine ⟨?_, fits, ?_, ?_⟩
  · rw [← held, Function.update_eq_self]
    rfl
  · rw [refilled, ← chunkRecord_length, slice_splice_self inside]
  · intro other taken different holds
    have some := (wellFormed.counts other taken holds).1
    have apart := wellFormed.allocated.extents_apart different holds held some
      (wellFormed.counts key extent held).1
    rw [refilled, slice_splice_apart inside (by rw [chunkRecord_length]; omega)]

end Store

/-! ## Each write, and every run of writes -/

section Runs

variable {zlib : Zlib}

/-- A write is defined, keeps the layout and stores the chunk. -/
theorem writeChunk_keeps {region : RegionFile} {write : ChunkWrite}
    (wellFormed : WellFormed region) (allowed : Allowed zlib region write) :
    ∃ after, writeChunk zlib region write = some after ∧ WellFormed after ∧
      (Mirrored region → Mirrored after) ∧
      ∀ outBuffer, zlib.encode write.buffer 7 zlibDeflateMode = some outBuffer →
        ∃ extent, Stores region after (chunkKey allowed.inRange) extent outBuffer := by
  cases encoded : zlib.encode write.buffer 7 zlibDeflateMode with
  | none =>
      refine ⟨region, ?_, wellFormed, id, fun outBuffer impossible => nomatch impossible⟩
      rw [writeChunk, setRegionChunk, encoded]
  | some outBuffer =>
      obtain ⟨after, written, -, effect⟩ := writeChunk_cases wellFormed allowed encoded
      have room : 8192 ≤ region.fileStream.length := by
        have whole := wellFormed.whole
        have header := wellFormed.header
        omega
      refine ⟨after, written, ?_⟩
      rcases effect with ⟨extent, held, count, rfl⟩ | ⟨extent, stream, sectorFree, relocates, rfl⟩
      · have fits : outBuffer.length + 5 ≤ 4096 * extent.count := by
          have enough := record_fits outBuffer
          rw [requiredSectorCount_eq (allowed.few outBuffer encoded)] at count
          omega
        refine ⟨wellFormed_refilled wellFormed held fits,
          mirrored_refilled wellFormed held fits, fun other same => ?_⟩
        obtain rfl := Option.some.inj same
        exact ⟨extent, stores_refilled wellFormed held fits⟩
      · refine ⟨wellFormed_relocated wellFormed relocates write.time,
          fun mirrored => mirrored_relocated mirrored relocates write.time room,
          fun other same => ?_⟩
        obtain rfl := Option.some.inj same
        exact ⟨extent, stores_relocated wellFormed relocates write.time⟩

theorem writeChunks_keep : ∀ {writes : List ChunkWrite} {region : RegionFile},
    WellFormed region → Mirrored region →
    Throughout (writeChunk zlib) (Allowed zlib) writes region →
    ∃ after, run (writeChunk zlib) writes region = some after ∧ WellFormed after ∧
      Mirrored after := by
  intro writes
  induction writes with
  | nil =>
      intro region wellFormed mirrored _
      exact ⟨region, rfl, wellFormed, mirrored⟩
  | cons write writes ih =>
      intro region wellFormed mirrored throughout
      obtain ⟨allowed, later⟩ := throughout
      obtain ⟨next, written, nextWellFormed, keeps, -⟩ := writeChunk_keeps wellFormed allowed
      obtain ⟨after, others, holds⟩ := ih nextWellFormed (keeps mirrored) (later next written)
      refine ⟨after, ?_, holds⟩
      rw [run, written]
      exact others

/-! ## Growth -/

theorem sizeAfter_le {region : RegionFile} {x z : Int} {outBuffer : List UInt8} {size : Nat}
    (foreseen : sizeAfter region x z outBuffer = some size) :
    size ≤ region.fileStream.length + 4096 * 127 := by
  have required : requiredSectorCount outBuffer ≤ 127 := by
    rw [requiredSectorCount, toChar, Int.bmod_def]
    omega
  obtain ⟨offset, -, foreseen⟩ := Option.bind_eq_some_iff.mp foreseen
  dsimp only at foreseen
  split at foreseen
  · obtain rfl := Option.some.inj foreseen
    omega
  · obtain ⟨freed, -, foreseen⟩ := Option.bind_eq_some_iff.mp foreseen
    split at foreseen
    · obtain rfl := Option.some.inj foreseen
      omega
    · obtain rfl := Option.some.inj foreseen
      rw [sectorBytes]
      omega

/-- A write of a chunk of at most 127 sectors makes the file that much longer
at most. -/
theorem writeChunk_growth {region after : RegionFile} {write : ChunkWrite}
    (wellFormed : WellFormed region) (allowed : Allowed zlib region write)
    (written : writeChunk zlib region write = some after) :
    after.fileStream.length ≤ region.fileStream.length + 4096 * 127 := by
  cases encoded : zlib.encode write.buffer 7 zlibDeflateMode with
  | none =>
      rw [writeChunk, setRegionChunk, encoded] at written
      obtain rfl := Option.some.inj written
      omega
  | some outBuffer =>
      obtain ⟨other, same, foreseen, -⟩ := writeChunk_cases wellFormed allowed encoded
      obtain rfl := Option.some.inj (same.symm.trans written)
      exact sizeAfter_le foreseen

/-- A run for which the file has room however often it grows. -/
theorem throughout_of_room : ∀ {writes : List ChunkWrite} {region : RegionFile},
    WellFormed region →
    (∀ write ∈ writes, InRange write.x write.z ∧
      ∀ outBuffer, zlib.encode write.buffer 7 zlibDeflateMode = some outBuffer →
        sectorsNeeded outBuffer ≤ 127) →
    region.fileStream.length + 4096 * 127 * writes.length < 2 ^ 31 →
    Throughout (writeChunk zlib) (Allowed zlib) writes region := by
  intro writes
  induction writes with
  | nil =>
      intro region _ _ _
      trivial
  | cons write writes ih =>
      intro region wellFormed each room
      obtain ⟨⟨inRange, few⟩, others⟩ := List.forall_mem_cons.mp each
      rw [List.length_cons] at room
      have allowed : Allowed zlib region write :=
        { inRange
          few
          below := fun outBuffer size encoded foreseen => by
            have grown := sizeAfter_le foreseen
            omega }
      refine ⟨allowed, fun next written => ?_⟩
      obtain ⟨after, same, nextWellFormed, -⟩ := writeChunk_keeps wellFormed allowed
      obtain rfl := Option.some.inj (same.symm.trans written)
      have grown := writeChunk_growth wellFormed allowed written
      exact ih nextWellFormed others (by omega)

end Runs

end PodrumWorld.RegionRun
