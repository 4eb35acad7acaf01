import PodrumFormal.World.RegionSave
import PodrumFormal.World.RegionSearch

/-!
# Timestamps

The timestamp of a chunk is set where the chunk is given other sectors.  A
chunk that is stored in the sectors it has keeps the timestamp it had.
-/

set_option autoImplicit false

namespace PodrumWorld.RegionTimes

open EventRun PodrumZlib.ZlibHelper Region RegionLayout RegionRun RegionSave RegionSearch

/-! ## Defined writes -/

/-- A chunk of the region, of at most 127 sectors when it is compressed. -/
structure Storable (zlib : Zlib) (write : ChunkWrite) : Prop where
  inRange : InRange write.x write.z
  few : ∀ outBuffer, zlib.encode write.buffer 7 zlibDeflateMode = some outBuffer →
    sectorsNeeded outBuffer ≤ 127

section Defined

variable {zlib : Zlib} {region after : RegionFile} {write : ChunkWrite}

/-- A write that is defined leaves the file below `2 ^ 31` bytes. -/
theorem allowed_of_defined (wellFormed : WellFormed region) (storable : Storable zlib write)
    (written : writeChunk zlib region write = some after) : Allowed zlib region write where
  inRange := storable.inRange
  few := storable.few
  below outBuffer size encoded foreseen := by
    have inRange := storable.inRange
    have few := storable.few outBuffer encoded
    have positive := sectorsNeeded_pos outBuffer
    have below := wellFormed.below
    have room := (writes_wellFormed wellFormed inRange encoded few write.time).mp ⟨after, written⟩
    simp only [sizeAfter, getRegionOffset_entry inRange, Option.bind_eq_bind, Option.bind_some,
      requiredSectorCount_eq few] at foreseen
    split at foreseen
    · obtain rfl := Option.some.inj foreseen
      exact below
    · rename_i moves
      obtain ⟨freed, released, foreseen⟩ := Option.bind_eq_some_iff.mp foreseen
      split at foreseen
      · obtain rfl := Option.some.inj foreseen
        exact below
      · rename_i missed
        obtain rfl := Option.some.inj foreseen
        rw [findRun_iff positive, (freed_of_releases released).2] at missed
        rw [Int.toNat_natCast, sectorBytes]
        exact (room moves).resolve_left missed

theorem throughout_of_run : ∀ {writes : List ChunkWrite} {region : RegionFile},
    WellFormed region → (∀ write ∈ writes, Storable zlib write) →
    run (writeChunk zlib) writes region = some after →
    Throughout (writeChunk zlib) (Allowed zlib) writes region := by
  intro writes
  induction writes with
  | nil =>
      intro region _ _ _
      trivial
  | cons write writes ih =>
      intro region wellFormed each reached
      obtain ⟨storable, others⟩ := List.forall_mem_cons.mp each
      obtain ⟨next, stepped, reached⟩ := Option.bind_eq_some_iff.mp reached
      have allowed := allowed_of_defined wellFormed storable stepped
      refine ⟨allowed, fun other same => ?_⟩
      obtain rfl := Option.some.inj (stepped.symm.trans same)
      obtain ⟨written, again, nextWellFormed, -⟩ := writeChunk_keeps wellFormed allowed
      obtain rfl := Option.some.inj (stepped.symm.trans again)
      exact ih nextWellFormed others reached

/-- Every region that is reached from a new file. -/
theorem reached_wellFormed {path : List UInt8} {files : Files}
    (short : (files path).length < sectorBytes) {writes : List ChunkWrite}
    (each : ∀ write ∈ writes, Storable zlib write)
    (reached : (openRegion path files).bind (run (writeChunk zlib) writes) = some region) :
    WellFormed region := by
  have start := wellFormed_emptyRegion path
  rw [openRegion_short path short, Option.bind_some] at reached
  obtain ⟨other, same, wellFormed, -⟩ :=
    writeChunks_keep start (mirrored_emptyRegion path) (throughout_of_run start each reached)
  obtain rfl := Option.some.inj (reached.symm.trans same)
  exact wellFormed

end Defined

/-! ## The stamp of a write -/

section Stamp

variable {zlib : Zlib} {region after : RegionFile} {write : ChunkWrite} {outBuffer : List UInt8}

theorem setRegionSector_timestamps {sectorIndex : Int} {buffer : List UInt8}
    (success : setRegionSector sectorIndex buffer region = some after) :
    after.chunkTimestamps = region.chunkTimestamps := by
  unfold setRegionSector at success
  split at success
  · cases success
    rfl
  · obtain ⟨stream, -, success⟩ := Option.bind_eq_some_iff.mp success
    cases success
    rfl

/-- The write stamps its chunk where it is given other sectors, and no other
chunk. -/
theorem writeChunk_timestamps (wellFormed : WellFormed region)
    (allowed : Allowed zlib region write)
    (encoded : zlib.encode write.buffer 7 zlibDeflateMode = some outBuffer)
    (written : writeChunk zlib region write = some after) (other : Key) :
    stampAt after other =
      if other = chunkKey allowed.inRange ∧
          ¬InPlace (entryAt region (chunkKey allowed.inRange)) (sectorsNeeded outBuffer) then
        write.time
      else stampAt region other := by
  have required := requiredSectorCount_eq (allowed.few outBuffer encoded)
  by_cases inPlace : InPlace (entryAt region (chunkKey allowed.inRange)) (sectorsNeeded outBuffer)
  · rw [if_neg fun both => both.2 inPlace]
    have test : entryAt region (chunkKey allowed.inRange) / 256 ≠ 0 ∧
        toChar (entryAt region (chunkKey allowed.inRange) % 256) = sectorsNeeded outBuffer :=
      inPlace
    simp only [writeChunk, setRegionChunk, encoded, getRegionOffset_entry allowed.inRange,
      Option.bind_eq_bind, Option.bind_some, required, if_pos test] at written
    rw [stampAt, setRegionSector_timestamps written, ← stampAt]
  · obtain ⟨same, success, -, effect⟩ := writeChunk_cases wellFormed allowed encoded
    obtain rfl := Option.some.inj (success.symm.trans written)
    rcases effect with ⟨extent, held, count, -⟩ | ⟨extent, stream, sectorFree, -, rfl⟩
    · rw [required] at count
      exact absurd ((inPlace_iff wellFormed).mpr ⟨extent, held, Int.ofNat.inj count⟩) inPlace
    · refine (get_set region.chunkTimestamps (chunkKey allowed.inRange) other write.time).trans ?_
      simp only [inPlace, not_false_iff, and_true, stampAt]

/-- A chunk that was written has the sectors that it needs. -/
theorem inPlace_after (wellFormed : WellFormed region) (allowed : Allowed zlib region write)
    (encoded : zlib.encode write.buffer 7 zlibDeflateMode = some outBuffer)
    (written : writeChunk zlib region write = some after) :
    InPlace (entryAt after (chunkKey allowed.inRange)) (sectorsNeeded outBuffer) := by
  obtain ⟨next, again, nextWellFormed, -⟩ := writeChunk_keeps wellFormed allowed
  obtain rfl := Option.some.inj (again.symm.trans written)
  obtain ⟨same, success, -, effect⟩ := writeChunk_cases wellFormed allowed encoded
  obtain rfl := Option.some.inj (success.symm.trans written)
  rw [inPlace_iff nextWellFormed]
  rcases effect with ⟨extent, held, count, rfl⟩ | ⟨extent, stream, sectorFree, relocates, rfl⟩
  · rw [requiredSectorCount_eq (allowed.few outBuffer encoded)] at count
    exact ⟨extent, held, Int.ofNat.inj count⟩
  · refine ⟨extent, ?_, relocates.count⟩
    rw [layout_relocated relocates, Function.update_self]

/-- The clock's value is the timestamp, and no other timestamp is changed. -/
def Stamped (region after : RegionFile) (write : ChunkWrite) : Prop :=
  getRegionTimestamp write.x write.z after = some write.time ∧
    ∀ x z, InRange x z → (x, z) ≠ (write.x, write.z) →
      getRegionTimestamp x z after = getRegionTimestamp x z region

theorem stamped_iff (wellFormed : WellFormed region) (allowed : Allowed zlib region write)
    (encoded : zlib.encode write.buffer 7 zlibDeflateMode = some outBuffer)
    (written : writeChunk zlib region write = some after) :
    Stamped region after write ↔
      (InPlace (entryAt region (chunkKey allowed.inRange)) (sectorsNeeded outBuffer) →
        stampAt region (chunkKey allowed.inRange) = write.time) := by
  have stamps := writeChunk_timestamps wellFormed allowed encoded written
  have own : getRegionTimestamp write.x write.z after =
      some (stampAt after (chunkKey allowed.inRange)) := getRegionTimestamp_stamp allowed.inRange
  rw [Stamped, own, Option.some.injEq, stamps]
  constructor
  · rintro ⟨stamp, -⟩ inPlace
    rwa [if_neg fun both => both.2 inPlace] at stamp
  · intro kept
    refine ⟨?_, fun x z inRange different => ?_⟩
    · split
      · rfl
      · rename_i filled
        exact kept (not_not.mp fun moved => filled ⟨rfl, moved⟩)
    · have apart : chunkKey inRange ≠ chunkKey allowed.inRange := fun same =>
        different (Prod.ext_iff.mpr ((chunkKey_inj inRange allowed.inRange).mp same))
      rw [getRegionTimestamp_stamp inRange, getRegionTimestamp_stamp inRange, stamps,
        if_neg fun both => apart both.1]

/-- Room for the chunk, and no refill under another clock value. -/
def StampsRight (region : RegionFile) (offset timestamp time : Int) (count : Nat) : Prop :=
  if InPlace offset count then timestamp = time else HasRoom region offset count

/-- A write after any run stamps its chunk alone, but for a chunk that is
stored in the sectors it has. -/
theorem timestamp_iff (path : List UInt8) (files : Files)
    (short : (files path).length < sectorBytes) (writes : List ChunkWrite)
    (each : ∀ other ∈ writes, Storable zlib other)
    (reached : (openRegion path files).bind (run (writeChunk zlib) writes) = some region)
    (storable : Storable zlib write)
    (encoded : zlib.encode write.buffer 7 zlibDeflateMode = some outBuffer) :
    (∃ after, writeChunk zlib region write = some after ∧ Stamped region after write) ↔
      StampsRight region (entryAt region (chunkKey storable.inRange))
        (stampAt region (chunkKey storable.inRange)) write.time
        (sectorsNeeded outBuffer) := by
  have wellFormed := reached_wellFormed short each reached
  have defined := writes_wellFormed wellFormed storable.inRange encoded
    (storable.few outBuffer encoded) write.time
  rw [StampsRight]
  constructor
  · rintro ⟨after, written, stamped⟩
    have allowed := allowed_of_defined wellFormed storable written
    split
    · rename_i inPlace
      exact (stamped_iff wellFormed allowed encoded written).mp stamped inPlace
    · rename_i moves
      exact defined.mp ⟨after, written⟩ moves
  · intro right
    obtain ⟨after, written⟩ : ∃ after, writeChunk zlib region write = some after :=
      defined.mpr fun moves => by rwa [if_neg moves] at right
    have allowed := allowed_of_defined wellFormed storable written
    refine ⟨after, written, (stamped_iff wellFormed allowed encoded written).mpr fun inPlace => ?_⟩
    rwa [if_pos inPlace] at right

end Stamp

/-! ## A chunk of one byte, written twice -/

theorem storable_byte {x z : Int} (inRange : InRange x z) (byte : UInt8) (time : Int) :
    Storable storedZlib ⟨x, z, [byte], time⟩ where
  inRange := inRange
  few outBuffer encoded := by
    obtain ⟨other, same, one⟩ := storedZlib_needs byte
    obtain rfl := Option.some.inj (encoded.symm.trans same)
    omega

theorem inRange_place : InRange 3 1 := ⟨by decide, by decide⟩

/-- The region of one chunk, in one sector. -/
theorem reached_byte : ∃ region,
    (openRegion [0x72] fun _ => []).bind
        (run (writeChunk storedZlib) [⟨3, 1, [0xc1], 1700000000⟩]) = some region ∧
      InPlace (entryAt region (chunkKey inRange_place)) 1 ∧
      getRegionTimestamp 3 1 region = some 1700000000 := by
  have start := wellFormed_emptyRegion [0x72]
  have storable := storable_byte inRange_place 0xc1 1700000000
  obtain ⟨outBuffer, encoded, one⟩ := storedZlib_needs 0xc1
  obtain ⟨region, written⟩ := (writes_wellFormed start inRange_place encoded
    (storable.few outBuffer encoded) 1700000000).mpr fun _ => .inr (by
      rw [emptyRegion, List.length_replicate, one]
      decide)
  have allowed := allowed_of_defined start storable written
  have stamp := writeChunk_timestamps start allowed encoded written (chunkKey inRange_place)
  have moves : ¬InPlace (entryAt (emptyRegion [0x72]) (chunkKey inRange_place))
      (sectorsNeeded outBuffer) := by
    rw [inPlace_iff start, emptyRegion_layout]
    rintro ⟨extent, held, -⟩
    cases held
  have inPlace := inPlace_after start allowed encoded written
  rw [one] at inPlace
  refine ⟨region, ?_, inPlace, ?_⟩
  · rw [openRegion_short [0x72] (by decide), Option.bind_some, run]
    exact Option.bind_eq_some_iff.mpr ⟨region, written, rfl⟩
  · rw [getRegionTimestamp_stamp inRange_place, stamp, if_pos ⟨rfl, moves⟩]

theorem timestamp_iff_byte : ∃ region,
    (openRegion [0x72] fun _ => []).bind
        (run (writeChunk storedZlib) [⟨3, 1, [0xc1], 1700000000⟩]) = some region ∧
      ((∃ after, writeChunk storedZlib region ⟨3, 1, [0xee], 1700000002⟩ = some after ∧
          Stamped region after ⟨3, 1, [0xee], 1700000002⟩) ↔
        StampsRight region (entryAt region (chunkKey inRange_place))
          (stampAt region (chunkKey inRange_place)) 1700000002 1) := by
  obtain ⟨region, reached, -⟩ := reached_byte
  obtain ⟨outBuffer, encoded, one⟩ := storedZlib_needs 0xee
  rw [← one]
  exact ⟨region, reached, timestamp_iff [0x72] (fun _ => []) (by decide) _
    (List.forall_mem_singleton.mpr (storable_byte inRange_place 0xc1 1700000000)) reached
    (storable_byte inRange_place 0xee 1700000002) encoded⟩

/-- The second write leaves the timestamp of the first. -/
theorem refill_unstamped : ∃ region,
    (openRegion [0x72] fun _ => []).bind
        (run (writeChunk storedZlib) [⟨3, 1, [0xc1], 1700000000⟩]) = some region ∧
      ∃ after, writeChunk storedZlib region ⟨3, 1, [0xee], 1700000002⟩ = some after ∧
        getRegionTimestamp 3 1 after = some 1700000000 ∧
        ¬Stamped region after ⟨3, 1, [0xee], 1700000002⟩ := by
  obtain ⟨region, reached, inPlace, stamp⟩ := reached_byte
  obtain ⟨outBuffer, encoded, one⟩ := storedZlib_needs 0xee
  have storable := storable_byte inRange_place 0xee 1700000002
  have wellFormed : WellFormed region := reached_wellFormed (by decide)
    (List.forall_mem_singleton.mpr (storable_byte inRange_place 0xc1 1700000000)) reached
  rw [← one] at inPlace
  obtain ⟨after, written⟩ := (writes_wellFormed wellFormed inRange_place encoded
    (storable.few outBuffer encoded) 1700000002).mpr fun moves => absurd inPlace moves
  have allowed := allowed_of_defined wellFormed storable written
  have kept := writeChunk_timestamps wellFormed allowed encoded written (chunkKey inRange_place)
  rw [if_neg fun both => both.2 inPlace] at kept
  have same : getRegionTimestamp 3 1 after = some 1700000000 := by
    rw [← stamp, getRegionTimestamp_stamp inRange_place, getRegionTimestamp_stamp inRange_place,
      kept]
  refine ⟨region, reached, after, written, same, ?_⟩
  rintro ⟨stamped, -⟩
  rw [same, Option.some.injEq] at stamped
  exact absurd stamped (by decide)

end PodrumWorld.RegionTimes
