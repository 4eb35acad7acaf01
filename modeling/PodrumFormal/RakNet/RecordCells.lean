import PodrumFormal.RakNet.AcknowledgeListing

/-!
# The array of a decoded acknowledgement

The array is resized to the count and the length of the next range, in 32 bits:
a range whose end lies below its start takes cells away, or asks for nearly
2^32.  The listed numbers all stand in the array exactly where the count does
not wrap and no range takes cells away.
-/

set_option autoImplicit false

namespace PodrumRakNet.RecordCells

open ByteReader PodrumStream.BinaryStream PodrumRakNet.Acknowledge
open PodrumRakNet.AcknowledgeListing

/-! ## The datagram -/

theorem getRecords_of_records : ∀ (count : Nat) (packet final : PacketAcknowledge)
    (records : List AckRecord) (bytes rest : List UInt8),
    readCount getRecord count bytes = some (records, rest) →
    records.foldlM storeRecord packet = some final →
    getRecords count packet bytes = some (final, rest) := by
  intro count
  induction count with
  | zero =>
      intro packet final records bytes rest read stored
      cases read
      cases stored
      rfl
  | succ count ih =>
      intro packet final records bytes rest read stored
      rw [readCount, bind_apply] at read
      obtain ⟨⟨record, middle⟩, first, read⟩ := Option.bind_eq_some_iff.mp read
      dsimp only at read
      rw [bind_apply] at read
      obtain ⟨⟨others, after⟩, later, read⟩ := Option.bind_eq_some_iff.mp read
      cases read
      rw [List.foldlM_cons] at stored
      obtain ⟨next, storing, stored⟩ := Option.bind_eq_some_iff.mp stored
      rw [getRecords, bind_apply, first, Option.bind_some]
      dsimp only
      rw [storing]
      exact ih next final others middle after later stored

/-- On a datagram that holds its records the decoder is the fold over them. -/
theorem getPacketAcknowledge_iff {stream rest : List UInt8} {records : List AckRecord}
    (long : readRecords stream = some (records, rest)) (packet : PacketAcknowledge) :
    getPacketAcknowledge stream = some (packet, rest) ↔
      records.foldlM storeRecord ⟨[], 0⟩ = some packet := by
  constructor
  · intro success
    obtain ⟨others, read, stored⟩ := getPacketAcknowledge_records success
    rw [long] at read
    cases read
    exact stored
  · intro stored
    rw [readRecords, bind_apply] at long
    obtain ⟨⟨_, afterId⟩, skipped, long⟩ := Option.bind_eq_some_iff.mp long
    rw [bind_apply] at long
    obtain ⟨⟨recordCount, afterCount⟩, counted, read⟩ := Option.bind_eq_some_iff.mp long
    rw [getPacketAcknowledge, bind_apply, skipped, Option.bind_some, bind_apply, counted,
      Option.bind_some]
    exact getRecords_of_records _ _ _ _ _ _ read stored

/-! ## Records that keep the cells -/

/-- Behind so many numbers: a range goes up, or is empty, or reaches back
further than all of them, where the 32-bit size wraps. -/
def keepsCells (count : Nat) : AckRecord → Prop
  | .single _ => True
  | .range index endIndex =>
      index.toNat ≤ endIndex.toNat + 1 ∨ endIndex.toNat + 1 + count < index.toNat

instance (count : Nat) (record : AckRecord) : Decidable (keepsCells count record) :=
  match record with
  | .single _ => .isTrue trivial
  | .range _ _ => inferInstanceAs (Decidable (_ ∨ _))

def KeepsCells : Nat → List AckRecord → Prop
  | _, [] => True
  | count, record :: rest =>
      keepsCells count record ∧ KeepsCells (count + (recordNumbers record).length) rest

theorem recordNumbers_range_length (index endIndex : UInt32) :
    (recordNumbers (.range index endIndex)).length = endIndex.toNat + 1 - index.toNat := by
  rw [recordNumbers, List.length_map, List.length_range']

/-- Behind so many counted cells, which were written or were not: no single
number meets the wrap of the 16-bit count, and the ranges that take cells away
stand in front of the last one on which the count wraps. -/
def EndsWritten : Nat → Prop → List AckRecord → Prop
  | _, written, [] => written
  | count, written, .single _ :: rest => count + 1 < 65536 ∧ EndsWritten (count + 1) written rest
  | count, written, .range index endIndex :: rest =>
      let reached := count + (endIndex.toNat + 1 - index.toNat)
      EndsWritten (reached % 65536)
        (65536 ≤ reached ∨ written ∧ keepsCells count (.range index endIndex)) rest

instance decidableEndsWritten : ∀ (count : Nat) (written : Prop) [Decidable written]
    (records : List AckRecord), Decidable (EndsWritten count written records)
  | _, _, decides, [] => decides
  | count, written, _, .single _ :: rest =>
      have := decidableEndsWritten (count + 1) written rest
      inferInstanceAs (Decidable (_ ∧ _))
  | _, _, _, .range _ _ :: rest => decidableEndsWritten _ _ rest

/-- Where the count does not wrap, every range keeps the cells. -/
theorem endsWritten_iff_keeps (records : List AckRecord) (written : Prop) {count : Nat}
    (short : count + (records.flatMap recordNumbers).length < 65536) :
    EndsWritten count written records ↔ written ∧ KeepsCells count records := by
  induction records generalizing count written with
  | nil => exact (and_iff_left trivial).symm
  | cons record rest ih =>
      rw [List.flatMap_cons, List.length_append, ← Nat.add_assoc] at short
      cases record with
      | single index =>
          have one : (recordNumbers (.single index)).length = 1 := rfl
          rw [one] at short
          have room : count + 1 < 65536 := Nat.lt_of_le_of_lt (Nat.le_add_right _ _) short
          simp only [EndsWritten, KeepsCells, keepsCells, room, true_and, one]
          exact ih written short
      | range index endIndex =>
          have room : count + (recordNumbers (.range index endIndex)).length < 65536 :=
            Nat.lt_of_le_of_lt (Nat.le_add_right _ _) short
          simp only [EndsWritten, KeepsCells]
          rw [← recordNumbers_range_length, Nat.mod_eq_of_lt room, ih _ short,
            or_iff_right (Nat.not_le_of_lt room), and_assoc]

/-! ## Counted cells -/

/-- A counted cell is not in the array, or was not written. -/
def Lost (packet : PacketAcknowledge) : Prop :=
  ∃ cell < packet.sequenceNumbersCount.toNat, ∀ value,
    packet.sequenceNumbers[cell]? ≠ some (some value)

section Reading

variable {packet : PacketAcknowledge}

theorem Lost.read (lost : Lost packet) (values : List UInt32) : packet.read ≠ some values := by
  obtain ⟨cell, counted, unwritten⟩ := lost
  intro success
  simp only [PacketAcknowledge.read] at success
  split at success
  · rename_i inside
    have cells := mapM_id_some _ _ success
    have length : values.length = packet.sequenceNumbersCount.toNat := by
      have taken := congrArg List.length cells
      rw [List.length_take, List.length_map, Nat.min_eq_left inside] at taken
      exact taken.symm
    have found := congrArg (fun list => list[cell]?) cells
    simp only [List.getElem?_take_of_lt counted, List.getElem?_map,
      List.getElem?_eq_getElem (length ▸ counted), Option.map_some] at found
    exact unwritten _ found
  · cases success

theorem mapM_isSome : ∀ cells : List (Option UInt32),
    (∀ cell ∈ cells, cell.isSome) → (cells.mapM id).isSome := by
  intro cells
  induction cells with
  | nil => exact fun _ => rfl
  | cons cell rest ih =>
      intro written
      obtain ⟨first, others⟩ := List.forall_mem_cons.mp written
      obtain ⟨value, rfl⟩ := Option.isSome_iff_exists.mp first
      obtain ⟨values, success⟩ := Option.isSome_iff_exists.mp (ih others)
      rw [List.mapM_cons, success]
      rfl

theorem read_isSome_iff : packet.read.isSome ↔ ¬Lost packet := by
  constructor
  · intro reads lost
    obtain ⟨values, success⟩ := Option.isSome_iff_exists.mp reads
    exact lost.read values success
  · intro kept
    have each (cell : Nat) (counted : cell < packet.sequenceNumbersCount.toNat) :
        ∃ value, packet.sequenceNumbers[cell]? = some (some value) := by
      by_contra unwritten
      exact kept ⟨cell, counted, not_exists.mp unwritten⟩
    have inside : packet.sequenceNumbersCount.toNat ≤ packet.sequenceNumbers.length := by
      by_contra outside
      obtain ⟨value, found⟩ := each _ (Nat.lt_of_not_le outside)
      rw [List.getElem?_eq_none (Nat.le_refl _)] at found
      cases found
    rw [PacketAcknowledge.read, if_pos inside]
    refine mapM_isSome _ fun cell member => ?_
    obtain ⟨index, found⟩ := List.getElem?_of_mem member
    rw [List.getElem?_take] at found
    split at found
    · rename_i counted
      obtain ⟨value, written⟩ := each index counted
      rw [written] at found
      exact Option.some.inj found ▸ rfl
    · cases found

end Reading

section Storing

variable {packet : PacketAcknowledge}

theorem length_reallocCells (cells : List (Option UInt32)) (size : Nat) :
    (reallocCells cells size).length = size := by
  rw [reallocCells, List.length_append, List.length_take, List.length_replicate]
  omega

theorem reallocCells_kept {cells : List (Option UInt32)} {size cell : Nat} {value : UInt32}
    (inside : cell < size) (written : cells[cell]? = some (some value)) :
    (reallocCells cells size)[cell]? = some (some value) := by
  have before : cell < (cells.take size).length := by
    obtain ⟨room, -⟩ := List.getElem?_eq_some_iff.mp written
    rw [List.length_take]
    exact Nat.lt_min.mpr ⟨inside, room⟩
  rw [reallocCells, List.getElem?_append_left before, List.getElem?_take_of_lt inside, written]

theorem lost_realloc_iff {size : Nat} (room : packet.sequenceNumbersCount.toNat ≤ size) :
    Lost { packet with sequenceNumbers := reallocCells packet.sequenceNumbers size } ↔
      Lost packet := by
  constructor
  · rintro ⟨cell, counted, unwritten⟩
    exact ⟨cell, counted, fun value written =>
      unwritten value (reallocCells_kept (Nat.lt_of_lt_of_le counted room) written)⟩
  · rintro ⟨cell, counted, unwritten⟩
    exact ⟨cell, counted, fun value written => unwritten value (reallocCells_written written)⟩

theorem count_succ {count : UInt16} (short : count.toNat + 1 < 65536) :
    (count + 1).toNat = count.toNat + 1 := by
  rw [UInt16.toNat_add]
  exact Nat.mod_eq_of_lt short

/-- The write to the cell of the count.  Where the count wraps, no cell is
counted any more. -/
theorem lost_write_iff (number : UInt32)
    (room : packet.sequenceNumbersCount.toNat < packet.sequenceNumbers.length) :
    Lost ⟨packet.sequenceNumbers.set packet.sequenceNumbersCount.toNat (some number),
        packet.sequenceNumbersCount + 1⟩ ↔
      packet.sequenceNumbersCount.toNat + 1 < 65536 ∧ Lost packet := by
  constructor
  · rintro ⟨cell, counted, unwritten⟩
    have short : packet.sequenceNumbersCount.toNat + 1 < 65536 := by
      by_contra wraps
      have below := packet.sequenceNumbersCount.toNat_lt
      have zero : (packet.sequenceNumbersCount + 1).toNat = 0 := by
        rw [UInt16.toNat_add, UInt16.toNat_one]
        omega
      exact absurd (zero ▸ counted) (Nat.not_lt_zero _)
    dsimp only at counted unwritten
    rw [count_succ short] at counted
    have other : packet.sequenceNumbersCount.toNat ≠ cell := by
      rintro rfl
      exact unwritten number (List.getElem?_set_self room)
    refine ⟨short, cell, by omega, fun value written => unwritten value ?_⟩
    rwa [List.getElem?_set_ne other]
  · rintro ⟨short, cell, counted, unwritten⟩
    refine ⟨cell, ?_, fun value written => ?_⟩
    · rw [count_succ short]
      exact Nat.lt_succ_of_lt counted
    · rw [List.getElem?_set_ne (Nat.ne_of_gt counted)] at written
      exact unwritten value written

/-- Induction on the turns of the loop. -/
theorem writeRange_inside (turns : Nat) (index : UInt32)
    (room : packet.sequenceNumbersCount.toNat + turns ≤ packet.sequenceNumbers.length) :
    ∃ stored, writeRange turns index packet = some stored ∧
      stored.sequenceNumbersCount.toNat = (packet.sequenceNumbersCount.toNat + turns) % 65536 ∧
      (Lost stored ↔ packet.sequenceNumbersCount.toNat + turns < 65536 ∧ Lost packet) := by
  induction turns generalizing index packet with
  | zero =>
      have below := packet.sequenceNumbersCount.toNat_lt
      exact ⟨packet, rfl, (Nat.mod_eq_of_lt below).symm, (and_iff_right below).symm⟩
  | succ turns ih =>
      have inside : packet.sequenceNumbersCount.toNat < packet.sequenceNumbers.length := by omega
      have moved : (packet.sequenceNumbersCount + 1).toNat =
          (packet.sequenceNumbersCount.toNat + 1) % 65536 := UInt16.toNat_add _ _
      obtain ⟨stored, success, count, lost⟩ := @ih
        ⟨packet.sequenceNumbers.set packet.sequenceNumbersCount.toNat (some index),
          packet.sequenceNumbersCount + 1⟩ (index + 1)
        (by dsimp only; rw [List.length_set, moved]; omega)
      dsimp only at count lost
      rw [moved] at count lost
      refine ⟨stored, ?_, by rw [count]; omega, ?_⟩
      · rw [writeRange, writeCell, if_pos inside, Option.bind_eq_bind, Option.bind_some]
        exact success
      · rw [lost, lost_write_iff index inside, ← and_assoc]
        exact and_congr_left fun _ => by omega

end Storing

/-! ## The loop over the records -/

/-- The count, and whether the counted cells were written. -/
structure Tracks (count : Nat) (written : Prop) (packet : PacketAcknowledge) : Prop where
  count : packet.sequenceNumbersCount.toNat = count
  written : ¬Lost packet ↔ written

theorem tracks_nothing : Tracks 0 True ⟨[], 0⟩ where
  count := rfl
  written := by
    refine iff_true_intro ?_
    rintro ⟨cell, counted, -⟩
    exact absurd counted (Nat.not_lt_zero cell)

section Tracking

variable {count : Nat} {written : Prop} {packet : PacketAcknowledge}

theorem Tracks.single (holds : Tracks count written packet) (index : UInt32)
    (room : count + 1 < 65536) :
    ∃ stored, storeRecord packet (.single index) = some stored ∧
      Tracks (count + 1) written stored := by
  obtain ⟨rfl, cells⟩ := holds
  have next := count_succ room
  have unwrapped : packet.sequenceNumbersCount + 1 ≠ 0 := by
    intro zero
    rw [zero] at next
    exact absurd next.symm (Nat.succ_ne_zero _)
  have inside : packet.sequenceNumbersCount.toNat < (reallocCells packet.sequenceNumbers
      (packet.sequenceNumbersCount.toNat + 1)).length := by
    rw [length_reallocCells]
    exact Nat.lt_succ_self _
  have lost := @lost_write_iff ⟨reallocCells packet.sequenceNumbers
    (packet.sequenceNumbersCount.toNat + 1), packet.sequenceNumbersCount⟩ index inside
  rw [and_iff_right room, lost_realloc_iff (Nat.le_succ _)] at lost
  refine ⟨_, ?_, next, (not_congr lost).trans cells⟩
  simp only [storeRecord, if_neg unwrapped, next, writeCell, Nat.add_sub_cancel, if_pos inside]

theorem Tracks.single_wraps (holds : Tracks count written packet) (index : UInt32)
    (wraps : ¬count + 1 < 65536) : storeRecord packet (.single index) = none := by
  obtain ⟨rfl, -⟩ := holds
  have below := packet.sequenceNumbersCount.toNat_lt
  have zero : packet.sequenceNumbersCount + 1 = 0 := by
    apply UInt16.toNat_inj.mp
    rw [UInt16.toNat_add, UInt16.toNat_one, UInt16.toNat_zero]
    omega
  simp only [storeRecord, zero, ↓reduceIte]

/-- The size that a range asks for, where it takes no cells away. -/
theorem rangeSize {count : UInt16} {index endIndex : UInt32}
    (keeps : keepsCells count.toNat (.range index endIndex))
    (bound : endIndex.toNat + 1 - index.toNat ≤ 2 ^ 24) :
    count.toNat + (endIndex.toNat + 1 - index.toNat) ≤
      (count.toUInt32 + (endIndex - index + 1)).toNat := by
  have small := count.toNat_lt
  have indexSmall := index.toNat_lt
  have endSmall := endIndex.toNat_lt
  rw [UInt32.toNat_add, UInt32.toNat_add, UInt32.toNat_sub, UInt32.toNat_one,
    UInt16.toNat_toUInt32]
  rcases keeps with up | back <;> omega

/-- The size that a range asks for, where it takes cells away. -/
theorem rangeSize_lt {count : UInt16} {index endIndex : UInt32}
    (takes : ¬keepsCells count.toNat (.range index endIndex)) :
    (count.toUInt32 + (endIndex - index + 1)).toNat < count.toNat := by
  obtain ⟨down, reached⟩ := not_or.mp takes
  have small := count.toNat_lt
  have indexSmall := index.toNat_lt
  rw [UInt32.toNat_add, UInt32.toNat_add, UInt32.toNat_sub, UInt32.toNat_one,
    UInt16.toNat_toUInt32]
  omega

/-- A range that takes cells away has no numbers to write. -/
theorem Tracks.range (holds : Tracks count written packet) (index endIndex : UInt32)
    (bound : endIndex.toNat + 1 - index.toNat ≤ 2 ^ 24) :
    ∃ stored, storeRecord packet (.range index endIndex) = some stored ∧
      Tracks ((count + (endIndex.toNat + 1 - index.toNat)) % 65536)
        (65536 ≤ count + (endIndex.toNat + 1 - index.toNat) ∨
          written ∧ keepsCells count (.range index endIndex)) stored := by
  obtain ⟨rfl, cells⟩ := holds
  by_cases keeps : keepsCells packet.sequenceNumbersCount.toNat (.range index endIndex)
  · have size := rangeSize keeps bound
    obtain ⟨stored, success, counted, lost⟩ := @writeRange_inside
      ⟨reallocCells packet.sequenceNumbers _, packet.sequenceNumbersCount⟩
      (endIndex.toNat + 1 - index.toNat) index (by rw [length_reallocCells]; exact size)
    refine ⟨stored, success, counted, ?_⟩
    rw [lost, lost_realloc_iff (Nat.le_trans (Nat.le_add_right _ _) size), not_and_or, cells,
      Nat.not_lt, and_iff_left keeps]
  · have none' : endIndex.toNat + 1 - index.toNat = 0 := by
      obtain ⟨down, -⟩ := not_or.mp keeps
      omega
    have below := packet.sequenceNumbersCount.toNat_lt
    rw [none', Nat.add_zero, Nat.mod_eq_of_lt below]
    have storing : storeRecord packet (.range index endIndex) =
        some ⟨reallocCells packet.sequenceNumbers
          (packet.sequenceNumbersCount.toUInt32 + (endIndex - index + 1)).toNat,
            packet.sequenceNumbersCount⟩ := by
      rw [storeRecord, none', writeRange]
    refine ⟨_, storing, rfl, iff_of_false ?_ ?_⟩
    · refine not_not_intro ⟨_, rangeSize_lt keeps, fun value found => ?_⟩
      obtain ⟨inside, -⟩ := List.getElem?_eq_some_iff.mp found
      rw [length_reallocCells] at inside
      exact absurd inside (Nat.lt_irrefl _)
    · exact not_or_intro (Nat.not_le_of_lt below) fun kept => keeps kept.2

/-- Induction on the records. -/
theorem Tracks.records (records : List AckRecord) (holds : Tracks count written packet)
    (bound : ∀ record ∈ records, (recordNumbers record).length ≤ 2 ^ 24) :
    (∃ stored, records.foldlM storeRecord packet = some stored ∧ ¬Lost stored) ↔
      EndsWritten count written records := by
  induction records generalizing count written packet with
  | nil =>
      rw [EndsWritten, ← holds.written]
      constructor
      · rintro ⟨stored, success, kept⟩
        exact Option.some.inj success ▸ kept
      · exact fun kept => ⟨packet, rfl, kept⟩
  | cons record rest ih =>
      obtain ⟨first, others⟩ := List.forall_mem_cons.mp bound
      cases record with
      | single index =>
          by_cases room : count + 1 < 65536
          · obtain ⟨stored, storing, tracks⟩ := holds.single index room
            rw [EndsWritten, and_iff_right room, ← ih tracks others]
            simp only [List.foldlM_cons, storing, Option.bind_eq_bind, Option.bind_some]
          · simp only [List.foldlM_cons, holds.single_wraps index room, Option.bind_eq_bind,
              Option.bind_none, reduceCtorEq, false_and, exists_false, EndsWritten, room]
      | range index endIndex =>
          rw [recordNumbers_range_length] at first
          obtain ⟨stored, storing, tracks⟩ := holds.range index endIndex first
          rw [EndsWritten, ← ih tracks others]
          simp only [List.foldlM_cons, storing, Option.bind_eq_bind, Option.bind_some]

end Tracking

/-- A range between 24-bit numbers. -/
theorem recordNumbers_length_le {record : AckRecord}
    (small : ∀ number ∈ recordNumbers record, number.toNat < 2 ^ 24) :
    (recordNumbers record).length ≤ 2 ^ 24 := by
  cases record with
  | single index => exact Nat.one_le_two_pow
  | range index endIndex =>
      rw [recordNumbers_range_length]
      by_cases up : index.toNat ≤ endIndex.toNat
      · have last : endIndex ∈ recordNumbers (.range index endIndex) :=
          List.mem_map.mpr ⟨endIndex.toNat, List.mem_range'_1.mpr ⟨up, by omega⟩,
            UInt32.ofNat_toNat⟩
        have below := small endIndex last
        omega
      · omega

/-- The decoder stays inside its array, and its caller inside the cells that
were written, exactly on these records. -/
theorem getPacketAcknowledge_reads_iff {stream rest : List UInt8} {records : List AckRecord}
    (long : readRecords stream = some (records, rest)) :
    (∃ packet, getPacketAcknowledge stream = some (packet, rest) ∧ packet.read.isSome) ↔
      EndsWritten 0 True records := by
  have bound : ∀ record ∈ records, (recordNumbers record).length ≤ 2 ^ 24 := by
    intro record member
    refine recordNumbers_length_le fun number inside => ?_
    exact listedNumbers_lt (listedNumbers_of_records long) number
      (List.mem_flatMap.mpr ⟨record, member, inside⟩)
  simp only [getPacketAcknowledge_iff long, read_isSome_iff]
  exact tracks_nothing.records records bound

/-! ## The decoder -/

/-- On a datagram that holds its records, the decoder writes inside its array
and returns the listed numbers with their count exactly where fewer than 65536
are listed and no range takes cells away. -/
theorem getPacketAcknowledge_lists_iff (stream rest : List UInt8) (records : List AckRecord)
    (long : readRecords stream = some (records, rest)) :
    (∃ packet, getPacketAcknowledge stream = some (packet, rest) ∧
        packet.sequenceNumbersCount.toNat = (records.flatMap recordNumbers).length ∧
        packet.read = some (records.flatMap recordNumbers)) ↔
      (records.flatMap recordNumbers).length < 65536 ∧ KeepsCells 0 records := by
  have keeps (short : (records.flatMap recordNumbers).length < 65536) :
      (∃ packet, getPacketAcknowledge stream = some (packet, rest) ∧ packet.read.isSome) ↔
        KeepsCells 0 records := by
    rw [getPacketAcknowledge_reads_iff long,
      endsWritten_iff_keeps records True ((Nat.zero_add _).symm ▸ short), true_and]
  constructor
  · rintro ⟨packet, success, count, read⟩
    have short : (records.flatMap recordNumbers).length < 65536 :=
      count ▸ packet.sequenceNumbersCount.toNat_lt
    exact ⟨short, (keeps short).mp ⟨packet, success, Option.isSome_iff_exists.mpr ⟨_, read⟩⟩⟩
  · rintro ⟨short, kept⟩
    obtain ⟨packet, success, reads⟩ := (keeps short).mpr kept
    have storing := (getPacketAcknowledge_iff long packet).mp success
    have stored := stored_nothing.records records storing
    obtain ⟨values, read⟩ := Option.isSome_iff_exists.mp reads
    have listed := stored.read read
    rw [List.nil_append, afterWrap, Nat.mod_eq_of_lt short, Nat.sub_self, List.drop_zero] at listed
    refine ⟨packet, success, ?_, listed ▸ read⟩
    rw [stored.count, List.nil_append, Nat.mod_eq_of_lt short]

/-- Two numbers with a range between them. -/
def mixedRecords : List AckRecord := [.single 7, .range 9 11, .single 20]

def mixedStream : List UInt8 :=
  [0xC0, 0, 3, 1, 7, 0, 0, 0, 9, 0, 0, 11, 0, 0, 1, 20, 0, 0]

theorem getPacketAcknowledge_lists_iff_mixed :
    (∃ packet, getPacketAcknowledge mixedStream = some (packet, []) ∧
        packet.sequenceNumbersCount.toNat = (mixedRecords.flatMap recordNumbers).length ∧
        packet.read = some (mixedRecords.flatMap recordNumbers)) ↔
      (mixedRecords.flatMap recordNumbers).length < 65536 ∧ KeepsCells 0 mixedRecords :=
  getPacketAcknowledge_lists_iff mixedStream [] mixedRecords rfl

/-- The number 7 and the range from 9 to 7: the array is gone, the count is 1. -/
theorem reversedRange_shrinks :
    readRecords [0xA0, 0, 2, 1, 7, 0, 0, 0, 9, 0, 0, 7, 0, 0] =
        some ([.single 7, .range 9 7], []) ∧
      ([AckRecord.single 7, .range 9 7].flatMap recordNumbers) = [7] ∧
      getPacketAcknowledge [0xA0, 0, 2, 1, 7, 0, 0, 0, 9, 0, 0, 7, 0, 0] = some (⟨[], 1⟩, []) ∧
      PacketAcknowledge.read ⟨[], 1⟩ = none := by
  refine ⟨rfl, rfl, rfl, rfl⟩

end PodrumRakNet.RecordCells
