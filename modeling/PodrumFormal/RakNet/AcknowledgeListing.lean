import PodrumFormal.RakNet.Acknowledge

/-!
# What an acknowledgement lists

The records of a datagram list numbers, independently of the array the decoder
stores them in.  The decoder counts in 16 bits: its caller reads the numbers
that are listed after the last wrap of the count.
-/

set_option autoImplicit false

namespace PodrumRakNet.AcknowledgeListing

open ByteReader PodrumStream.BinaryStream PodrumRakNet.Acknowledge

/-- `index .. end_index`, none when the end is below. -/
def recordNumbers : AckRecord → List UInt32
  | .single index => [index]
  | .range index endIndex =>
      (List.range' index.toNat (endIndex.toNat + 1 - index.toNat)).map UInt32.ofNat

def readRecords : Reader (List AckRecord) := do
  skip 1
  let recordCount ← getUnsignedShortBe
  readCount getRecord recordCount.toNat

/-- The numbers the records of a datagram list, in order. -/
def listedNumbers (stream : List UInt8) : Option (List UInt32) := do
  let (records, _) ← readRecords stream
  some (records.flatMap recordNumbers)

theorem listedNumbers_of_records {stream rest : List UInt8} {records : List AckRecord}
    (long : readRecords stream = some (records, rest)) :
    listedNumbers stream = some (records.flatMap recordNumbers) := by
  rw [listedNumbers, long]
  rfl

/-- A record is made of 24-bit numbers. -/
theorem recordNumbers_lt {bytes rest : List UInt8} {record : AckRecord}
    (success : getRecord bytes = some (record, rest)) :
    ∀ number ∈ recordNumbers record, number.toNat < 2 ^ 24 := by
  rw [getRecord, bind_apply] at success
  obtain ⟨⟨isSingle, afterFlag⟩, _, success⟩ := Option.bind_eq_some_iff.mp success
  rw [bind_apply] at success
  obtain ⟨⟨index, afterIndex⟩, first, success⟩ := Option.bind_eq_some_iff.mp success
  have indexSmall := getUnsignedTriadLe_lt first
  dsimp only at success
  split at success
  · cases success
    exact List.forall_mem_singleton.mpr indexSmall
  · rw [bind_apply] at success
    obtain ⟨⟨endIndex, afterEnd⟩, last, success⟩ := Option.bind_eq_some_iff.mp success
    have endSmall := getUnsignedTriadLe_lt last
    cases success
    intro number member
    obtain ⟨value, inside, rfl⟩ := List.mem_map.mp member
    rw [List.mem_range'_1] at inside
    dsimp only at inside
    rw [UInt32.toNat_ofNat_of_lt' (by simp only [UInt32.size]; omega)]
    omega

theorem listedNumbers_lt {stream : List UInt8} {listed : List UInt32}
    (listing : listedNumbers stream = some listed) :
    ∀ number ∈ listed, number.toNat < 2 ^ 24 := by
  obtain ⟨⟨records, rest⟩, read, result⟩ := Option.bind_eq_some_iff.mp listing
  obtain rfl := Option.some.inj result
  rw [readRecords, bind_apply] at read
  obtain ⟨⟨_, afterId⟩, _, read⟩ := Option.bind_eq_some_iff.mp read
  rw [bind_apply] at read
  obtain ⟨⟨recordCount, afterCount⟩, _, read⟩ := Option.bind_eq_some_iff.mp read
  have each : ∀ record ∈ records, ∀ number ∈ recordNumbers record, number.toNat < 2 ^ 24 :=
    readCount_forall (fun _ _ _ => recordNumbers_lt) _ _ _ _ read
  intro number member
  obtain ⟨record, recordMember, inside⟩ := List.mem_flatMap.mp member
  exact each record recordMember number inside

/-- Reading a record and storing it, in turns, is reading all and storing
all. -/
theorem getRecords_apply : ∀ (count : Nat) (packet final : PacketAcknowledge)
    (bytes rest : List UInt8), getRecords count packet bytes = some (final, rest) →
    ∃ records, readCount getRecord count bytes = some (records, rest) ∧
      records.foldlM storeRecord packet = some final := by
  intro count
  induction count with
  | zero =>
      intro packet final bytes rest success
      obtain ⟨rfl, rfl⟩ := Prod.mk.inj (Option.some.inj success)
      exact ⟨[], rfl, rfl⟩
  | succ count ih =>
      intro packet final bytes rest success
      rw [getRecords, bind_apply] at success
      obtain ⟨⟨record, middle⟩, read, success⟩ := Option.bind_eq_some_iff.mp success
      dsimp only at success
      rw [bind_apply] at success
      obtain ⟨⟨stored, after⟩, lifted, success⟩ := Option.bind_eq_some_iff.mp success
      cases storing : storeRecord packet record with
      | none => rw [storing] at lifted; cases lifted
      | some stored' =>
          rw [storing] at lifted
          cases lifted
          obtain ⟨records, readRest, storedRest⟩ := ih _ _ _ _ success
          refine ⟨record :: records, ?_, ?_⟩
          · simp only [readCount, bind_apply, read, Option.bind_some, readRest, pure_apply]
          · simp only [List.foldlM_cons, storing, Option.bind_eq_bind, Option.bind_some, storedRest]

theorem getPacketAcknowledge_records {stream rest : List UInt8} {packet : PacketAcknowledge}
    (success : getPacketAcknowledge stream = some (packet, rest)) :
    ∃ records, readRecords stream = some (records, rest) ∧
      records.foldlM storeRecord ⟨[], 0⟩ = some packet := by
  rw [getPacketAcknowledge, bind_apply] at success
  obtain ⟨⟨_, afterId⟩, skipped, success⟩ := Option.bind_eq_some_iff.mp success
  rw [bind_apply] at success
  obtain ⟨⟨recordCount, afterCount⟩, counted, success⟩ := Option.bind_eq_some_iff.mp success
  obtain ⟨records, read, stored⟩ := getRecords_apply _ _ _ _ _ success
  refine ⟨records, ?_, stored⟩
  rw [readRecords, bind_apply, skipped, Option.bind_some, bind_apply, counted, Option.bind_some]
  exact read

/-! ## What a 16-bit count leaves -/

/-- The numbers after the last wrap of a 16-bit count. -/
def afterWrap (numbers : List UInt32) : List UInt32 :=
  numbers.drop (numbers.length - numbers.length % 65536)

theorem afterWrap_length (numbers : List UInt32) :
    (afterWrap numbers).length = numbers.length % 65536 := by
  have below := Nat.mod_le numbers.length 65536
  rw [afterWrap, List.length_drop]
  omega

/-- The next number is kept beside the others, or the count has wrapped. -/
theorem afterWrap_snoc (numbers : List UInt32) (number : UInt32) :
    afterWrap (numbers ++ [number]) =
      if numbers.length % 65536 = 65535 then [] else afterWrap numbers ++ [number] := by
  have below := Nat.mod_le numbers.length 65536
  simp only [afterWrap, List.length_append, List.length_singleton]
  split
  · apply List.drop_eq_nil_of_le
    rw [List.length_append, List.length_singleton]
    omega
  · have same : numbers.length + 1 - (numbers.length + 1) % 65536 =
        numbers.length - numbers.length % 65536 := by omega
    rw [same, List.drop_append_of_le_length (Nat.sub_le _ _)]

/-- The count is that of the numbers, and a counted cell that was written to
holds its number. -/
structure Stored (numbers : List UInt32) (packet : PacketAcknowledge) : Prop where
  count : packet.sequenceNumbersCount.toNat = numbers.length % 65536
  cells : ∀ cell value, cell < numbers.length % 65536 →
    packet.sequenceNumbers[cell]? = some (some value) → (afterWrap numbers)[cell]? = some value

theorem stored_nothing : Stored [] ⟨[], 0⟩ where
  count := rfl
  cells := by
    intro cell value inside
    exact absurd inside (Nat.not_lt_zero _)

theorem reallocCells_written {cells : List (Option UInt32)} {size cell : Nat} {value : UInt32}
    (written : (reallocCells cells size)[cell]? = some (some value)) :
    cells[cell]? = some (some value) := by
  rw [reallocCells, List.getElem?_append] at written
  split at written
  · rw [List.getElem?_take] at written
    split at written
    · exact written
    · cases written
  · have added := List.mem_of_getElem? written
    cases (List.mem_replicate.mp added).2

section Storing

variable {numbers : List UInt32} {packet stored : PacketAcknowledge}

theorem Stored.realloc (holds : Stored numbers packet) (size : Nat) :
    Stored numbers { packet with sequenceNumbers := reallocCells packet.sequenceNumbers size } where
  count := holds.count
  cells := by
    intro cell value inside written
    exact holds.cells cell value inside (reallocCells_written written)

/-- A write to the cell of the count, which then moves on. -/
theorem Stored.write (holds : Stored numbers packet) (number : UInt32)
    (cells : List (Option UInt32)) (cellsEq : cells =
      packet.sequenceNumbers.set packet.sequenceNumbersCount.toNat (some number)) :
    Stored (numbers ++ [number]) ⟨cells, packet.sequenceNumbersCount + 1⟩ := by
  have lengths : (numbers ++ [number]).length = numbers.length + 1 := List.length_append
  refine ⟨?_, ?_⟩
  · rw [UInt16.toNat_add, holds.count, lengths]
    simp
  · intro cell value inside written
    rw [lengths] at inside
    have room : numbers.length % 65536 ≠ 65535 := by omega
    have reached : cell ≤ numbers.length % 65536 := by omega
    rw [afterWrap_snoc, if_neg room]
    rw [cellsEq, holds.count, List.getElem?_set] at written
    split at written
    · rename_i last
      split at written
      · cases written
        rw [← last, ← afterWrap_length, List.getElem?_concat_length]
      · cases written
    · rename_i earlier
      have before : cell < numbers.length % 65536 := by omega
      rw [List.getElem?_append_left (by rwa [afterWrap_length])]
      exact holds.cells cell value before written

theorem writeCell_some {cell : Nat} {number : UInt32}
    (success : writeCell packet cell number = some stored) :
    stored = { packet with
      sequenceNumbers := packet.sequenceNumbers.set cell (some number) } := by
  simp only [writeCell] at success
  split at success
  · exact (Option.some.inj success).symm
  · cases success

/-- The next index may wrap, as the conversion does. -/
theorem rangeNumbers_succ (index : UInt32) (turns : Nat) :
    (List.range' index.toNat (turns + 1)).map UInt32.ofNat =
      index :: (List.range' (index + 1).toNat turns).map UInt32.ofNat := by
  have shifted : (List.range' (index + 1).toNat turns).map UInt32.ofNat =
      (List.range' (index.toNat + 1) turns).map UInt32.ofNat := by
    simp only [List.range'_eq_map_range, List.map_map]
    apply List.map_congr_left
    intro i _
    simp only [Function.comp_apply, UInt32.ofNat_add, UInt32.ofNat_toNat]
    rfl
  rw [List.range'_succ, List.map_cons, UInt32.ofNat_toNat, shifted]

/-- Induction on the turns of the loop. -/
theorem Stored.range (turns : Nat) (index : UInt32) (holds : Stored numbers packet)
    (success : writeRange turns index packet = some stored) :
    Stored (numbers ++ (List.range' index.toNat turns).map UInt32.ofNat) stored := by
  induction turns generalizing index numbers packet with
  | zero =>
      obtain rfl := Option.some.inj success
      simpa using holds
  | succ turns ih =>
      obtain ⟨written, first, success⟩ := Option.bind_eq_some_iff.mp success
      obtain rfl := writeCell_some first
      have rest := ih (index + 1) (holds.write index _ rfl) success
      rwa [List.append_assoc, List.singleton_append, ← rangeNumbers_succ] at rest

theorem Stored.record (holds : Stored numbers packet) (record : AckRecord)
    (success : storeRecord packet record = some stored) :
    Stored (numbers ++ recordNumbers record) stored := by
  cases record with
  | single index =>
      simp only [storeRecord] at success
      split at success
      · cases success
      · rename_i unwrapped
        obtain rfl := writeCell_some success
        have cell : (packet.sequenceNumbersCount + 1).toNat - 1 =
            packet.sequenceNumbersCount.toNat := by
          have moved : (packet.sequenceNumbersCount + 1).toNat ≠ 0 :=
            fun zero => unwrapped (UInt16.toNat_inj.mp zero)
          have sum : (packet.sequenceNumbersCount + 1).toNat =
            (packet.sequenceNumbersCount.toNat + 1) % 65536 := UInt16.toNat_add _ _
          have below := packet.sequenceNumbersCount.toNat_lt
          omega
        simp only [cell]
        exact (holds.realloc _).write index _ rfl
  | range index endIndex =>
      exact (holds.realloc _).range _ index success

theorem Stored.records (records : List AckRecord) (holds : Stored numbers packet)
    (success : records.foldlM storeRecord packet = some stored) :
    Stored (numbers ++ records.flatMap recordNumbers) stored := by
  induction records generalizing numbers packet with
  | nil =>
      obtain rfl := Option.some.inj success
      simpa using holds
  | cons record rest ih =>
      rw [List.foldlM_cons] at success
      obtain ⟨middle, first, success⟩ := Option.bind_eq_some_iff.mp success
      have after := ih (holds.record record first) success
      rwa [List.flatMap_cons, ← List.append_assoc]

end Storing

theorem mapM_id_some : ∀ (cells : List (Option UInt32)) (values : List UInt32),
    cells.mapM id = some values → cells = values.map some := by
  intro cells
  induction cells with
  | nil =>
      intro values success
      obtain rfl := Option.some.inj success
      rfl
  | cons cell rest ih =>
      intro values success
      rw [List.mapM_cons] at success
      obtain ⟨head, first, success⟩ := Option.bind_eq_some_iff.mp success
      obtain ⟨tail, others, result⟩ := Option.bind_eq_some_iff.mp success
      obtain rfl := Option.some.inj result
      rw [List.map_cons, ← ih tail others]
      exact congrArg (· :: rest) first

/-- The numbers the caller reads are the listed ones after the last wrap. -/
theorem Stored.read {numbers values : List UInt32} {packet : PacketAcknowledge}
    (holds : Stored numbers packet) (success : packet.read = some values) :
    values = afterWrap numbers := by
  simp only [PacketAcknowledge.read] at success
  split at success
  · rename_i inside
    have cells := mapM_id_some _ _ success
    have lengths : values.length = (afterWrap numbers).length := by
      have taken := congrArg List.length cells
      rw [List.length_take, List.length_map, Nat.min_eq_left inside] at taken
      rw [← taken, afterWrap_length, holds.count]
    refine List.ext_getElem? fun cell => ?_
    rcases Nat.lt_or_ge cell values.length with counted | past
    · have value := congrArg (fun list => list[cell]?) cells
      simp only [List.getElem?_map, List.getElem?_eq_getElem counted, Option.map_some] at value
      have below : cell < numbers.length % 65536 := by rwa [lengths, afterWrap_length] at counted
      rw [List.getElem?_take_of_lt (by rwa [holds.count])] at value
      rw [List.getElem?_eq_getElem counted, holds.cells cell _ below value]
    · rw [List.getElem?_eq_none past, List.getElem?_eq_none (lengths ▸ past)]
  · cases success

/-- What the caller of the decoder reads, by what the records list. -/
theorem read_afterWrap {stream rest : List UInt8} {packet : PacketAcknowledge}
    {numbers listed : List UInt32}
    (success : getPacketAcknowledge stream = some (packet, rest))
    (read : packet.read = some numbers) (listing : listedNumbers stream = some listed) :
    numbers = afterWrap listed := by
  obtain ⟨records, decoded, stored⟩ := getPacketAcknowledge_records success
  obtain ⟨⟨other, _⟩, otherDecoded, result⟩ := Option.bind_eq_some_iff.mp listing
  rw [decoded] at otherDecoded
  cases otherDecoded
  obtain rfl := Option.some.inj result
  exact (stored_nothing.records records stored).read read

end PodrumRakNet.AcknowledgeListing
