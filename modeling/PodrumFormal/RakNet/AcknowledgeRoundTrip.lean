import PodrumFormal.RakNet.Acknowledge

/-!
# Acknowledgements: round trip

The encoder's loop writes the interval cover of the sorted numbers, the decoder
lists the intervals again, and with at most 65535 numbers neither 16-bit counter
wraps.
-/

set_option autoImplicit false

namespace PodrumRakNet.AcknowledgeRoundTrip

open ByteReader PodrumStream.BinaryStream ExchangeSort IntervalCoding PodrumRakNet.Acknowledge

def intervalBytes (interval : Interval) : List UInt8 :=
  putRecord (UInt32.ofNat interval.first) (UInt32.ofNat interval.last)

def intervalRecord (interval : Interval) : AckRecord :=
  if UInt32.ofNat interval.first = UInt32.ofNat interval.last then
    .single (UInt32.ofNat interval.first)
  else .range (UInt32.ofNat interval.first) (UInt32.ofNat interval.last)

/-! ## The encoder writes the cover -/

theorem difference_toNat {current last : UInt32} (ordered : last.toNat ≤ current.toNat) :
    (current - last).toNat = current.toNat - last.toNat :=
  UInt32.toNat_sub_of_le current last (UInt32.le_iff_toNat_le.mpr ordered)

theorem recordStep_adjacent (run : RecordRun) (current : UInt32)
    (adjacent : current.toNat = run.endIndex.toNat + 1) :
    recordStep run current = { run with endIndex := current } := by
  have difference : current - run.endIndex = 1 := by
    apply UInt32.toNat_inj.mp
    rw [difference_toNat (by omega), UInt32.toNat_one]
    omega
  simp only [recordStep, difference, if_true]

theorem recordStep_beyond (run : RecordRun) (current : UInt32)
    (beyond : run.endIndex.toNat + 1 < current.toNat) :
    recordStep run current =
      ⟨current, current, run.recordCount + 1,
        run.tempStream ++ putRecord run.startIndex run.endIndex⟩ := by
  have difference := difference_toNat (show run.endIndex.toNat ≤ current.toNat by omega)
  have notOne : current - run.endIndex ≠ 1 := by
    intro one
    rw [one, UInt32.toNat_one] at difference
    omega
  have large : current - run.endIndex > 1 := by
    apply UInt32.lt_iff_toNat_lt.mpr
    rw [difference, UInt32.toNat_one]
    omega
  simp only [recordStep, if_neg notOne, if_pos large]

theorem recordStep_repeated (run : RecordRun) : recordStep run run.endIndex = run := by
  simp [recordStep]

/-- Everything written so far, the open interval included. -/
def written (run : RecordRun) : List UInt8 :=
  run.tempStream ++ putRecord run.startIndex run.endIndex

def runCover (run : RecordRun) (rest : List UInt32) : List Interval :=
  IntervalCoding.cover run.startIndex.toNat run.endIndex.toNat (rest.map UInt32.toNat)

/-- Induction on the numbers to come: each either extends the open interval,
closes it, or repeats its end, and `cover` takes the same case. -/
theorem foldl_recordStep : ∀ (rest : List UInt32) (run : RecordRun),
    Ahead run.startIndex.toNat run.endIndex.toNat (rest.map UInt32.toNat) →
    written (rest.foldl recordStep run) =
        run.tempStream ++ (runCover run rest).flatMap intervalBytes ∧
      (rest.foldl recordStep run).recordCount + 1 =
        run.recordCount + UInt16.ofNat (runCover run rest).length := by
  intro rest
  induction rest with
  | nil =>
      intro run _
      simp [written, runCover, IntervalCoding.cover, intervalBytes]
  | cons current rest ih =>
      intro run ahead
      rw [List.map_cons] at ahead
      have above := ahead.le_next
      rw [List.foldl_cons]
      by_cases adjacent : current.toNat = run.endIndex.toNat + 1
      · have step := recordStep_adjacent run current adjacent
        have sameCover : runCover run (current :: rest) =
            runCover { run with endIndex := current } rest := by
          simp only [runCover, List.map_cons, IntervalCoding.cover, if_pos adjacent]
        rw [step, sameCover]
        exact ih _ ahead.extend
      · by_cases beyond : run.endIndex.toNat + 1 < current.toNat
        · have step := recordStep_beyond run current beyond
          have opened := ih (recordStep run current) (by rw [step]; exact ahead.open)
          have split : runCover run (current :: rest) =
              ⟨run.startIndex.toNat, run.endIndex.toNat⟩ :: runCover (recordStep run current) rest := by
            simp only [step, runCover, List.map_cons, IntervalCoding.cover,
              if_neg adjacent, if_pos beyond]
          rw [split, opened.1, opened.2, step]
          refine ⟨?_, ?_⟩
          · simp [intervalBytes]
          · rw [List.length_cons, UInt16.ofNat_add, UInt16.add_assoc]
            congr 1
            exact UInt16.add_comm _ _
        · have same : run.endIndex = current := UInt32.toNat_inj.mp (by omega)
          have sameCover : runCover run (current :: rest) = runCover run rest := by
            simp only [runCover, List.map_cons, IntervalCoding.cover, if_neg adjacent,
              if_neg beyond]
          rw [sameCover, ← same, recordStep_repeated]
          exact ih run ahead.repeat

/-! ## The decoder lists the intervals -/

theorem reads_interval (interval : Interval) (firstFits : interval.first < 2 ^ 24)
    (lastFits : interval.last < 2 ^ 24) :
    Reads getRecord (intervalBytes interval) (intervalRecord interval) := by
  have triad (number : Nat) (fits : number < 2 ^ 24) :
      Reads getUnsignedTriadLe (putUnsignedTriadLe (UInt32.ofNat number)) (UInt32.ofNat number) := by
    apply reads_unsignedTriadLe
    rw [UInt32.toNat_ofNat_of_lt' (by simp only [UInt32.size]; omega)]
    exact fits
  unfold intervalBytes intervalRecord putRecord getRecord
  split
  · exact (reads_unsignedByte 0x01).bind ((triad _ firstFits).bind_pure (Reads.pure _))
  · rw [List.append_assoc]
    exact (reads_unsignedByte 0x00).bind
      ((triad _ firstFits).bind ((triad _ lastFits).bind_pure (Reads.pure _)))

/-- The array after exactly these numbers were stored. -/
def filled (numbers : List Nat) : PacketAcknowledge :=
  ⟨numbers.map fun number => some (UInt32.ofNat number), UInt16.ofNat numbers.length⟩

theorem count_toNat {numbers : List Nat} (short : numbers.length ≤ 65535) :
    (UInt16.ofNat numbers.length).toNat = numbers.length :=
  UInt16.toNat_ofNat_of_lt' (by simp only [UInt16.size]; omega)

theorem writeCell_next (numbers : List Nat) (spare : List (Option UInt32)) (number : Nat)
    (count : UInt16) :
    writeCell ⟨(filled numbers).sequenceNumbers ++ none :: spare, count⟩ numbers.length
        (UInt32.ofNat number) =
      some ⟨(filled (numbers ++ [number])).sequenceNumbers ++ spare, count⟩ := by
  have inside : numbers.length < ((filled numbers).sequenceNumbers ++ none :: spare).length := by
    simp [filled]
  simp only [writeCell, if_pos inside]
  simp [filled, List.set_append_right]

/-- Induction on the turns left: each fills the next of the cells that
`realloc` made room for. -/
theorem writeRange_filled : ∀ (turns first : Nat) (numbers : List Nat),
    numbers.length + turns ≤ 65535 →
    writeRange turns (UInt32.ofNat first)
        ⟨(filled numbers).sequenceNumbers ++ List.replicate turns none,
          (filled numbers).sequenceNumbersCount⟩ =
      some (filled (numbers ++ List.range' first turns)) := by
  intro turns
  induction turns with
  | zero => intro first numbers _; simp [writeRange, filled]
  | succ turns ih =>
      intro first numbers short
      have position : ((filled numbers).sequenceNumbersCount).toNat = numbers.length :=
        count_toNat (by omega)
      have next : UInt32.ofNat first + 1 = UInt32.ofNat (first + 1) := by
        rw [UInt32.ofNat_add]; rfl
      have counted : (filled numbers).sequenceNumbersCount + 1 =
          (filled (numbers ++ [first])).sequenceNumbersCount := by
        simp only [filled, List.length_append, List.length_singleton, UInt16.ofNat_add]
        rfl
      rw [writeRange, position, List.replicate_succ, writeCell_next]
      simp only [Option.bind_eq_bind, Option.bind_some, next, counted]
      rw [ih (first + 1) (numbers ++ [first]) (by simp; omega)]
      simp [List.range'_succ]

theorem reallocCells_grow (cells : List (Option UInt32)) (count : Nat)
    (grow : cells.length ≤ count) :
    reallocCells cells count = cells ++ List.replicate (count - cells.length) none := by
  rw [reallocCells, List.take_of_length_le grow]

theorem storeRecord_single (numbers : List Nat) (number : Nat)
    (short : numbers.length + 1 ≤ 65535) :
    storeRecord (filled numbers) (.single (UInt32.ofNat number)) =
      some (filled (numbers ++ [number])) := by
  have counted : (filled numbers).sequenceNumbersCount + 1 =
      (filled (numbers ++ [number])).sequenceNumbersCount := by
    simp only [filled, List.length_append, List.length_singleton, UInt16.ofNat_add]
    rfl
  have size : ((filled (numbers ++ [number])).sequenceNumbersCount).toNat = numbers.length + 1 := by
    have exact : (UInt16.ofNat (numbers ++ [number]).length).toNat = (numbers ++ [number]).length :=
      count_toNat (by simpa using short)
    simpa [filled] using exact
  have nonzero : (filled (numbers ++ [number])).sequenceNumbersCount ≠ 0 := by
    intro zero
    rw [zero] at size
    simp at size
  have cells : (filled numbers).sequenceNumbers.length = numbers.length := by simp [filled]
  simp only [storeRecord, counted, if_neg nonzero, size, Nat.add_sub_cancel]
  rw [reallocCells_grow _ _ (by omega), cells, Nat.add_sub_cancel_left, List.replicate_one,
    writeCell_next]
  simp

theorem storeRecord_interval (numbers : List Nat) (interval : Interval)
    (nonempty : interval.first ≤ interval.last) (fits : interval.last < 2 ^ 24)
    (short : (numbers ++ interval.numbers).length ≤ 65535) :
    storeRecord (filled numbers) (intervalRecord interval) =
      some (filled (numbers ++ interval.numbers)) := by
  have first : (UInt32.ofNat interval.first).toNat = interval.first :=
    UInt32.toNat_ofNat_of_lt' (by simp only [UInt32.size]; omega)
  have last : (UInt32.ofNat interval.last).toNat = interval.last :=
    UInt32.toNat_ofNat_of_lt' (by simp only [UInt32.size]; omega)
  simp only [Interval.numbers, List.length_append, List.length_range'] at short
  unfold intervalRecord
  split
  · rename_i same
    have point : interval.first = interval.last := by rw [← first, ← last, same]
    have one : interval.numbers = [interval.first] := by
      simp [Interval.numbers, ← point]
    rw [one]
    exact storeRecord_single numbers interval.first (by omega)
  · have difference : (UInt32.ofNat interval.last - UInt32.ofNat interval.first).toNat = _ :=
      difference_toNat (by omega)
    have position : ((filled numbers).sequenceNumbersCount).toNat = numbers.length :=
      count_toNat (by omega)
    have cells : (filled numbers).sequenceNumbers.length = numbers.length := by simp [filled]
    have size : ((filled numbers).sequenceNumbersCount.toUInt32 +
        (UInt32.ofNat interval.last - UInt32.ofNat interval.first + 1)).toNat =
        numbers.length + (interval.last + 1 - interval.first) := by
      rw [UInt32.toNat_add, UInt32.toNat_add, difference, first, last, UInt32.toNat_one,
        UInt16.toNat_toUInt32, position]
      omega
    simp only [storeRecord, size, first, last]
    rw [reallocCells_grow _ _ (by omega), cells, Nat.add_sub_cancel_left]
    exact writeRange_filled _ interval.first numbers (by omega)

/-- The intervals' bytes are read into an array of the numbers they list. -/
theorem reads_intervals : ∀ (intervals : List Interval) (numbers : List Nat),
    (∀ interval ∈ intervals, interval.first ≤ interval.last ∧ interval.last < 2 ^ 24) →
    (numbers ++ listed intervals).length ≤ 65535 →
    Reads (getRecords intervals.length (filled numbers)) (intervals.flatMap intervalBytes)
      (filled (numbers ++ listed intervals)) := by
  intro intervals
  induction intervals with
  | nil =>
      intro numbers _ _
      simpa [listed, getRecords] using Reads.pure (filled numbers)
  | cons interval rest ih =>
      intro numbers each short
      obtain ⟨nonempty, fits⟩ := each interval (List.mem_cons_self ..)
      have splitListed : numbers ++ listed (interval :: rest) =
          numbers ++ interval.numbers ++ listed rest := by
        simp [listed]
      rw [splitListed] at short ⊢
      have stored := storeRecord_interval numbers interval nonempty fits
        (by rw [List.length_append] at short; omega)
      have tail := ih (numbers ++ interval.numbers)
        (fun other member => each other (List.mem_cons_of_mem _ member)) short
      rw [List.flatMap_cons, List.length_cons, getRecords]
      apply (reads_interval interval (by omega) fits).bind
      intro bytes
      rw [stored]
      exact tail bytes

theorem filled_read {numbers : List Nat} (short : numbers.length ≤ 65535) :
    (filled numbers).read = some (numbers.map UInt32.ofNat) := by
  have position : ((filled numbers).sequenceNumbersCount).toNat = numbers.length :=
    count_toNat short
  have cells : (filled numbers).sequenceNumbers.length = numbers.length := by simp [filled]
  have whole : (filled numbers).sequenceNumbers.take numbers.length =
      (filled numbers).sequenceNumbers :=
    List.take_of_length_le (by omega)
  rw [PacketAcknowledge.read, position, cells, if_pos (Nat.le_refl _), whole]
  simp only [filled, List.mapM_map]
  exact List.mapM_pure

/-! ## The round trip -/

section Sorted

variable {first : UInt32} {rest : List UInt32}

theorem sorted_toNat (sorted : (first :: rest).Pairwise (· ≤ ·)) :
    (first.toNat :: rest.map UInt32.toNat).Pairwise (· ≤ ·) := by
  rw [← List.map_cons]
  exact List.pairwise_map.mpr (sorted.imp UInt32.le_iff_toNat_le.mp)

theorem putPacketAcknowledge_cover {numbers : List UInt32} (opts : Bool)
    (sortedForm : exchangeSort numbers = first :: rest) :
    putPacketAcknowledge numbers opts =
      putUnsignedByte (if opts then idNack else idAck) ++
        (putUnsignedShortBe
            (UInt16.ofNat (cover first.toNat first.toNat (rest.map UInt32.toNat)).length) ++
          (cover first.toNat first.toNat (rest.map UInt32.toNat)).flatMap intervalBytes) := by
  have sorted : (first :: rest).Pairwise (· ≤ ·) := sortedForm ▸ exchangeSort_sorted numbers
  obtain ⟨bytes, count⟩ :=
    foldl_recordStep rest ⟨first, first, 0, []⟩ (ahead_of_sorted (sorted_toNat sorted))
  simp only [written, List.nil_append, UInt16.zero_add] at bytes count
  simp only [putPacketAcknowledge, sortedForm, bytes, count, runCover]

theorem cover_fits (sorted : (first :: rest).Pairwise (· ≤ ·))
    (fits : ∀ number ∈ first :: rest, number.toNat < 2 ^ 24) :
    ∀ interval ∈ cover first.toNat first.toNat (rest.map UInt32.toNat),
      interval.first ≤ interval.last ∧ interval.last < 2 ^ 24 := by
  intro interval member
  have ordered := sorted_toNat sorted
  have order := cover_nonempty _ _ _ (ahead_of_sorted ordered) interval member
  have ending : interval.last ∈ listed (cover first.toNat first.toNat (rest.map UInt32.toNat)) :=
    List.mem_flatMap.mpr ⟨interval, member, (interval.mem_numbers _).mpr ⟨order, by omega⟩⟩
  have inList := (mem_listed_sorted ordered _).mp ending
  rw [← List.map_cons] at inList
  obtain ⟨number, inNumbers, value⟩ := List.mem_map.mp inList
  exact ⟨order, value ▸ fits number inNumbers⟩

theorem listed_cover_length_le (sorted : (first :: rest).Pairwise (· ≤ ·)) :
    (listed (cover first.toNat first.toNat (rest.map UInt32.toNat))).length ≤
      (first :: rest).length := by
  have bounded := listed_sorted_length_le (sorted_toNat sorted)
  rwa [← List.map_cons, List.length_map] at bounded

/-- The datagram is read into an array of the numbers that the cover lists. -/
theorem reads_putPacketAcknowledge {numbers : List UInt32} (opts : Bool)
    (sortedForm : exchangeSort numbers = first :: rest)
    (short : (first :: rest).length ≤ 65535)
    (fits : ∀ number ∈ first :: rest, number.toNat < 2 ^ 24) :
    Reads getPacketAcknowledge (putPacketAcknowledge numbers opts)
      (filled (listed (cover first.toNat first.toNat (rest.map UInt32.toNat)))) := by
  have sorted : (first :: rest).Pairwise (· ≤ ·) := sortedForm ▸ exchangeSort_sorted numbers
  have each := cover_fits sorted fits
  have listedShort := Nat.le_trans (listed_cover_length_le sorted) short
  have records := reads_intervals _ [] each (by simpa using listedShort)
  have fewer := Nat.le_trans
    (length_le_listed _ fun interval member => (each interval member).1) listedShort
  have header := Reads.skip (putUnsignedByte (if opts then idNack else idAck))
  rw [putPacketAcknowledge_cover opts sortedForm]
  refine header.bind ((reads_unsignedShortBe _).bind ?_)
  rw [UInt16.toNat_ofNat_of_lt' (by simp only [UInt16.size]; omega)]
  exact records

end Sorted

/-- Decoding an encoded list fills the array with the numbers of the list, each
once, in increasing order. -/
theorem getPacketAcknowledge_putPacketAcknowledge (numbers : List UInt32) (opts : Bool)
    (nonempty : numbers ≠ []) (short : numbers.length ≤ 65535)
    (fits : ∀ number ∈ numbers, number.toNat < 2 ^ 24) :
    ∃ distinct : List Nat,
      getPacketAcknowledge (putPacketAcknowledge numbers opts) = some (filled distinct, []) ∧
      distinct.length ≤ 65535 ∧ distinct.Pairwise (· < ·) ∧
      ∀ number, number ∈ distinct ↔ ∃ item ∈ numbers, item.toNat = number := by
  have permuted := exchangeSort_perm numbers
  cases sortedForm : exchangeSort numbers with
  | nil =>
      rw [sortedForm] at permuted
      exact absurd permuted.nil_eq.symm nonempty
  | cons first rest =>
      have sorted : (first :: rest).Pairwise (· ≤ ·) := sortedForm ▸ exchangeSort_sorted numbers
      have ordered := sorted_toNat sorted
      rw [sortedForm] at permuted
      have shortSorted : (first :: rest).length ≤ 65535 := permuted.length_eq ▸ short
      have reads := reads_putPacketAcknowledge opts sortedForm shortSorted fun number member =>
        fits number (permuted.mem_iff.mp member)
      refine ⟨_, reads.apply_nil, Nat.le_trans (listed_cover_length_le sorted) shortSorted,
        listed_cover_increasing _ _ _ (ahead_of_sorted ordered), fun number => ?_⟩
      rw [mem_listed_sorted ordered, ← List.map_cons, List.mem_map]
      simp only [permuted.mem_iff]

theorem acknowledge_roundTrip (numbers : List UInt32) (opts : Bool) (nonempty : numbers ≠ [])
    (short : numbers.length ≤ 65535) (fits : ∀ number ∈ numbers, number.toNat < 2 ^ 24) :
    ∃ packet decoded,
      getPacketAcknowledge (putPacketAcknowledge numbers opts) = some (packet, []) ∧
      packet.read = some decoded ∧
      decoded.Pairwise (· < ·) ∧
      ∀ number, number ∈ decoded ↔ number ∈ numbers := by
  obtain ⟨distinct, decode, bounded, increasing, same⟩ :=
    getPacketAcknowledge_putPacketAcknowledge numbers opts nonempty short fits
  have exact : ∀ number ∈ distinct, (UInt32.ofNat number).toNat = number := by
    intro number member
    obtain ⟨item, inNumbers, rfl⟩ := (same number).mp member
    rw [UInt32.ofNat_toNat]
  refine ⟨_, _, decode, filled_read bounded, ?_, ?_⟩
  · refine List.pairwise_map.mpr (increasing.imp_of_mem ?_)
    intro low high lowMember highMember less
    exact UInt32.lt_iff_toNat_lt.mpr (by rwa [exact low lowMember, exact high highMember])
  · intro number
    rw [List.mem_map]
    constructor
    · rintro ⟨value, member, rfl⟩
      obtain ⟨item, inNumbers, rfl⟩ := (same value).mp member
      rwa [UInt32.ofNat_toNat]
    · intro member
      exact ⟨number.toNat, (same _).mpr ⟨number, member, rfl⟩, UInt32.ofNat_toNat⟩

theorem acknowledge_roundTrip_mixed :
    ∃ packet decoded,
      getPacketAcknowledge (putPacketAcknowledge [9, 4, 5, 4] true) = some (packet, []) ∧
      packet.read = some decoded ∧
      decoded.Pairwise (· < ·) ∧
      ∀ number, number ∈ decoded ↔ number ∈ [9, 4, 5, (4 : UInt32)] :=
  acknowledge_roundTrip [9, 4, 5, 4] true (by decide) (by decide) (by simp)

end PodrumRakNet.AcknowledgeRoundTrip
