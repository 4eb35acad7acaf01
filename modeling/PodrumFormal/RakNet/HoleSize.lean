import PodrumFormal.RakNet.NackQueue

/-!
# The size of a gap

A frame set can skip millions of numbers, and the NACK queue counts them in 16
bits.  The queue grows past its array exactly when the numbers held and the
numbers skipped are together more than 65535.
-/

set_option autoImplicit false

namespace PodrumRakNet.HoleSize

open PodrumRakNet.Frame PodrumRakNet.FrameSet PodrumRakNet.Packet PodrumRakNet.Connections
open PodrumRakNet.Handler PodrumRakNet.ReceiveWindow PodrumRakNet.NackQueue

/-! ## Appending many numbers -/

theorem append_present {number : UInt32} {queue : SequenceQueue}
    (present : number ∈ queue.numbers) : queue.append number = some queue := by
  have isIn : queue.array.isIn number = true :=
    (KeyedArray.isIn_iff _ _).mpr ⟨number, present, rfl⟩
  rw [SequenceQueue.append, if_pos isIn]

/-- A number that is not there yet needs a cell. -/
theorem append_absent {number : UInt32} {queue : SequenceQueue}
    (absent : number ∉ queue.numbers) :
    (queue.numbers.length < 65535 ∧ ∃ next, queue.append number = some next ∧
      next.numbers = queue.numbers ++ [number]) ∨
    (65535 ≤ queue.numbers.length ∧ queue.append number = none) := by
  have unlisted : number ∉ queue.array.slots.map id := by rwa [List.map_id]
  have isOut : ¬ queue.array.isIn number = true := by rwa [KeyedArray.isIn_iff_mem]
  have count : queue.numbers.length = queue.array.size := queue.array.exact.symm
  rw [SequenceQueue.append, if_neg isOut, count]
  by_cases room : queue.array.size < 65535
  · rw [dif_pos room]
    exact Or.inl ⟨room, _, rfl, KeyedArray.append_slots_absent unlisted⟩
  · rw [dif_neg room]
    exact Or.inr ⟨by omega, rfl⟩

/-- Induction on the numbers still to append: each one is there already or takes
the next cell. -/
theorem foldlM_append_isSome : ∀ (numbers : List UInt32) (queue : SequenceQueue),
    numbers.Nodup →
    ((numbers.foldlM (fun (queue : SequenceQueue) number => queue.append number) queue).isSome ↔
      queue.numbers.length + (numbers.filter fun number => number ∉ queue.numbers).length ≤
        65535) := by
  intro numbers
  induction numbers with
  | nil =>
      intro queue _
      have fits := queue.fits
      rw [queue.array.exact] at fits
      simpa [SequenceQueue.numbers] using fits
  | cons number rest ih =>
      intro queue distinct
      obtain ⟨fresh, restDistinct⟩ := List.nodup_cons.mp distinct
      rw [List.foldlM_cons]
      by_cases present : number ∈ queue.numbers
      · rw [append_present present, List.filter_cons_of_neg (by simp [present])]
        exact ih queue restDistinct
      · rw [List.filter_cons_of_pos (by simp [present]), List.length_cons]
        obtain ⟨room, next, appended, numbers⟩ | ⟨full, failed⟩ := append_absent present
        · have sameRest : (rest.filter fun other => other ∉ next.numbers) =
              rest.filter fun other => other ∉ queue.numbers := by
            apply List.filter_congr
            intro other member
            have different : other ≠ number := fun same => fresh (same ▸ member)
            simp [numbers, different]
          rw [appended, Option.bind_eq_bind, Option.bind_some, ih next restDistinct, sameRest,
            numbers, List.length_append, List.length_singleton]
          omega
        · rw [failed]
          simp only [Option.bind_eq_bind, Option.bind_none, Option.isSome_none]
          constructor
          · intro impossible
            cases impossible
          · intro fits
            omega

theorem hole_nodup (first past : UInt32) : (hole first past).Nodup := by
  refine List.Nodup.map_on ?_ (List.nodup_range' ..)
  intro left leftInside right rightInside same
  rw [List.mem_range'_1] at leftInside rightInside
  have small := past.toNat_lt
  have numbers := congrArg UInt32.toNat same
  rwa [UInt32.toNat_ofNat_of_lt' (by simp only [UInt32.size]; omega),
    UInt32.toNat_ofNat_of_lt' (by simp only [UInt32.size]; omega)] at numbers

/-! ## A received frame set -/

/-- The numbers held other than the received one, and the skipped numbers that
are not held. -/
def cellsNeeded (sequenceNumber : UInt32) (connection : Connection) : Nat :=
  (connection.nackQueue.numbers.filter fun number => number ≠ sequenceNumber).length +
    ((hole (connection.receiverSequenceNumber + 1) sequenceNumber).filter fun number =>
      number ∉ connection.nackQueue.numbers).length

section Receive

variable {sequenceNumber : UInt32} {connection : Connection}

/-- Without a gap the loop has no turn. -/
theorem appendHole_loop (received : sequenceNumber.toNat < 2 ^ 24) (queue : SequenceQueue) :
    appendHole connection.receiverSequenceNumber sequenceNumber queue =
      (hole (connection.receiverSequenceNumber + 1) sequenceNumber).foldlM
        (fun queue number => queue.append number) queue := by
  simp only [appendHole]
  split
  · rfl
  · rename_i noHole
    have zero : sequenceNumber - connection.receiverSequenceNumber = 0 := by simpa using noHole
    have same : connection.receiverSequenceNumber = sequenceNumber :=
      ((UInt32.sub_eq_iff_eq_add.mp zero).trans (UInt32.zero_add _)).symm
    have beyond : (sequenceNumber + 1).toNat = sequenceNumber.toNat + 1 := by
      rw [UInt32.toNat_add, UInt32.toNat_one, Nat.mod_eq_of_lt (by omega)]
    have empty : hole (sequenceNumber + 1) sequenceNumber = [] := by
      rw [hole, beyond, Nat.sub_eq_zero_of_le (Nat.le_succ _)]
      rfl
    rw [same, empty]
    rfl

theorem ackQueue_appends (sequenceNumber : UInt32)
    (room : connection.ackQueue.array.size < 65535) :
    ∃ next, connection.ackQueue.append sequenceNumber = some next := by
  by_cases present : sequenceNumber ∈ connection.ackQueue.numbers
  · exact ⟨_, append_present present⟩
  · obtain ⟨_, next, appended, _⟩ | ⟨full, _⟩ := append_absent present
    · exact ⟨next, appended⟩
    · have count : connection.ackQueue.numbers.length = connection.ackQueue.array.size :=
        connection.ackQueue.array.exact.symm
      omega

/-- The loop runs on the queue without the received number, which is not among
the skipped ones. -/
theorem cellsNeeded_deducted (sequenceNumber : UInt32) (connection : Connection) :
    cellsNeeded sequenceNumber connection =
      (connection.nackQueue.deduct sequenceNumber).numbers.length +
        ((hole (connection.receiverSequenceNumber + 1) sequenceNumber).filter fun number =>
          number ∉ (connection.nackQueue.deduct sequenceNumber).numbers).length := by
  have kept : (connection.nackQueue.deduct sequenceNumber).numbers =
      connection.nackQueue.numbers.filter fun number => number ≠ sequenceNumber :=
    KeyedArray.deduct_slots sequenceNumber connection.nackQueue.array
  rw [cellsNeeded, kept]
  congr 2
  apply List.filter_congr
  intro number skipped
  have below := ((mem_hole _ _ _).mp skipped).2
  have different : number ≠ sequenceNumber := by
    intro same
    rw [same] at below
    exact Nat.lt_irrefl _ below
  simp [different]

theorem receiveSequenceNumber_isSome (received : sequenceNumber.toNat < 2 ^ 24)
    (room : connection.ackQueue.array.size < 65535) :
    (receiveSequenceNumber sequenceNumber connection).isSome ↔
      cellsNeeded sequenceNumber connection ≤ 65535 := by
  obtain ⟨ackQueue, acknowledged⟩ := ackQueue_appends sequenceNumber room
  rw [cellsNeeded_deducted, ← foldlM_append_isSome _ _ (hole_nodup _ _),
    ← appendHole_loop received]
  simp only [receiveSequenceNumber, acknowledged, Option.bind_eq_bind, Option.bind_some]
  cases appendHole connection.receiverSequenceNumber sequenceNumber
    (connection.nackQueue.deduct sequenceNumber) <;> simp

/-- Where no write leaves the array, nothing but the received number is lost. -/
theorem receiveSequenceNumber_kept {next : Connection} (received : sequenceNumber.toNat < 2 ^ 24)
    (success : receiveSequenceNumber sequenceNumber connection = some next) {number : UInt32}
    (held : number ∈ connection.nackQueue.numbers) (other : number ≠ sequenceNumber) :
    number ∈ next.nackQueue.numbers := by
  simp only [receiveSequenceNumber] at success
  obtain ⟨ackQueue, _, success⟩ := Option.bind_eq_some_iff.mp success
  obtain ⟨nackQueue, appended, success⟩ := Option.bind_eq_some_iff.mp success
  obtain rfl := Option.some.inj success
  rw [appendHole_loop received] at appended
  apply (foldlM_append_numbers _ _ _ appended number).mpr
  exact Or.inl ((SequenceQueue.mem_deduct _ _ _).mpr ⟨held, other⟩)

end Receive

/-- Exactly for which gaps a frame set writes inside the arrays and keeps the
NACK numbers. -/
theorem handleFrameSet_inside_iff (environment : Environment) (stream rest : List UInt8)
    (frameSet : PacketFrameSet) (connection : Connection) (server : RaknetServer)
    (ackRoom : connection.ackQueue.array.size < 65535)
    (decoded : getPacketFrameSet stream = some (frameSet, rest)) :
    ((receiveSequenceNumber frameSet.sequenceNumber connection).isSome ∧
      ∀ next nextServer, handleFrameSet environment stream connection server =
          some (next, nextServer) →
        ∀ number ∈ connection.nackQueue.numbers, number ≠ frameSet.sequenceNumber →
          number ∈ next.nackQueue.numbers) ↔
    cellsNeeded frameSet.sequenceNumber connection ≤ 65535 := by
  have received := receivedNumber_lt decoded
  rw [← receiveSequenceNumber_isSome received ackRoom]
  constructor
  · exact And.left
  · intro inside
    refine ⟨inside, fun next nextServer handled number held other => ?_⟩
    simp only [handleFrameSet, decoded, Option.bind_eq_bind, Option.bind_some] at handled
    obtain ⟨middle, windowed, framed⟩ := Option.bind_eq_some_iff.mp handled
    rw [(handleFrames_queues _ _ _ framed).nackQueue]
    exact receiveSequenceNumber_kept received windowed held other

theorem handleFrameSet_inside_gap :
    ((receiveSequenceNumber 3 firstConnection.1).isSome ∧
      ∀ next nextServer, handleFrameSet stillEnvironment [0x80, 3, 0, 0] firstConnection.1
          firstConnection.2 = some (next, nextServer) →
        ∀ number ∈ firstConnection.1.nackQueue.numbers, number ≠ 3 →
          number ∈ next.nackQueue.numbers) ↔
    cellsNeeded 3 firstConnection.1 ≤ 65535 :=
  handleFrameSet_inside_iff stillEnvironment [0x80, 3, 0, 0] [] ⟨3, []⟩ firstConnection.1
    firstConnection.2 (by decide) (by decide)

/-- Number 70000 on a new connection skips 69999 numbers. -/
theorem handleFrameSet_outside :
    ¬ ∀ (stream rest : List UInt8) (frameSet : PacketFrameSet) (connection : Connection)
      (server : RaknetServer),
      connection.ackQueue.array.size < 65535 → connection.nackQueue.array.size < 65535 →
      getPacketFrameSet stream = some (frameSet, rest) →
      (receiveSequenceNumber frameSet.sequenceNumber connection).isSome ∧
        ∀ next nextServer, handleFrameSet stillEnvironment stream connection server =
            some (next, nextServer) →
          ∀ number ∈ connection.nackQueue.numbers, number ≠ frameSet.sequenceNumber →
            number ∈ next.nackQueue.numbers := by
  intro inside
  have decoded : getPacketFrameSet [0x80, 0x70, 0x11, 0x01] = some (⟨70000, []⟩, []) := by decide
  have defined := (inside _ _ _ firstConnection.1 firstConnection.2 (by decide) (by decide)
    decoded).1
  rw [receiveSequenceNumber_isSome (by decide) (by decide)] at defined
  have skipped : (hole (firstConnection.1.receiverSequenceNumber + 1) 70000).length = 69999 := by
    rw [hole, List.length_map, List.length_range']
    decide
  dsimp only at defined
  have unheld : firstConnection.1.nackQueue.numbers = [] := rfl
  have all : ((hole (firstConnection.1.receiverSequenceNumber + 1) 70000).filter fun number =>
      number ∉ ([] : List UInt32)) = hole (firstConnection.1.receiverSequenceNumber + 1) 70000 :=
    List.filter_eq_self.mpr fun number _ => decide_eq_true List.not_mem_nil
  rw [cellsNeeded, unheld, List.filter_nil, all, skipped] at defined
  exact absurd defined (by decide)

end PodrumRakNet.HoleSize
