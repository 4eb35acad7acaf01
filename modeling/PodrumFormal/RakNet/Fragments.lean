import PodrumFormal.RakNet.SendLedger

/-!
# The frames built for a message

`add_to_raknet_queue` appends one frame for a short payload and a run of
fragments for a long one.  The pieces join to the payload, the last one being
empty when the size is a multiple of the fragment size.
-/

set_option autoImplicit false

namespace PodrumRakNet.Fragments

open PodrumRakNet.Frame PodrumRakNet.FrameSet PodrumRakNet.Packet PodrumRakNet.Connections
open PodrumRakNet.SendQueue PodrumRakNet.SendLedger

/-! ## The pieces -/

theorem flatten_takes (payload : List UInt8) (size : Nat) : ∀ count : Nat,
    ((List.range count).map fun i => (payload.drop (i * size)).take size).flatten =
      payload.take (count * size) := by
  intro count
  induction count with
  | zero => simp
  | succ count ih =>
      rw [List.range_succ, List.map_append, List.flatten_append, ih, Nat.succ_mul, List.take_add]
      simp

theorem pieceSize_last (size maxSize : Nat) (positive : 0 < maxSize) :
    pieceSize size maxSize (size / maxSize) = size % maxSize := by
  have division := Nat.div_add_mod size maxSize
  have small := Nat.mod_lt size positive
  rw [Nat.mul_comm] at division
  simp only [pieceSize, padBytes, frameCount, Nat.add_sub_cancel, if_true, Nat.succ_mul]
  omega

theorem pieceSize_full (size maxSize i : Nat) (early : i < size / maxSize) :
    pieceSize size maxSize i = maxSize := by
  have notLast : i ≠ frameCount size maxSize - 1 := by
    simp only [frameCount]
    omega
  rw [pieceSize, if_neg notLast]

theorem flatten_pieces (payload : List UInt8) (maxSize : Nat) (positive : 0 < maxSize) :
    ((List.range (frameCount payload.length maxSize)).map (piece payload maxSize)).flatten =
      payload := by
  have division := Nat.div_add_mod payload.length maxSize
  rw [Nat.mul_comm] at division
  have full : (List.range (payload.length / maxSize)).map (piece payload maxSize) =
      (List.range (payload.length / maxSize)).map
        fun i => (payload.drop (i * maxSize)).take maxSize := by
    apply List.map_congr_left
    intro i member
    rw [piece, pieceSize_full _ _ _ (List.mem_range.mp member)]
  have last : piece payload maxSize (payload.length / maxSize) =
      payload.drop (payload.length / maxSize * maxSize) := by
    rw [piece, pieceSize_last _ _ positive]
    apply List.take_of_length_le
    rw [List.length_drop]
    omega
  rw [frameCount, List.range_succ, List.map_append, List.flatten_append, full, flatten_takes,
    List.map_singleton, last]
  simp

/-! ## The fragment loop -/

/-- The connection after `count` frames of that reliability were numbered. -/
def advanceReliable (reliability : UInt8) (count : Nat) (connection : Connection) : Connection :=
  if isReliable reliability then
    { connection with
      senderReliableFrameIndex := connection.senderReliableFrameIndex + UInt32.ofNat count }
  else connection

theorem advanceReliable_zero (reliability : UInt8) (connection : Connection) :
    advanceReliable reliability 0 connection = connection := by
  unfold advanceReliable
  split <;> simp

theorem advanceReliable_receiver (reliability : UInt8) (count : Nat) (connection : Connection) :
    SameReceiver connection (advanceReliable reliability count connection) := by
  unfold advanceReliable
  split <;> exact ⟨rfl, rfl, rfl, rfl, rfl, rfl⟩

theorem advanceReliable_index (reliability : UInt8) (count : Nat) (connection : Connection) :
    (advanceReliable reliability count connection).senderReliableFrameIndex =
      connection.senderReliableFrameIndex +
        UInt32.ofNat (if isReliable reliability then count else 0) := by
  unfold advanceReliable
  split <;> simp

theorem advanceReliable_channels (reliability : UInt8) (count : Nat) (connection : Connection) :
    (advanceReliable reliability count connection).senderOrderChannels =
      connection.senderOrderChannels := by
  unfold advanceReliable
  split <;> rfl

theorem countReliable_advance (reliability : UInt8) (count : Nat) (connection : Connection) :
    countReliable reliability (advanceReliable reliability count connection) =
      advanceReliable reliability (count + 1) connection := by
  unfold countReliable advanceReliable
  split
  · simp [UInt32.ofNat_add, UInt32.add_assoc]
  · rfl

theorem countReliable_sameIndices (reliability : UInt8) {left right : Connection}
    (same : SameIndices left right) :
    SameIndices (countReliable reliability left) (countReliable reliability right) := by
  unfold countReliable
  split
  · have next : right.senderReliableFrameIndex + 1 = left.senderReliableFrameIndex + 1 := by
      rw [same.senderReliableFrameIndex]
    exact ⟨⟨same.address, same.mtuSize, same.receiverSequenceNumber, same.ackQueue,
      same.nackQueue, same.frameHolder⟩, next, same.senderOrderChannels,
      same.senderSequenceChannels, same.compoundId⟩
  · exact same

/-- Fragment `i` as the loop builds it. -/
def fragmentAt (frame : MiscFrame) (maxSize : Nat) (connection : Connection) (i : Nat) :
    MiscFrame :=
  compoundEntry frame maxSize i (advanceReliable frame.reliability i connection)

theorem compoundEntry_congr (frame : MiscFrame) (maxSize i : Nat) {left right : Connection}
    (same : SameIndices left right) :
    compoundEntry frame maxSize i right = compoundEntry frame maxSize i left := by
  simp only [compoundEntry, same.compoundId, same.senderReliableFrameIndex]

section Ledger

variable {start : RaknetServer} {address : MiscAddress} {first : UInt32}
  {connection : Connection} {server : RaknetServer} {sets : List PacketFrameSet}

theorem countReliable_ledger (reliability : UInt8)
    (ledger : Ledger start address first connection server sets) :
    Ledger start address first (countReliable reliability connection) server sets := by
  unfold countReliable
  split
  · exact ledger.setConnection _ rfl rfl
  · exact ledger

theorem queued_countReliable (reliability : UInt8) :
    queued sets (countReliable reliability connection) = queued sets connection := by
  unfold countReliable
  split <;> rfl

/-- Induction on the turns: turn `i` numbers one frame more than the turns
before it and appends fragment `i`. -/
theorem fragmentLoop_ledger (frame : MiscFrame) (maxSize : Nat)
    (ledger : Ledger start address first connection server sets) : ∀ count : Nat,
    ∃ after,
      Ledger start address first
        ((List.range count).foldl (addFragment frame maxSize) (connection, server)).1
        ((List.range count).foldl (addFragment frame maxSize) (connection, server)).2 after ∧
      queued after
          ((List.range count).foldl (addFragment frame maxSize) (connection, server)).1 =
        queued sets connection ++ (List.range count).map (fragmentAt frame maxSize connection) ∧
      SameIndices (advanceReliable frame.reliability count connection)
        ((List.range count).foldl (addFragment frame maxSize) (connection, server)).1 := by
  intro count
  induction count with
  | zero =>
      refine ⟨sets, ledger, by simp, ?_⟩
      rw [advanceReliable_zero]
      exact SameIndices.refl connection
  | succ count ih =>
      obtain ⟨middle, middleLedger, built, same⟩ := ih
      rw [List.range_succ, List.foldl_append, List.foldl_cons, List.foldl_nil, List.map_append,
        List.map_singleton, ← List.append_assoc, ← built]
      generalize (List.range count).foldl (addFragment frame maxSize) (connection, server) =
        state at middleLedger same
      obtain ⟨after, afterLedger, appended⟩ := appendRaknetFrame_ledger
        (compoundEntry frame maxSize count state.1) true
        (countReliable_ledger frame.reliability middleLedger)
      rw [queued_countReliable, compoundEntry_congr frame maxSize count same] at appended
      rw [compoundEntry_congr frame maxSize count same] at afterLedger
      rw [addFragment, compoundEntry_congr frame maxSize count same]
      have counted := countReliable_sameIndices frame.reliability same
      rw [countReliable_advance] at counted
      exact ⟨after, afterLedger, appended, counted.trans (appendRaknetFrame_sameIndices _ _ _ _)⟩

end Ledger

/-! ## A whole message -/

/-- The frames `add_to_raknet_queue` builds for a frame whose order indices are
assigned. -/
def builtFrames (frame : MiscFrame) (connection : Connection) : List MiscFrame :=
  let size := (maxSize connection.mtuSize).toNat
  if frame.stream.length > size then
    (List.range (frameCount frame.stream.length size)).map (fragmentAt frame size connection)
  else [numberReliable frame connection]

/-- What adding a message does: it appends `built` to the frames put out and
moves the counters on by the frames built. -/
structure Adds (counted : Connection) (reliability : UInt8) (built : List MiscFrame)
    (after : Connection) : Prop extends SameReceiver counted after where
  senderReliableFrameIndex : after.senderReliableFrameIndex =
    counted.senderReliableFrameIndex +
      UInt32.ofNat (if isReliable reliability then built.length else 0)
  senderOrderChannels : after.senderOrderChannels = counted.senderOrderChannels

theorem indexFrame_receiver {frame indexed : MiscFrame} {connection counted : Connection}
    (success : indexFrame frame connection = some (indexed, counted)) :
    SameReceiver connection counted ∧ counted.senderSequenceNumber =
      connection.senderSequenceNumber ∧ counted.queue = connection.queue ∧
      counted.senderReliableFrameIndex = connection.senderReliableFrameIndex := by
  obtain ⟨-, cell, -, rfl, rfl⟩ | ⟨-, -, cell, -, rfl, rfl⟩ | ⟨-, rfl, rfl⟩ :=
    indexFrame_cases success
  · exact ⟨⟨rfl, rfl, rfl, rfl, rfl, rfl⟩, rfl, rfl, rfl⟩
  · exact ⟨⟨rfl, rfl, rfl, rfl, rfl, rfl⟩, rfl, rfl, rfl⟩
  · exact ⟨SameReceiver.refl _, rfl, rfl, rfl⟩

section Ledger

variable {start : RaknetServer} {address : MiscAddress} {first : UInt32}
  {connection : Connection} {server : RaknetServer} {sets : List PacketFrameSet}

theorem addFragments_adds (frame : MiscFrame)
    (long : frame.stream.length > (maxSize connection.mtuSize).toNat)
    (ledger : Ledger start address first connection server sets) :
    ∃ after,
      Ledger start address first
        (addFragments frame (maxSize connection.mtuSize).toNat connection server).1
        (addFragments frame (maxSize connection.mtuSize).toNat connection server).2 after ∧
      queued after (addFragments frame (maxSize connection.mtuSize).toNat connection server).1 =
        queued sets connection ++ builtFrames frame connection ∧
      Adds connection frame.reliability (builtFrames frame connection)
        (addFragments frame (maxSize connection.mtuSize).toNat connection server).1 := by
  obtain ⟨after, afterLedger, built, same⟩ := fragmentLoop_ledger frame
    (maxSize connection.mtuSize).toNat ledger
    (frameCount frame.stream.length (maxSize connection.mtuSize).toNat)
  have exact : builtFrames frame connection =
      (List.range (frameCount frame.stream.length (maxSize connection.mtuSize).toNat)).map
        (fragmentAt frame (maxSize connection.mtuSize).toNat connection) := by
    simp only [builtFrames, if_pos long]
  rw [exact]
  simp only [addFragments]
  refine ⟨after, afterLedger.setConnection _ rfl rfl, built, ?_⟩
  have receiver := (advanceReliable_receiver frame.reliability _ connection).trans
    same.toSameReceiver
  refine ⟨⟨receiver.1, receiver.2, receiver.3, receiver.4, receiver.5, receiver.6⟩, ?_, ?_⟩
  · rw [List.length_map, List.length_range]
    exact same.senderReliableFrameIndex.trans (advanceReliable_index _ _ _)
  · exact same.senderOrderChannels.trans (advanceReliable_channels _ _ _)

theorem addWhole_adds (frame : MiscFrame)
    (short : ¬ frame.stream.length > (maxSize connection.mtuSize).toNat)
    (ledger : Ledger start address first connection server sets) :
    ∃ after,
      Ledger start address first (addWhole frame connection server).1
        (addWhole frame connection server).2 after ∧
      queued after (addWhole frame connection server).1 =
        queued sets connection ++ builtFrames frame connection ∧
      Adds connection frame.reliability (builtFrames frame connection)
        (addWhole frame connection server).1 := by
  have exact : builtFrames frame connection = [numberReliable frame connection] := by
    simp only [builtFrames, if_neg short]
  rw [exact]
  simp only [addWhole]
  obtain ⟨after, afterLedger, appended⟩ := appendRaknetFrame_ledger
    (numberReliable frame connection) false (countReliable_ledger frame.reliability ledger)
  rw [queued_countReliable] at appended
  have counted := countReliable_advance frame.reliability 0 connection
  rw [advanceReliable_zero] at counted
  have same := appendRaknetFrame_sameIndices (numberReliable frame connection) false
    (countReliable frame.reliability connection) server
  rw [counted] at same afterLedger appended ⊢
  have receiver := (advanceReliable_receiver frame.reliability _ connection).trans
    same.toSameReceiver
  exact ⟨after, afterLedger, appended, receiver,
    same.senderReliableFrameIndex.trans (advanceReliable_index _ _ _),
    same.senderOrderChannels.trans (advanceReliable_channels _ _ _)⟩

/-- All that a defined `add_to_raknet_queue` can do. -/
theorem addToRaknetQueue_adds {frame : MiscFrame} {next : Connection} {nextServer : RaknetServer}
    (success : addToRaknetQueue frame connection server = some (next, nextServer))
    (ledger : Ledger start address first connection server sets) :
    ∃ indexed counted after, indexFrame frame connection = some (indexed, counted) ∧
      Ledger start address first next nextServer after ∧
      queued after next = queued sets connection ++ builtFrames indexed counted ∧
      Adds counted indexed.reliability (builtFrames indexed counted) next := by
  simp only [addToRaknetQueue] at success
  obtain ⟨⟨indexed, counted⟩, indexing, success⟩ := Option.bind_eq_some_iff.mp success
  obtain ⟨receiver, sameNumber, sameQueue, _⟩ := indexFrame_receiver indexing
  have countedLedger := ledger.setConnection _ receiver.address sameNumber
  have countedQueued : queued sets counted = queued sets connection := by
    rw [queued, queued, sameQueue]
  rw [← countedQueued]
  dsimp only at success
  split at success
  · rename_i long
    split at success
    · simp at success
    · obtain ⟨after, result⟩ := addFragments_adds indexed long countedLedger
      rw [Option.some.inj success] at result
      exact ⟨indexed, counted, after, indexing, result⟩
  · rename_i short
    obtain ⟨after, result⟩ := addWhole_adds indexed short countedLedger
    rw [Option.some.inj success] at result
    exact ⟨indexed, counted, after, indexing, result⟩

theorem maxSize_toNat {mtuSize : UInt16} (above : 60 ≤ mtuSize.toNat) :
    (maxSize mtuSize).toNat = mtuSize.toNat - 60 := by
  have inside : (60 : UInt16) ≤ mtuSize := UInt16.le_iff_toNat_le.mpr above
  rw [maxSize, UInt16.toNat_sub_of_le _ _ inside]
  rfl

theorem maxSize_positive {mtuSize : UInt16} (mtuFits : 61 ≤ mtuSize.toNat) :
    0 < (maxSize mtuSize).toNat := by
  rw [maxSize_toNat (Nat.le_of_succ_le mtuFits)]
  omega

/-- It is defined with an order channel inside the arrays and room for at least
one payload byte a fragment. -/
theorem addToRaknetQueue_defined (frame : MiscFrame) (server : RaknetServer)
    (mtuFits : 61 ≤ connection.mtuSize.toNat) (inside : frame.orderChannel.toNat < 32) :
    ∃ result, addToRaknetQueue frame connection server = some result := by
  have cell : channel frame.orderChannel = some ⟨frame.orderChannel.toNat, inside⟩ := by
    rw [channel, dif_pos inside]
  have indexing : ∃ indexed counted, indexFrame frame connection = some (indexed, counted) := by
    simp only [indexFrame, cell, Option.map_some]
    split
    · exact ⟨_, _, rfl⟩
    · split <;> exact ⟨_, _, rfl⟩
  obtain ⟨indexed, counted, indexing⟩ := indexing
  have sameMtu := (indexFrame_receiver indexing).1.mtuSize
  have positive := maxSize_positive (sameMtu ▸ mtuFits)
  simp only [addToRaknetQueue, indexing, Option.bind_eq_bind, Option.bind_some,
    if_neg (Nat.pos_iff_ne_zero.mp positive)]
  split <;> exact ⟨_, rfl⟩

end Ledger

end PodrumRakNet.Fragments
