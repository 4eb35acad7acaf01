import PodrumFormal.Lib.EventRun
import PodrumFormal.RakNet.Fragments
import PodrumFormal.RakNet.Handler

/-!
# The receive window

What `handle_frame_set` does to the NACK queue and to the number expected next,
over runs of received frame sets and flushes.  Handling the frames of a frame
set leaves both alone.
-/

set_option autoImplicit false

namespace PodrumRakNet.ReceiveWindow

open ByteReader EventRun PodrumStream.BinaryStream PodrumRakNet.Frame PodrumRakNet.FrameSet
open PodrumRakNet.Packet PodrumRakNet.Connections PodrumRakNet.SendQueue PodrumRakNet.SendLedger
open PodrumRakNet.Fragments PodrumRakNet.Handler

/-! ## Handling frames leaves the window alone -/

structure SameWindow (before after : Connection) : Prop where
  receiverSequenceNumber : after.receiverSequenceNumber = before.receiverSequenceNumber
  nackQueue : after.nackQueue = before.nackQueue

theorem SameWindow.refl (connection : Connection) : SameWindow connection connection := ⟨rfl, rfl⟩

theorem SameWindow.trans {first second third : Connection} (left : SameWindow first second)
    (right : SameWindow second third) : SameWindow first third :=
  ⟨right.receiverSequenceNumber.trans left.receiverSequenceNumber,
    right.nackQueue.trans left.nackQueue⟩

/-- Also the ACK queue and what the connection was opened with. -/
structure SameQueues (before after : Connection) : Prop extends SameWindow before after where
  address : after.address = before.address
  mtuSize : after.mtuSize = before.mtuSize
  ackQueue : after.ackQueue = before.ackQueue

theorem SameQueues.refl (connection : Connection) : SameQueues connection connection :=
  ⟨SameWindow.refl connection, rfl, rfl, rfl⟩

theorem SameQueues.trans {first second third : Connection} (left : SameQueues first second)
    (right : SameQueues second third) : SameQueues first third :=
  ⟨left.toSameWindow.trans right.toSameWindow, right.address.trans left.address,
    right.mtuSize.trans left.mtuSize, right.ackQueue.trans left.ackQueue⟩

theorem sameQueues_of_receiver {before after : Connection} (same : SameReceiver before after) :
    SameQueues before after :=
  ⟨⟨same.receiverSequenceNumber, same.nackQueue⟩, same.address, same.mtuSize, same.ackQueue⟩

theorem addToRaknetQueue_receiver {frame : MiscFrame} {connection next : Connection}
    {server nextServer : RaknetServer}
    (success : addToRaknetQueue frame connection server = some (next, nextServer)) :
    SameReceiver connection next := by
  obtain ⟨indexed, counted, _, indexing, _, _, adds⟩ :=
    addToRaknetQueue_adds success (Ledger.open connection server)
  exact (indexFrame_receiver indexing).1.trans adds.toSameReceiver

section Frames

variable {environment : Environment} {connection next : Connection}
  {server nextServer : RaknetServer}

theorem handleWholeFrame_receiver {frame : MiscFrame}
    (success : handleWholeFrame environment frame connection server = some (next, nextServer)) :
    SameReceiver connection next := by
  obtain ⟨stream, added⟩ | ⟨rfl, _⟩ | ⟨rfl, _⟩ | ⟨packetId, _, _, rfl, _⟩ :=
    handleWholeFrame_cases success
  · exact addToRaknetQueue_receiver added
  · exact SameReceiver.refl _
  · exact SameReceiver.refl _
  · exact SameReceiver.refl _

theorem handleFrame_queues {frame : MiscFrame}
    (success : handleFrame environment frame connection server = some (next, nextServer)) :
    SameQueues connection next := by
  simp only [handleFrame] at success
  split at success
  · split at success
    · have same := sameQueues_of_receiver (handleWholeFrame_receiver success)
      exact ⟨⟨same.receiverSequenceNumber, same.nackQueue⟩, same.address, same.mtuSize,
        same.ackQueue⟩
    · cases success
      exact ⟨⟨rfl, rfl⟩, rfl, rfl, rfl⟩
  · exact sameQueues_of_receiver (handleWholeFrame_receiver success)

/-- What one frame relates, a row of frames relates. -/
theorem handleFrames_relates {address : MiscAddress}
    {relation : Connection × RaknetServer → Connection × RaknetServer → Prop}
    (refl : ∀ state, relation state state)
    (trans : ∀ {first second third}, relation first second → relation second third →
      relation first third)
    (each : ∀ {frame connection server next}, handleFrame environment frame connection server =
      some next → relation (connection, server) next) : ∀ (frames : List MiscFrame)
    (connection : Connection) (server : RaknetServer) (next : Connection × RaknetServer),
    handleFrames environment address frames connection server = some next →
    relation (connection, server) next := by
  intro frames
  induction frames with
  | nil =>
      intro connection server next success
      cases success
      exact refl _
  | cons frame rest ih =>
      intro connection server next success
      simp only [handleFrames] at success
      split at success
      · obtain ⟨⟨middle, middleServer⟩, first, success⟩ := Option.bind_eq_some_iff.mp success
        exact trans (each first) (ih middle middleServer next success)
      · cases success
        exact refl _

theorem handleFrames_queues {address : MiscAddress} (frames : List MiscFrame)
    (connection : Connection) (server : RaknetServer)
    (success : handleFrames environment address frames connection server =
      some (next, nextServer)) : SameQueues connection next :=
  @handleFrames_relates environment address (fun before after => SameQueues before.1 after.1)
    (fun _ => SameQueues.refl _) SameQueues.trans handleFrame_queues frames connection server
    (next, nextServer) success

end Frames

/-! ## One received number -/

theorem mem_hole (first past number : UInt32) :
    number ∈ hole first past ↔ first.toNat ≤ number.toNat ∧ number.toNat < past.toNat := by
  simp only [hole, List.mem_map, List.mem_range'_1]
  constructor
  · rintro ⟨value, inside, rfl⟩
    have small := past.toNat_lt
    rw [UInt32.toNat_ofNat_of_lt' (by simp only [UInt32.size]; omega)]
    omega
  · rintro inside
    exact ⟨number.toNat, by omega, UInt32.ofNat_toNat⟩

theorem foldlM_append_numbers : ∀ (numbers : List UInt32) (queue next : SequenceQueue),
    numbers.foldlM (fun queue number => queue.append number) queue = some next →
    ∀ number, number ∈ next.numbers ↔ number ∈ queue.numbers ∨ number ∈ numbers := by
  intro numbers
  induction numbers with
  | nil =>
      intro queue next success number
      obtain rfl := Option.some.inj success
      simp
  | cons first rest ih =>
      intro queue next success number
      rw [List.foldlM_cons] at success
      obtain ⟨middle, appended, success⟩ := Option.bind_eq_some_iff.mp success
      rw [ih middle next success, SequenceQueue.append_numbers appended, List.mem_cons, or_assoc]

/-- As long as the number expected next has not wrapped. -/
theorem appendHole_numbers {receiver sequenceNumber : UInt32} {queue next : SequenceQueue}
    (unwrapped : receiver.toNat ≤ 2 ^ 24)
    (success : appendHole receiver sequenceNumber queue = some next) (number : UInt32) :
    number ∈ next.numbers ↔ number ∈ queue.numbers ∨
      (receiver.toNat < number.toNat ∧ number.toNat < sequenceNumber.toNat) := by
  have beyond : (receiver + 1).toNat = receiver.toNat + 1 := by
    rw [UInt32.toNat_add, UInt32.toNat_one, Nat.mod_eq_of_lt (by omega)]
  simp only [appendHole] at success
  split at success
  · have members := foldlM_append_numbers _ _ _ success number
    rw [mem_hole, beyond] at members
    exact members
  · rename_i noHole
    obtain rfl := Option.some.inj success
    have same : sequenceNumber = receiver := by
      have zero : sequenceNumber - receiver = 0 := by simpa using noHole
      exact (UInt32.sub_eq_iff_eq_add.mp zero).trans (UInt32.zero_add _)
    constructor
    · exact Or.inl
    · intro either
      rcases either with kept | inside
      · exact kept
      · rw [same] at inside
        omega

/-- All that the window part of a frame set can do. -/
theorem receiveSequenceNumber_window {sequenceNumber : UInt32} {connection next : Connection}
    (unwrapped : connection.receiverSequenceNumber.toNat ≤ 2 ^ 24)
    (success : receiveSequenceNumber sequenceNumber connection = some next) :
    next.receiverSequenceNumber = sequenceNumber + 1 ∧
      ∀ number, number ∈ next.nackQueue.numbers ↔
        (number ∈ connection.nackQueue.numbers ∧ number ≠ sequenceNumber) ∨
        (connection.receiverSequenceNumber.toNat < number.toNat ∧
          number.toNat < sequenceNumber.toNat) := by
  simp only [receiveSequenceNumber] at success
  obtain ⟨ackQueue, _, success⟩ := Option.bind_eq_some_iff.mp success
  obtain ⟨nackQueue, appended, success⟩ := Option.bind_eq_some_iff.mp success
  obtain rfl := Option.some.inj success
  refine ⟨rfl, fun number => ?_⟩
  rw [appendHole_numbers unwrapped appended, SequenceQueue.mem_deduct]

/-! ## Runs -/

inductive ReceiverEvent where
  | frameSet (stream : List UInt8)
  | sendAckQueue
  | sendNackQueue
  | sendQueue
  deriving DecidableEq

def receiverStep (environment : Environment) (state : Connection × RaknetServer) :
    ReceiverEvent → Option (Connection × RaknetServer)
  | .frameSet stream => handleFrameSet environment stream state.1 state.2
  | .sendAckQueue => some (sendRaknetAckQueue state.1 state.2)
  | .sendNackQueue => some (sendRaknetNackQueue state.1 state.2)
  | .sendQueue => some (sendRaknetQueue state.1 state.2)

def receivedNumber : ReceiverEvent → Option UInt32
  | .frameSet stream => (getPacketFrameSet stream).map fun result => result.1.sequenceNumber
  | _ => none

/-- The sequence numbers received, in the order of arrival. -/
def receivedNumbers (events : List ReceiverEvent) : List UInt32 := events.filterMap receivedNumber

/-- One more than the number received last. -/
def expectedNumber (received : List UInt32) : Nat :=
  match received.getLast? with
  | none => 0
  | some last => last.toNat + 1

theorem receivedNumbers_snoc (history : List ReceiverEvent) (event : ReceiverEvent) :
    receivedNumbers (history ++ [event]) =
      receivedNumbers history ++ (receivedNumber event).toList := by
  simp only [receivedNumbers, List.filterMap_append, List.filterMap_cons, List.filterMap_nil]
  cases receivedNumber event <;> rfl

theorem expectedNumber_snoc (received : List UInt32) (last : UInt32) :
    expectedNumber (received ++ [last]) = last.toNat + 1 := by
  simp [expectedNumber]

section Step

variable {environment : Environment} {state next : Connection × RaknetServer}

theorem receivedNumber_lt {stream : List UInt8} {frameSet : PacketFrameSet} {rest : List UInt8}
    (decoded : getPacketFrameSet stream = some (frameSet, rest)) :
    frameSet.sequenceNumber.toNat < 2 ^ 24 := by
  rw [getPacketFrameSet, bind_apply] at decoded
  obtain ⟨⟨_, afterId⟩, _, decoded⟩ := Option.bind_eq_some_iff.mp decoded
  rw [bind_apply] at decoded
  obtain ⟨⟨number, afterNumber⟩, triad, decoded⟩ := Option.bind_eq_some_iff.mp decoded
  rw [bind_apply] at decoded
  obtain ⟨⟨frames, afterFrames⟩, _, decoded⟩ := Option.bind_eq_some_iff.mp decoded
  cases decoded
  exact getUnsignedTriadLe_lt triad

/-- A received frame set moves the window by its number. -/
theorem handleFrameSet_window {stream : List UInt8}
    (unwrapped : state.1.receiverSequenceNumber.toNat ≤ 2 ^ 24)
    (success : receiverStep environment state (.frameSet stream) = some next) :
    ∃ sequenceNumber, receivedNumber (.frameSet stream) = some sequenceNumber ∧
      sequenceNumber.toNat < 2 ^ 24 ∧
      next.1.receiverSequenceNumber = sequenceNumber + 1 ∧
      ∀ number, number ∈ next.1.nackQueue.numbers ↔
        (number ∈ state.1.nackQueue.numbers ∧ number ≠ sequenceNumber) ∨
        (state.1.receiverSequenceNumber.toNat < number.toNat ∧
          number.toNat < sequenceNumber.toNat) := by
  obtain ⟨⟨frameSet, rest⟩, decoded, success⟩ := Option.bind_eq_some_iff.mp success
  obtain ⟨received, windowed, success⟩ := Option.bind_eq_some_iff.mp success
  have same := handleFrames_queues _ _ _ success
  obtain ⟨expected, members⟩ := receiveSequenceNumber_window unwrapped windowed
  refine ⟨frameSet.sequenceNumber, ?_, receivedNumber_lt decoded, ?_, ?_⟩
  · simp [receivedNumber, decoded]
  · exact same.receiverSequenceNumber.trans expected
  · rw [same.nackQueue]
    exact members

theorem sendRaknetAckQueue_window (connection : Connection) (server : RaknetServer) :
    SameWindow connection (sendRaknetAckQueue connection server).1 := by
  unfold sendRaknetAckQueue
  split <;> exact ⟨rfl, rfl⟩

theorem sendRaknetNackQueue_window (connection : Connection) (server : RaknetServer) :
    (sendRaknetNackQueue connection server).1.receiverSequenceNumber =
        connection.receiverSequenceNumber ∧
      (sendRaknetNackQueue connection server).1.nackQueue.numbers = [] := by
  unfold sendRaknetNackQueue
  split
  · exact ⟨rfl, rfl⟩
  · rename_i empty
    refine ⟨rfl, List.eq_nil_of_length_eq_zero ?_⟩
    rw [SequenceQueue.numbers, ← connection.nackQueue.array.exact]
    omega

end Step

/-- In every reached state the connection expects the number after the one
received last. -/
theorem run_expected {environment : Environment} {address : MiscAddress} {mtuSize : UInt16}
    {server : RaknetServer} {events : List ReceiverEvent} {final : Connection × RaknetServer}
    (returned : run (receiverStep environment) events (newConnection address mtuSize, server) =
      some final) :
    final.1.receiverSequenceNumber.toNat = expectedNumber (receivedNumbers events) ∧
      final.1.receiverSequenceNumber.toNat ≤ 2 ^ 24 := by
  refine run_preserves (fun history state =>
    state.1.receiverSequenceNumber.toNat = expectedNumber (receivedNumbers history) ∧
      state.1.receiverSequenceNumber.toNat ≤ 2 ^ 24) ?_ events [] _ final
    ⟨rfl, Nat.zero_le _⟩ returned
  rintro history state event next ⟨expected, unwrapped⟩ stepped
  cases event with
  | frameSet stream =>
      obtain ⟨number, read, small, moved, _⟩ := handleFrameSet_window unwrapped stepped
      have after : (number + 1).toNat = number.toNat + 1 := by
        rw [UInt32.toNat_add, UInt32.toNat_one, Nat.mod_eq_of_lt (by omega)]
      rw [receivedNumbers_snoc, read, Option.toList_some, expectedNumber_snoc, moved, after]
      omega
  | sendAckQueue =>
      cases stepped
      rw [receivedNumbers_snoc, (sendRaknetAckQueue_window _ _).receiverSequenceNumber]
      simpa [receivedNumber] using ⟨expected, unwrapped⟩
  | sendNackQueue =>
      cases stepped
      rw [receivedNumbers_snoc, (sendRaknetNackQueue_window _ _).1]
      simpa [receivedNumber] using ⟨expected, unwrapped⟩
  | sendQueue =>
      cases stepped
      rw [receivedNumbers_snoc, (sendRaknetQueue_sameIndices _ _).receiverSequenceNumber]
      simpa [receivedNumber] using ⟨expected, unwrapped⟩

end PodrumRakNet.ReceiveWindow
