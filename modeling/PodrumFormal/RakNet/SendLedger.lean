import PodrumFormal.RakNet.SendQueue

/-!
# What the send queue puts out

A ledger lists the frame sets a connection has sent since some earlier state.
Every operation of the send queue extends it, and appends to the frames that
are sent or pending exactly the frames it builds.
-/

set_option autoImplicit false

namespace PodrumRakNet.SendLedger

open PodrumRakNet.Frame PodrumRakNet.FrameSet PodrumRakNet.Packet PodrumRakNet.Connections
open PodrumRakNet.SendQueue

/-! ## What the operations leave alone -/

/-- The fields only the receiving side writes. -/
structure SameReceiver (before after : Connection) : Prop where
  address : after.address = before.address
  mtuSize : after.mtuSize = before.mtuSize
  receiverSequenceNumber : after.receiverSequenceNumber = before.receiverSequenceNumber
  ackQueue : after.ackQueue = before.ackQueue
  nackQueue : after.nackQueue = before.nackQueue
  frameHolder : after.frameHolder = before.frameHolder

theorem SameReceiver.refl (connection : Connection) : SameReceiver connection connection :=
  ⟨rfl, rfl, rfl, rfl, rfl, rfl⟩

theorem SameReceiver.trans {first second third : Connection} (left : SameReceiver first second)
    (right : SameReceiver second third) : SameReceiver first third where
  address := right.address.trans left.address
  mtuSize := right.mtuSize.trans left.mtuSize
  receiverSequenceNumber := right.receiverSequenceNumber.trans left.receiverSequenceNumber
  ackQueue := right.ackQueue.trans left.ackQueue
  nackQueue := right.nackQueue.trans left.nackQueue
  frameHolder := right.frameHolder.trans left.frameHolder

/-- Also the counters that number frames and messages. -/
structure SameIndices (before after : Connection) : Prop extends SameReceiver before after where
  senderReliableFrameIndex : after.senderReliableFrameIndex = before.senderReliableFrameIndex
  senderOrderChannels : after.senderOrderChannels = before.senderOrderChannels
  senderSequenceChannels : after.senderSequenceChannels = before.senderSequenceChannels
  compoundId : after.compoundId = before.compoundId

theorem SameIndices.refl (connection : Connection) : SameIndices connection connection :=
  ⟨SameReceiver.refl connection, rfl, rfl, rfl, rfl⟩

theorem SameIndices.trans {first second third : Connection} (left : SameIndices first second)
    (right : SameIndices second third) : SameIndices first third where
  toSameReceiver := left.toSameReceiver.trans right.toSameReceiver
  senderReliableFrameIndex := right.senderReliableFrameIndex.trans left.senderReliableFrameIndex
  senderOrderChannels := right.senderOrderChannels.trans left.senderOrderChannels
  senderSequenceChannels := right.senderSequenceChannels.trans left.senderSequenceChannels
  compoundId := right.compoundId.trans left.compoundId

theorem sendRaknetQueue_sameIndices (connection : Connection) (server : RaknetServer) :
    SameIndices connection (sendRaknetQueue connection server).1 := by
  unfold sendRaknetQueue
  split
  · exact ⟨⟨rfl, rfl, rfl, rfl, rfl, rfl⟩, rfl, rfl, rfl, rfl⟩
  · exact SameIndices.refl connection

theorem pushFrame_sameIndices (frame : MiscFrame) (connection : Connection) :
    SameIndices connection (pushFrame frame connection) :=
  ⟨⟨rfl, rfl, rfl, rfl, rfl, rfl⟩, rfl, rfl, rfl, rfl⟩

theorem flushIfFull_sameIndices (frame : MiscFrame) (connection : Connection)
    (server : RaknetServer) : SameIndices connection (flushIfFull frame connection server).1 := by
  unfold flushIfFull
  split
  · exact sendRaknetQueue_sameIndices connection server
  · exact SameIndices.refl connection

theorem appendRaknetFrame_sameIndices (frame : MiscFrame) (opts : Bool) (connection : Connection)
    (server : RaknetServer) :
    SameIndices connection (appendRaknetFrame frame opts connection server).1 := by
  have pushed := (flushIfFull_sameIndices frame connection server).trans
    (pushFrame_sameIndices frame _)
  simp only [appendRaknetFrame]
  split
  · exact pushed.trans (sendRaknetQueue_sameIndices _ _)
  · exact pushed

/-! ## The ledger -/

/-- `sets` is what went out between `start` and `server`, numbered on from
`first`. -/
structure Ledger (start : RaknetServer) (address : MiscAddress) (first : UInt32)
    (connection : Connection) (server : RaknetServer) (sets : List PacketFrameSet) : Prop where
  owner : connection.address = address
  sent : server.sent = start.sent ++ sets.map fun set => (address, Datagram.frameSet set)
  numbered : sets.map PacketFrameSet.sequenceNumber =
    (List.range sets.length).map fun i => first + UInt32.ofNat i
  next : connection.senderSequenceNumber = first + UInt32.ofNat sets.length

/-- The frames sent and pending, in order. -/
def queued (sets : List PacketFrameSet) (connection : Connection) : List MiscFrame :=
  sets.flatMap PacketFrameSet.frames ++ connection.queue.frames

section Ledger

variable {start : RaknetServer} {address : MiscAddress} {first : UInt32}
  {connection : Connection} {server : RaknetServer} {sets : List PacketFrameSet}

theorem Ledger.open (connection : Connection) (server : RaknetServer) :
    Ledger server connection.address connection.senderSequenceNumber connection server [] where
  owner := rfl
  sent := by simp
  numbered := rfl
  next := by simp

theorem Ledger.setConnection (ledger : Ledger start address first connection server sets)
    (other : Connection) (sameAddress : other.address = connection.address)
    (sameNumber : other.senderSequenceNumber = connection.senderSequenceNumber) :
    Ledger start address first other server sets :=
  ⟨sameAddress.trans ledger.owner, ledger.sent, ledger.numbered, sameNumber.trans ledger.next⟩

theorem sendRaknetQueue_ledger (ledger : Ledger start address first connection server sets) :
    ∃ after, Ledger start address first (sendRaknetQueue connection server).1
        (sendRaknetQueue connection server).2 after ∧
      queued after (sendRaknetQueue connection server).1 = queued sets connection := by
  unfold sendRaknetQueue
  split
  · refine ⟨sets ++ [{ connection.queue with
        sequenceNumber := connection.senderSequenceNumber }], ⟨ledger.owner, ?_, ?_, ?_⟩, ?_⟩
    · simp [sendData, ledger.sent, ledger.owner]
    · simp [List.range_succ, ledger.numbered, ledger.next]
    · simp [ledger.next, UInt32.ofNat_add, UInt32.add_assoc]
    · simp [queued]
  · exact ⟨sets, ledger, rfl⟩

theorem flushIfFull_ledger (frame : MiscFrame)
    (ledger : Ledger start address first connection server sets) :
    ∃ after, Ledger start address first (flushIfFull frame connection server).1
        (flushIfFull frame connection server).2 after ∧
      queued after (flushIfFull frame connection server).1 = queued sets connection := by
  unfold flushIfFull
  split
  · exact sendRaknetQueue_ledger ledger
  · exact ⟨sets, ledger, rfl⟩

theorem queued_pushFrame (frame : MiscFrame) (sets : List PacketFrameSet)
    (connection : Connection) :
    queued sets (pushFrame frame connection) = queued sets connection ++ [frame] := by
  simp [queued, pushFrame]

theorem appendRaknetFrame_ledger (frame : MiscFrame) (opts : Bool)
    (ledger : Ledger start address first connection server sets) :
    ∃ after, Ledger start address first (appendRaknetFrame frame opts connection server).1
        (appendRaknetFrame frame opts connection server).2 after ∧
      queued after (appendRaknetFrame frame opts connection server).1 =
        queued sets connection ++ [frame] := by
  obtain ⟨middle, flushed, same⟩ := flushIfFull_ledger frame ledger
  have pushed := flushed.setConnection (pushFrame frame _) rfl rfl
  simp only [appendRaknetFrame]
  rw [← same, ← queued_pushFrame]
  split
  · exact sendRaknetQueue_ledger pushed
  · exact ⟨middle, pushed, rfl⟩

end Ledger

end PodrumRakNet.SendLedger
