import PodrumFormal.Lib.KeyedArray
import PodrumFormal.RakNet.Acknowledge
import PodrumFormal.RakNet.FrameSet
import PodrumFormal.RakNet.Packet

/-!
# Connections

The state of a connection, the arrays it keeps, and the server the datagrams
and the internal messages go to.  What is sent is recorded as the packet the
source hands to its `put_` function, `Datagram.bytes` being what it writes.
-/

set_option autoImplicit false

namespace PodrumRakNet.Connections

open PodrumRakNet.Frame PodrumRakNet.FrameSet PodrumRakNet.Acknowledge PodrumRakNet.Packet

/-! ## The ACK and NACK queues -/

/-- An array of distinct sequence numbers counted in 16 bits. -/
structure SequenceQueue where
  array : KeyedArray (id : UInt32 → UInt32)
  fits : array.size ≤ 65535

namespace SequenceQueue

def empty : SequenceQueue := ⟨KeyedArray.empty, Nat.zero_le _⟩

def numbers (queue : SequenceQueue) : List UInt32 := queue.array.slots

/-- `none` where the size wraps to zero and the number is written before the
array. -/
def append (sequenceNumber : UInt32) (queue : SequenceQueue) : Option SequenceQueue :=
  if queue.array.isIn sequenceNumber then some queue
  else if room : queue.array.size < 65535 then
    some ⟨queue.array.append sequenceNumber, by
      unfold KeyedArray.append
      split
      · exact queue.fits
      · exact room⟩
  else none

def deduct (sequenceNumber : UInt32) (queue : SequenceQueue) : SequenceQueue :=
  ⟨queue.array.deduct sequenceNumber, by
    unfold KeyedArray.deduct
    split
    · exact Nat.le_trans (Nat.sub_le _ _) queue.fits
    · exact queue.fits⟩

theorem mem_deduct (number sequenceNumber : UInt32) (queue : SequenceQueue) :
    number ∈ (queue.deduct sequenceNumber).numbers ↔
      number ∈ queue.numbers ∧ number ≠ sequenceNumber :=
  KeyedArray.mem_deduct number sequenceNumber queue.array

/-- All that an append that stays inside the array can do. -/
theorem append_numbers {sequenceNumber : UInt32} {queue next : SequenceQueue}
    (success : queue.append sequenceNumber = some next) (number : UInt32) :
    number ∈ next.numbers ↔ number ∈ queue.numbers ∨ number = sequenceNumber := by
  simp only [append] at success
  by_cases present : sequenceNumber ∈ queue.numbers
  · have isIn : queue.array.isIn sequenceNumber = true :=
      (KeyedArray.isIn_iff _ _).mpr ⟨_, present, rfl⟩
    rw [if_pos isIn] at success
    obtain rfl := Option.some.inj success
    constructor
    · exact Or.inl
    · intro either
      rcases either with held | rfl
      · exact held
      · exact present
  · have absent : sequenceNumber ∉ queue.array.slots.map id := by
      rw [List.map_id]
      exact present
    rw [if_neg (by rwa [KeyedArray.isIn_iff_mem])] at success
    split at success
    · obtain rfl := Option.some.inj success
      have slots : (queue.array.append sequenceNumber).slots = _ :=
        KeyedArray.append_slots_absent absent
      simp only [numbers, slots, List.mem_append, List.mem_singleton]
    · exact absurd success (by simp)

end SequenceQueue

/-! ## The connection -/

def frameKey (frame : MiscFrame) : UInt16 × UInt32 := (frame.compoundId, frame.index)

abbrev RecoveryQueue := KeyedArray PacketFrameSet.sequenceNumber

abbrev FrameHolder := KeyedArray frameKey

structure Connection where
  address : MiscAddress
  mtuSize : UInt16
  senderSequenceNumber : UInt32 := 0
  receiverSequenceNumber : UInt32 := 0
  senderReliableFrameIndex : UInt32 := 0
  senderOrderChannels : Vector UInt32 32 := Vector.replicate 32 0
  senderSequenceChannels : Vector UInt32 32 := Vector.replicate 32 0
  queue : PacketFrameSet := {}
  ackQueue : SequenceQueue := SequenceQueue.empty
  nackQueue : SequenceQueue := SequenceQueue.empty
  frameHolder : FrameHolder := KeyedArray.empty
  recoveryQueue : RecoveryQueue := KeyedArray.empty
  compoundId : UInt32 := 0

/-! ## The server -/

inductive Datagram where
  | frameSet (packet : PacketFrameSet)
  | acknowledge (sequenceNumbers : List UInt32) (opts : Bool)

def Datagram.bytes : Datagram → List UInt8
  | .frameSet packet => putPacketFrameSet packet
  | .acknowledge sequenceNumbers opts => putPacketAcknowledge sequenceNumbers opts

inductive InternalMessage where
  | frame (frame : MiscFrame) (address : MiscAddress)
  | newIncomingConnection (address : MiscAddress)
  | disconnectNotification (address : MiscAddress)
  deriving DecidableEq, Repr

/-- Two connections never share the address text and the port. -/
def addressKey (connection : Connection) : UInt16 × List UInt8 :=
  (connection.address.port, connection.address.address)

structure RaknetServer where
  connections : KeyedArray addressKey := KeyedArray.empty
  threadedToMain : List InternalMessage := []
  mainToThreaded : List InternalMessage := []
  sent : List (MiscAddress × Datagram) := []
  timestampReads : Nat := 0

def hasRaknetConnection (address : MiscAddress) (server : RaknetServer) : Bool :=
  server.connections.isIn (address.port, address.address)

/-- The connection that `add_raknet_connection` stores. -/
def newConnection (address : MiscAddress) (mtuSize : UInt16) : Connection := { address, mtuSize }

def addRaknetConnection (address : MiscAddress) (mtuSize : UInt16) (server : RaknetServer) :
    RaknetServer :=
  { server with connections := server.connections.append (newConnection address mtuSize) }

def sendData (address : MiscAddress) (datagram : Datagram) (server : RaknetServer) :
    RaknetServer :=
  { server with sent := server.sent ++ [(address, datagram)] }

/-! ## Sending the pending acknowledgements -/

def sendRaknetAckQueue (connection : Connection) (server : RaknetServer) :
    Connection × RaknetServer :=
  if connection.ackQueue.array.size > 0 then
    ({ connection with ackQueue := SequenceQueue.empty },
      sendData connection.address (.acknowledge connection.ackQueue.numbers false) server)
  else (connection, server)

def sendRaknetNackQueue (connection : Connection) (server : RaknetServer) :
    Connection × RaknetServer :=
  if connection.nackQueue.array.size > 0 then
    ({ connection with nackQueue := SequenceQueue.empty },
      sendData connection.address (.acknowledge connection.nackQueue.numbers true) server)
  else (connection, server)

end PodrumRakNet.Connections
