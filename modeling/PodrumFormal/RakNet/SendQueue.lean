import PodrumFormal.RakNet.Connection

/-!
# The send queue

`send_raknet_queue` sends the pending frames as one frame set,
`append_raknet_frame` flushes first when the frame does not fit, and
`add_to_raknet_queue` numbers a frame and splits a payload that is too long.
-/

set_option autoImplicit false

namespace PodrumRakNet.SendQueue

open PodrumRakNet.Frame PodrumRakNet.FrameSet PodrumRakNet.Packet PodrumRakNet.Connections

def sendRaknetQueue (connection : Connection) (server : RaknetServer) :
    Connection × RaknetServer :=
  if connection.queue.frames.length > 0 then
    let queue := { connection.queue with sequenceNumber := connection.senderSequenceNumber }
    ({ connection with
        senderSequenceNumber := connection.senderSequenceNumber + 1
        recoveryQueue := connection.recoveryQueue.append queue
        queue := { queue with frames := [] } },
      sendData connection.address (.frameSet queue) server)
  else (connection, server)

def queueSize (frame : MiscFrame) (queue : PacketFrameSet) : Nat :=
  4 + getFrameSize frame + (queue.frames.map getFrameSize).sum

/-- `mtu_size - 36` in `int`, compared as `size_t`. -/
def queueLimit (mtuSize : UInt16) : Nat := (mtuSize.toUInt64 - 36).toNat

def flushIfFull (frame : MiscFrame) (connection : Connection) (server : RaknetServer) :
    Connection × RaknetServer :=
  if queueSize frame connection.queue > queueLimit connection.mtuSize then
    sendRaknetQueue connection server
  else (connection, server)

def pushFrame (frame : MiscFrame) (connection : Connection) : Connection :=
  { connection with
    queue := { connection.queue with frames := connection.queue.frames ++ [frame] } }

def appendRaknetFrame (frame : MiscFrame) (opts : Bool) (connection : Connection)
    (server : RaknetServer) : Connection × RaknetServer :=
  let flushed := flushIfFull frame connection server
  let pushed := pushFrame frame flushed.1
  if opts then sendRaknetQueue pushed flushed.2 else (pushed, flushed.2)

/-! ## Indices -/

/-- The cell of `sender_order_channels[order_channel]`; `none` past its end. -/
def channel (orderChannel : UInt8) : Option (Fin 32) :=
  if inside : orderChannel.toNat < 32 then some ⟨orderChannel.toNat, inside⟩ else none

def indexSequenced (cell : Fin 32) (frame : MiscFrame) (connection : Connection) :
    MiscFrame × Connection :=
  ({ frame with
      orderedFrameIndex := connection.senderOrderChannels[cell]
      sequencedFrameIndex := connection.senderSequenceChannels[cell] },
    { connection with
      senderSequenceChannels := connection.senderSequenceChannels.set cell
        (connection.senderSequenceChannels[cell] + 1) })

def indexOrdered (cell : Fin 32) (frame : MiscFrame) (connection : Connection) :
    MiscFrame × Connection :=
  ({ frame with orderedFrameIndex := connection.senderOrderChannels[cell] },
    { connection with
      senderOrderChannels := connection.senderOrderChannels.set cell
        (connection.senderOrderChannels[cell] + 1) })

def indexFrame (frame : MiscFrame) (connection : Connection) :
    Option (MiscFrame × Connection) :=
  if isSequenced frame.reliability then
    (channel frame.orderChannel).map fun cell => indexSequenced cell frame connection
  else if isOrdered frame.reliability then
    (channel frame.orderChannel).map fun cell => indexOrdered cell frame connection
  else some (frame, connection)

/-- All that a defined `indexFrame` can do. -/
theorem indexFrame_cases {frame indexed : MiscFrame} {connection counted : Connection}
    (success : indexFrame frame connection = some (indexed, counted)) :
    (isSequenced frame.reliability = true ∧ ∃ cell, channel frame.orderChannel = some cell ∧
      indexed = (indexSequenced cell frame connection).1 ∧
      counted = (indexSequenced cell frame connection).2) ∨
    (isSequenced frame.reliability = false ∧ isOrdered frame.reliability = true ∧
      ∃ cell, channel frame.orderChannel = some cell ∧
        indexed = (indexOrdered cell frame connection).1 ∧
        counted = (indexOrdered cell frame connection).2) ∨
    (isOrdered frame.reliability = false ∧ indexed = frame ∧ counted = connection) := by
  simp only [indexFrame] at success
  split at success
  · rename_i sequenced
    obtain ⟨cell, inside, result⟩ := Option.map_eq_some_iff.mp success
    obtain ⟨rfl, rfl⟩ := Prod.mk.inj result
    exact Or.inl ⟨sequenced, cell, inside, rfl, rfl⟩
  · rename_i plain
    split at success
    · rename_i ordered
      obtain ⟨cell, inside, result⟩ := Option.map_eq_some_iff.mp success
      obtain ⟨rfl, rfl⟩ := Prod.mk.inj result
      exact Or.inr (Or.inl ⟨eq_false_of_ne_true plain, ordered, cell, inside, rfl, rfl⟩)
    · rename_i unordered
      obtain ⟨rfl, rfl⟩ := Prod.mk.inj (Option.some.inj success)
      exact Or.inr (Or.inr ⟨eq_false_of_ne_true unordered, rfl, rfl⟩)

/-- The step of `sender_reliable_frame_index` for one frame. -/
def countReliable (reliability : UInt8) (connection : Connection) : Connection :=
  if isReliable reliability then
    { connection with senderReliableFrameIndex := connection.senderReliableFrameIndex + 1 }
  else connection

/-! ## Fragments -/

def maxSize (mtuSize : UInt16) : UInt16 := mtuSize - 60

def frameCount (size maxSize : Nat) : Nat := size / maxSize + 1

def padBytes (size maxSize : Nat) : Nat := frameCount size maxSize * maxSize - size

/-- The size of piece `i`. -/
def pieceSize (size maxSize i : Nat) : Nat :=
  if i = frameCount size maxSize - 1 then maxSize - padBytes size maxSize else maxSize

/-- Piece `i` of the payload, read on from the `i` pieces of full size before
it. -/
def piece (payload : List UInt8) (maxSize i : Nat) : List UInt8 :=
  (payload.drop (i * maxSize)).take (pieceSize payload.length maxSize i)

def compoundEntry (frame : MiscFrame) (maxSize i : Nat) (connection : Connection) : MiscFrame where
  isFragmented := 1
  reliability := frame.reliability
  compoundId := connection.compoundId.toUInt16
  compoundSize := UInt32.ofNat (frameCount frame.stream.length maxSize)
  index := UInt32.ofNat i
  stream := piece frame.stream maxSize i
  reliableFrameIndex :=
    if isReliable frame.reliability then connection.senderReliableFrameIndex else 0
  orderedFrameIndex := if isOrdered frame.reliability then frame.orderedFrameIndex else 0
  orderChannel := if isOrdered frame.reliability then frame.orderChannel else 0
  sequencedFrameIndex := if isSequenced frame.reliability then frame.sequencedFrameIndex else 0

def addFragment (frame : MiscFrame) (maxSize : Nat) (state : Connection × RaknetServer)
    (i : Nat) : Connection × RaknetServer :=
  appendRaknetFrame (compoundEntry frame maxSize i state.1) true
    (countReliable frame.reliability state.1) state.2

def addFragments (frame : MiscFrame) (maxSize : Nat) (connection : Connection)
    (server : RaknetServer) : Connection × RaknetServer :=
  let fragmented := (List.range (frameCount frame.stream.length maxSize)).foldl
    (addFragment frame maxSize) (connection, server)
  ({ fragmented.1 with compoundId := fragmented.1.compoundId + 1 }, fragmented.2)

def numberReliable (frame : MiscFrame) (connection : Connection) : MiscFrame :=
  { frame with
    reliableFrameIndex :=
      if isReliable frame.reliability then connection.senderReliableFrameIndex
      else frame.reliableFrameIndex }

def addWhole (frame : MiscFrame) (connection : Connection) (server : RaknetServer) :
    Connection × RaknetServer :=
  appendRaknetFrame (numberReliable frame connection) false
    (countReliable frame.reliability connection) server

/-- `none` where the source reads or writes past the channel arrays, and where
it divides by zero. -/
def addToRaknetQueue (frame : MiscFrame) (connection : Connection) (server : RaknetServer) :
    Option (Connection × RaknetServer) := do
  let (indexed, counted) ← indexFrame frame connection
  let size := (maxSize counted.mtuSize).toNat
  if indexed.stream.length > size then
    if size = 0 then none else some (addFragments indexed size counted server)
  else some (addWhole indexed counted server)

end PodrumRakNet.SendQueue
