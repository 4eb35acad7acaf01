import PodrumFormal.RakNet.SendQueue

/-!
# The handlers of connected datagrams

`handle_ack`, `handle_nack` and `handle_frame_set` with the frame handlers it
calls.  A handler is `none` where the source reads past the datagram or a
payload, writes outside an array, or divides by zero.
-/

set_option autoImplicit false

namespace PodrumRakNet.Handler

open PodrumStream.BinaryStream PodrumRakNet.Frame PodrumRakNet.FrameSet PodrumRakNet.Acknowledge
open PodrumRakNet.Packet PodrumRakNet.Connections PodrumRakNet.SendQueue

/-! ## Acknowledgements -/

/-- The numbers the loops of `handle_ack` and `handle_nack` go through. -/
def acknowledgedNumbers (stream : List UInt8) : Option (List UInt32) := do
  let (acknowledge, _) ← getPacketAcknowledge stream
  acknowledge.read

def handleAck (stream : List UInt8) (connection : Connection) : Option Connection := do
  let sequenceNumbers ← acknowledgedNumbers stream
  let recoveryQueue := sequenceNumbers.foldl (fun queue number => queue.deduct number)
    connection.recoveryQueue
  some { connection with recoveryQueue }

/-- The sentinel for a number that is not in the queue is frame set 0 without
frames. -/
def popRaknetRecoveryQueue (sequenceNumber : UInt32) (connection : Connection) :
    PacketFrameSet × Connection :=
  let popped := connection.recoveryQueue.pop sequenceNumber
  (popped.1.getD { sequenceNumber := 0, frames := [] },
    { connection with recoveryQueue := popped.2 })

/-- One turn of the loop of `handle_nack`. -/
def retransmit (state : Connection × RaknetServer) (sequenceNumber : UInt32) :
    Connection × RaknetServer :=
  let (frameSet, connection) := popRaknetRecoveryQueue sequenceNumber state.1
  if frameSet.sequenceNumber ≠ 0 ∧ frameSet.frames.length ≠ 0 then
    let renumbered := { frameSet with sequenceNumber := connection.senderSequenceNumber }
    ({ connection with
        recoveryQueue := connection.recoveryQueue.append renumbered
        senderSequenceNumber := connection.senderSequenceNumber + 1 },
      sendData connection.address (.frameSet renumbered) state.2)
  else (connection, state.2)

def handleNack (stream : List UInt8) (connection : Connection) (server : RaknetServer) :
    Option (Connection × RaknetServer) := do
  let sequenceNumbers ← acknowledgedNumbers stream
  some (sequenceNumbers.foldl retransmit (connection, server))

/-! ## Fragments -/

def getRaknetCompoundSize (compoundId : UInt16) (frameHolder : FrameHolder) : Nat :=
  frameHolder.slots.countP fun frame => frame.compoundId = compoundId

/-- The payload of the popped entry, none for the empty sentinel. -/
def popCompoundEntry (compoundId : UInt16) (joined : List UInt8 × FrameHolder) (i : Nat) :
    List UInt8 × FrameHolder :=
  let popped := joined.2.pop (compoundId, UInt32.ofNat i)
  (joined.1 ++ ((popped.1.map MiscFrame.stream).getD []), popped.2)

/-- The holder afterwards and the frame `handle_frame` is called with, if it
is. -/
def handleFragmentedFrame (frame : MiscFrame) (frameHolder : FrameHolder) :
    FrameHolder × Option MiscFrame :=
  let held := frameHolder.append frame
  if getRaknetCompoundSize frame.compoundId held = frame.compoundSize.toNat then
    let joined := (List.range frame.compoundSize.toNat).foldl
      (popCompoundEntry frame.compoundId) ([], held)
    (joined.2, some { isFragmented := 0, stream := joined.1 })
  else (held, none)

/-! ## Frames -/

def readTimestamp (environment : Environment) (server : RaknetServer) : UInt64 × RaknetServer :=
  (environment.timestamp server.timestampReads,
    { server with timestampReads := server.timestampReads + 1 })

/-- The text `0.0.0.0`. -/
def systemAddressText : List UInt8 := [0x30, 0x2e, 0x30, 0x2e, 0x30, 0x2e, 0x30]

def handleConnectionRequest (environment : Environment) (stream : List UInt8)
    (address : MiscAddress) (server : RaknetServer) : Option (List UInt8 × RaknetServer) := do
  let (request, _) ← getPacketConnectionRequest stream
  let (replyTimestamp, server) := readTimestamp environment server
  some (putPacketConnectionRequestAccepted environment {
    address, replyTimestamp
    systemIndex := 0
    systemAddresses := Vector.replicate 20 ⟨address.version, systemAddressText, 0⟩
    requestTimestamp := request.timestamp }, server)

def handleConnectedPing (environment : Environment) (stream : List UInt8)
    (server : RaknetServer) : Option (List UInt8 × RaknetServer) := do
  let (ping, _) ← getPacketConnectedPing stream
  let (replyTimestamp, server) := readTimestamp environment server
  some (putPacketConnectedPong { replyTimestamp, requestTimestamp := ping.timestamp }, server)

def sendRaknetFrame (frame : MiscFrame) (address : MiscAddress) (server : RaknetServer) :
    RaknetServer :=
  if hasRaknetConnection address server then
    { server with mainToThreaded := server.mainToThreaded ++ [.frame frame address] }
  else server

/-- `handle_frame` past its test for a fragment. -/
def handleWholeFrame (environment : Environment) (frame : MiscFrame) (connection : Connection)
    (server : RaknetServer) : Option (Connection × RaknetServer) := do
  let packetId ← frame.stream.head?
  if packetId = idConnectionRequest then
    let (stream, server) ←
      handleConnectionRequest environment frame.stream connection.address server
    addToRaknetQueue { stream, isFragmented := 0, reliability := reliabilityUnreliable }
      connection server
  else if packetId = idConnectedPing then
    let (stream, server) ← handleConnectedPing environment frame.stream server
    addToRaknetQueue { stream, isFragmented := 0, reliability := reliabilityUnreliable }
      connection server
  else if packetId = idDisconnectNotification then
    some (connection, { server with
      threadedToMain := server.threadedToMain ++ [.disconnectNotification connection.address] })
  else if packetId = idNewIncomingConnection then
    some (connection, { server with
      mainToThreaded := server.mainToThreaded ++ [.newIncomingConnection connection.address] })
  else some (connection, sendRaknetFrame frame connection.address server)

section WholeFrame

variable {environment : Environment} {connection next : Connection}
  {server nextServer : RaknetServer}

theorem handleConnectionRequest_server {stream reply : List UInt8} {address : MiscAddress}
    (success : handleConnectionRequest environment stream address server =
      some (reply, nextServer)) :
    nextServer = { server with timestampReads := server.timestampReads + 1 } := by
  obtain ⟨request, _, success⟩ := Option.bind_eq_some_iff.mp success
  cases success
  rfl

theorem handleConnectedPing_server {stream reply : List UInt8}
    (success : handleConnectedPing environment stream server = some (reply, nextServer)) :
    nextServer = { server with timestampReads := server.timestampReads + 1 } := by
  obtain ⟨ping, _, success⟩ := Option.bind_eq_some_iff.mp success
  cases success
  rfl

/-- All that a whole frame can do: an answer into the send queue, a message to
the main thread, or one to the workers. -/
theorem handleWholeFrame_cases {frame : MiscFrame}
    (success : handleWholeFrame environment frame connection server = some (next, nextServer)) :
    (∃ stream, addToRaknetQueue { stream, isFragmented := 0, reliability := reliabilityUnreliable }
      connection { server with timestampReads := server.timestampReads + 1 } =
        some (next, nextServer)) ∨
    (next = connection ∧ nextServer = { server with
      threadedToMain := server.threadedToMain ++ [.disconnectNotification connection.address] }) ∨
    (next = connection ∧ nextServer = { server with
      mainToThreaded := server.mainToThreaded ++ [.newIncomingConnection connection.address] }) ∨
    ∃ packetId, frame.stream.head? = some packetId ∧
      packetId ∉ [idConnectionRequest, idConnectedPing, idDisconnectNotification,
        idNewIncomingConnection] ∧
      next = connection ∧ nextServer = sendRaknetFrame frame connection.address server := by
  obtain ⟨packetId, first, success⟩ := Option.bind_eq_some_iff.mp success
  split at success
  · obtain ⟨⟨reply, middle⟩, handled, success⟩ := Option.bind_eq_some_iff.mp success
    obtain rfl := handleConnectionRequest_server handled
    exact Or.inl ⟨reply, success⟩
  · split at success
    · obtain ⟨⟨reply, middle⟩, handled, success⟩ := Option.bind_eq_some_iff.mp success
      obtain rfl := handleConnectedPing_server handled
      exact Or.inl ⟨reply, success⟩
    · split at success
      · cases success
        exact Or.inr (Or.inl ⟨rfl, rfl⟩)
      · split at success
        · cases success
          exact Or.inr (Or.inr (Or.inl ⟨rfl, rfl⟩))
        · rename_i notRequest notPing notGoodbye notArrival
          cases success
          refine Or.inr (Or.inr (Or.inr ⟨packetId, first, ?_, rfl, rfl⟩))
          simp [notRequest, notPing, notGoodbye, notArrival]

end WholeFrame

def handleFrame (environment : Environment) (frame : MiscFrame) (connection : Connection)
    (server : RaknetServer) : Option (Connection × RaknetServer) :=
  if frame.isFragmented ≠ 0 then
    let (frameHolder, output) := handleFragmentedFrame frame connection.frameHolder
    match output with
    | some outputFrame =>
        handleWholeFrame environment outputFrame { connection with frameHolder } server
    | none => some ({ connection with frameHolder }, server)
  else handleWholeFrame environment frame connection server

/-! ## Frame sets -/

/-- The numbers from `first` up to the one before `past`. -/
def hole (first past : UInt32) : List UInt32 :=
  (List.range' first.toNat (past.toNat - first.toNat)).map UInt32.ofNat

/-- The numbers skipped since `receiver_sequence_number` go into the queue. -/
def appendHole (receiverSequenceNumber sequenceNumber : UInt32) (nackQueue : SequenceQueue) :
    Option SequenceQueue :=
  let holeSize := sequenceNumber - receiverSequenceNumber
  if holeSize ≠ 0 then
    (hole (receiverSequenceNumber + 1) sequenceNumber).foldlM
      (fun queue number => queue.append number) nackQueue
  else some nackQueue

/-- The part of `handle_frame_set` before its frames. -/
def receiveSequenceNumber (sequenceNumber : UInt32) (connection : Connection) :
    Option Connection := do
  let deducted := connection.nackQueue.deduct sequenceNumber
  let ackQueue ← connection.ackQueue.append sequenceNumber
  let nackQueue ← appendHole connection.receiverSequenceNumber sequenceNumber deducted
  some { connection with
    ackQueue, nackQueue, receiverSequenceNumber := sequenceNumber + 1 }

def handleFrames (environment : Environment) (address : MiscAddress) :
    List MiscFrame → Connection → RaknetServer → Option (Connection × RaknetServer)
  | [], connection, server => some (connection, server)
  | frame :: rest, connection, server =>
      if hasRaknetConnection address server then do
        let (connection, server) ← handleFrame environment frame connection server
        handleFrames environment address rest connection server
      else some (connection, server)

def handleFrameSet (environment : Environment) (stream : List UInt8) (connection : Connection)
    (server : RaknetServer) : Option (Connection × RaknetServer) := do
  let (frameSet, _) ← getPacketFrameSet stream
  let received ← receiveSequenceNumber frameSet.sequenceNumber connection
  handleFrames environment connection.address frameSet.frames received server

end PodrumRakNet.Handler
