import PodrumFormal.RakNet.InternalMessages
import PodrumFormal.RakNet.NackRecovery
import PodrumFormal.RakNet.PeerAddress
import PodrumFormal.RakNet.Sessions

/-!
# The queues between the threads as bytes

`put_queue` and `get_queue` pass buffers: whoever posts a message writes it
with its putter, and `handle_raknet_internal` reads it back.  The server whose
queues hold values says what the server whose queues hold bytes does.
-/

set_option autoImplicit false

namespace PodrumRakNet.ByteQueues

open EventRun PodrumRakNet.Frame PodrumRakNet.FrameSet PodrumRakNet.Packet
open PodrumRakNet.Connections PodrumRakNet.SendQueue PodrumRakNet.Handler
open PodrumRakNet.Handshake PodrumRakNet.Server PodrumRakNet.Threads PodrumRakNet.OpenPeers
open PodrumRakNet.InternalMessages PodrumRakNet.HandlerEffects PodrumRakNet.NackRecovery
open PodrumRakNet.Recovery
open PodrumRakNet.PeerAddress (podrum opening firstHost)
open PodrumRakNet.Sessions (lastFrames)

/-! ## Handlers that only post -/

/-- The server with messages that were posted before. -/
def after (toMain toThreaded : List InternalMessage) (server : RaknetServer) : RaknetServer :=
  { server with
    threadedToMain := toMain ++ server.threadedToMain
    mainToThreaded := toThreaded ++ server.mainToThreaded }

section Blind

variable (toMain toThreaded : List InternalMessage)

def partyAfter (party : Connection × RaknetServer) : Connection × RaknetServer :=
  (party.1, after toMain toThreaded party.2)

theorem sendRaknetQueue_after (connection : Connection) (server : RaknetServer) :
    sendRaknetQueue connection (after toMain toThreaded server) =
      partyAfter toMain toThreaded (sendRaknetQueue connection server) := by
  unfold sendRaknetQueue
  split <;> rfl

theorem flushIfFull_after (frame : MiscFrame) (connection : Connection) (server : RaknetServer) :
    flushIfFull frame connection (after toMain toThreaded server) =
      partyAfter toMain toThreaded (flushIfFull frame connection server) := by
  unfold flushIfFull
  split
  · exact sendRaknetQueue_after toMain toThreaded connection server
  · rfl

theorem appendRaknetFrame_after (frame : MiscFrame) (opts : Bool) (connection : Connection)
    (server : RaknetServer) :
    appendRaknetFrame frame opts connection (after toMain toThreaded server) =
      partyAfter toMain toThreaded (appendRaknetFrame frame opts connection server) := by
  unfold appendRaknetFrame
  rw [flushIfFull_after]
  cases opts with
  | false => rfl
  | true => exact sendRaknetQueue_after toMain toThreaded _ _

theorem foldl_after {β : Type} {step : Connection × RaknetServer → β → Connection × RaknetServer}
    (blind : ∀ party item, step (partyAfter toMain toThreaded party) item =
      partyAfter toMain toThreaded (step party item))
    (items : List β) (party : Connection × RaknetServer) :
    items.foldl step (partyAfter toMain toThreaded party) =
      partyAfter toMain toThreaded (items.foldl step party) := by
  induction items generalizing party with
  | nil => rfl
  | cons item rest ih => rw [List.foldl_cons, blind, ih, List.foldl_cons]

theorem addFragments_after (frame : MiscFrame) (maxSize : Nat) (connection : Connection)
    (server : RaknetServer) :
    addFragments frame maxSize connection (after toMain toThreaded server) =
      partyAfter toMain toThreaded (addFragments frame maxSize connection server) := by
  have blind (party : Connection × RaknetServer) (i : Nat) :
      addFragment frame maxSize (partyAfter toMain toThreaded party) i =
        partyAfter toMain toThreaded (addFragment frame maxSize party i) :=
    appendRaknetFrame_after toMain toThreaded _ true _ party.2
  have fragments := foldl_after toMain toThreaded blind
    (List.range (frameCount frame.stream.length maxSize)) (connection, server)
  unfold addFragments
  rw [show (connection, after toMain toThreaded server) =
    partyAfter toMain toThreaded (connection, server) from rfl, fragments]
  rfl

/-- The handler neither reads the queues nor takes from them. -/
def Blind (action : Connection → RaknetServer → Option (Connection × RaknetServer)) : Prop :=
  ∀ toMain toThreaded connection server, action connection (after toMain toThreaded server) =
    (action connection server).map (partyAfter toMain toThreaded)

theorem addToRaknetQueue_blind (frame : MiscFrame) : Blind (addToRaknetQueue frame) := by
  intro toMain toThreaded connection server
  unfold addToRaknetQueue
  cases indexFrame frame connection with
  | none => rfl
  | some counted =>
      simp only [Option.bind_eq_bind, Option.bind_some]
      split
      · split
        · rfl
        · rw [addFragments_after]
          rfl
      · rw [addWhole, appendRaknetFrame_after]
        rfl

theorem retransmit_after (party : Connection × RaknetServer) (number : UInt32) :
    retransmit (partyAfter toMain toThreaded party) number =
      partyAfter toMain toThreaded (retransmit party number) := by
  have same : (partyAfter toMain toThreaded party).1.recoveryQueue.find number =
      party.1.recoveryQueue.find number := rfl
  cases finding : party.1.recoveryQueue.find number with
  | none =>
      rw [finding] at same
      rw [retransmit_absent (KeyedArray.find_none.mp finding),
        retransmit_absent (KeyedArray.find_none.mp same)]
  | some frameSet =>
      rw [finding] at same
      by_cases resendable : Resendable frameSet
      · rw [retransmit_resent finding resendable, retransmit_resent same resendable]
        rfl
      · rw [retransmit_dropped finding resendable, retransmit_dropped same resendable]
        rfl

theorem handleAck_blind (stream : List UInt8) :
    Blind fun connection server =>
      (handleAck stream connection).map fun connection => (connection, server) := by
  intro toMain toThreaded connection server
  dsimp only
  rw [Option.map_map]
  rfl

theorem handleNack_blind (stream : List UInt8) : Blind (handleNack stream) := by
  intro toMain toThreaded connection server
  unfold handleNack
  cases acknowledgedNumbers stream with
  | none => rfl
  | some numbers =>
      exact congrArg some (foldl_after toMain toThreaded (retransmit_after toMain toThreaded)
        numbers (connection, server))

theorem sendRaknetFrame_after (frame : MiscFrame) (address : MiscAddress) (server : RaknetServer) :
    sendRaknetFrame frame address (after toMain toThreaded server) =
      after toMain toThreaded (sendRaknetFrame frame address server) := by
  have same : hasRaknetConnection address (after toMain toThreaded server) =
      hasRaknetConnection address server := rfl
  unfold sendRaknetFrame
  rw [same]
  split
  · simp only [after, List.append_assoc]
  · rfl

theorem handleConnectionRequest_after (environment : Environment) (stream : List UInt8)
    (address : MiscAddress) (server : RaknetServer) :
    handleConnectionRequest environment stream address (after toMain toThreaded server) =
      (handleConnectionRequest environment stream address server).map fun answer =>
        (answer.1, after toMain toThreaded answer.2) := by
  unfold handleConnectionRequest
  cases getPacketConnectionRequest stream <;> rfl

theorem handleConnectedPing_after (environment : Environment) (stream : List UInt8)
    (server : RaknetServer) :
    handleConnectedPing environment stream (after toMain toThreaded server) =
      (handleConnectedPing environment stream server).map fun answer =>
        (answer.1, after toMain toThreaded answer.2) := by
  unfold handleConnectedPing
  cases getPacketConnectedPing stream <;> rfl

theorem handleWholeFrame_blind (environment : Environment) (frame : MiscFrame) :
    Blind (handleWholeFrame environment frame) := by
  intro toMain toThreaded connection server
  unfold handleWholeFrame
  cases frame.stream.head? with
  | none => rfl
  | some packetId =>
      simp only [Option.bind_eq_bind, Option.bind_some]
      by_cases request : packetId = idConnectionRequest
      · rw [if_pos request, if_pos request]
        rw [handleConnectionRequest_after]
        cases handleConnectionRequest environment frame.stream connection.address server with
        | none => rfl
        | some answer => exact addToRaknetQueue_blind _ toMain toThreaded connection answer.2
      · rw [if_neg request, if_neg request]
        by_cases ping : packetId = idConnectedPing
        · rw [if_pos ping, if_pos ping]
          rw [handleConnectedPing_after]
          cases handleConnectedPing environment frame.stream server with
          | none => rfl
          | some answer => exact addToRaknetQueue_blind _ toMain toThreaded connection answer.2
        · rw [if_neg ping, if_neg ping]
          by_cases goodbye : packetId = idDisconnectNotification
          · rw [if_pos goodbye, if_pos goodbye]
            simp only [after, partyAfter, Option.map_some, List.append_assoc]
          · rw [if_neg goodbye, if_neg goodbye]
            by_cases arrival : packetId = idNewIncomingConnection
            · rw [if_pos arrival, if_pos arrival]
              simp only [after, partyAfter, Option.map_some, List.append_assoc]
            · rw [if_neg arrival, if_neg arrival, sendRaknetFrame_after]
              rfl

theorem handleFrame_blind (environment : Environment) (frame : MiscFrame) :
    Blind (handleFrame environment frame) := by
  intro toMain toThreaded connection server
  unfold handleFrame
  split
  · generalize handleFragmentedFrame frame connection.frameHolder = handled
    obtain ⟨frameHolder, output⟩ := handled
    cases output with
    | none => rfl
    | some whole => exact handleWholeFrame_blind environment whole toMain toThreaded _ server
  · exact handleWholeFrame_blind environment frame toMain toThreaded connection server

theorem handleFrames_blind (environment : Environment) (address : MiscAddress)
    (frames : List MiscFrame) : Blind (handleFrames environment address frames) := by
  intro toMain toThreaded connection server
  induction frames generalizing connection server with
  | nil => rfl
  | cons frame rest ih =>
      have same : hasRaknetConnection address (after toMain toThreaded server) =
          hasRaknetConnection address server := rfl
      rw [handleFrames, handleFrames, same]
      split
      · rw [handleFrame_blind]
        cases handleFrame environment frame connection server with
        | none => rfl
        | some party => exact ih party.1 party.2
      · rfl

theorem handleFrameSet_blind (environment : Environment) (stream : List UInt8) :
    Blind (handleFrameSet environment stream) := by
  intro toMain toThreaded connection server
  unfold handleFrameSet
  cases getPacketFrameSet stream with
  | none => rfl
  | some read =>
      simp only [Option.bind_eq_bind, Option.bind_some]
      cases receiveSequenceNumber read.1.sequenceNumber connection with
      | none => rfl
      | some received => exact handleFrames_blind environment _ _ toMain toThreaded _ server

end Blind

/-! ## Steps that only post -/

section Steps

variable {α : Type} (toMain toThreaded : List InternalMessage)

def serverAfter (server : Podrum α) : Podrum α :=
  server.setRaknet (after toMain toThreaded server.raknet)

theorem withConnection_after {action : Connection → RaknetServer → Option (Connection × RaknetServer)}
    (blind : Blind action) (address : MiscAddress) (server : RaknetServer) :
    withConnection address action (after toMain toThreaded server) =
      (withConnection address action server).map (after toMain toThreaded) := by
  have same : getRaknetConnection address (after toMain toThreaded server) =
      getRaknetConnection address server := rfl
  unfold withConnection
  rw [same]
  cases getRaknetConnection address server with
  | none => rfl
  | some connection =>
      simp only [blind toMain toThreaded, Option.map_map]
      rfl

theorem onConnection_after {action : Connection → RaknetServer → Option (Connection × RaknetServer)}
    (blind : Blind action) (address : MiscAddress) (server : Podrum α) :
    onConnection address action (serverAfter toMain toThreaded server) =
      (onConnection address action server).map (serverAfter toMain toThreaded) := by
  have blindly := withConnection_after toMain toThreaded blind address server.raknet
  unfold onConnection
  rw [show (serverAfter toMain toThreaded server).raknet =
    after toMain toThreaded server.raknet from rfl, blindly, Option.map_map, Option.map_map]
  rfl

theorem dispatch_after (configuration : Configuration) (stream : List UInt8)
    (address : MiscAddress) (server : Podrum α) :
    dispatch configuration stream address (serverAfter toMain toThreaded server) =
      (dispatch configuration stream address server).map (serverAfter toMain toThreaded) := by
  unfold dispatch
  cases stream.head? with
  | none => rfl
  | some packetId =>
      dsimp only
      split
      · rw [Option.map_map]
        rfl
      · split
        · rw [Option.map_map]
          rfl
        · split
          · unfold openConnection handleOpenConnectionRequest2
            cases getPacketOpenConnectionRequest2 configuration.inetNtop stream with
            | none => rfl
            | some read => rfl
          · split
            · exact onConnection_after toMain toThreaded (handleAck_blind stream) address server
            · split
              · exact onConnection_after toMain toThreaded (handleNack_blind stream) address server
              · split
                · exact onConnection_after toMain toThreaded
                    (handleFrameSet_blind configuration.environment stream) address server
                · rfl

theorem inetNtoa_after (texts : AddressTexts) (text : List UInt8) (server : RaknetServer) :
    inetNtoa texts text (after toMain toThreaded server) =
      (inetNtoa texts text server).map (after toMain toThreaded) := by
  cases texts with
  | copied => rfl
  | staticBuffer =>
      unfold inetNtoa
      rw [Option.map_map]
      rfl

theorem receiveData_after (texts : AddressTexts) (received : Option SocketData)
    (server : RaknetServer) :
    receiveData texts received (after toMain toThreaded server) =
      (receiveData texts received server).map fun read => (read.1, after toMain toThreaded read.2) := by
  unfold receiveData
  cases received with
  | none => rfl
  | some data =>
      dsimp only
      split
      · rw [inetNtoa_after, Option.map_map, Option.map_map]
        rfl
      · rfl

theorem handleRaknetPacket_after (texts : AddressTexts) (configuration : Configuration)
    (received : Option SocketData) (server : Podrum α) :
    handleRaknetPacket texts configuration received (serverAfter toMain toThreaded server) =
      (handleRaknetPacket texts configuration received server).map
        (serverAfter toMain toThreaded) := by
  have reading := receiveData_after toMain toThreaded texts received server.raknet
  unfold handleRaknetPacket
  rw [show (serverAfter toMain toThreaded server).raknet =
    after toMain toThreaded server.raknet from rfl, reading]
  cases receiveData texts received server.raknet with
  | none => rfl
  | some read =>
      exact dispatch_after toMain toThreaded configuration read.1.stream _
        (server.setRaknet read.2)

theorem storeConnection_after (party : Connection × RaknetServer) :
    storeConnection (partyAfter toMain toThreaded party) =
      after toMain toThreaded (storeConnection party) := rfl

theorem disconnectRaknetClient_after (address : MiscAddress) (server : RaknetServer) :
    disconnectRaknetClient address (after toMain toThreaded server) =
      after toMain toThreaded (disconnectRaknetClient address server) := by
  have notified : notifyThreaded address (after toMain toThreaded server) =
      after toMain toThreaded (notifyThreaded address server) := by
    simp only [notifyThreaded, after, List.append_assoc]
  have same : getRaknetConnection address (after toMain toThreaded (notifyThreaded address server)) =
      getRaknetConnection address (notifyThreaded address server) := rfl
  unfold disconnectRaknetClient
  dsimp only
  rw [notified, same]
  cases getRaknetConnection address (notifyThreaded address server) with
  | none => rfl
  | some connection =>
      simp only [appendRaknetFrame_after, storeConnection_after]
      rfl

theorem updateConnection_after (server : RaknetServer) (connection : Connection) :
    updateConnection (after toMain toThreaded server) connection =
      after toMain toThreaded (updateConnection server connection) := by
  have acknowledged : sendRaknetAckQueue connection (after toMain toThreaded server) =
      partyAfter toMain toThreaded (sendRaknetAckQueue connection server) := by
    unfold sendRaknetAckQueue
    split <;> rfl
  have reported (connection : Connection) (server : RaknetServer) :
      sendRaknetNackQueue connection (after toMain toThreaded server) =
        partyAfter toMain toThreaded (sendRaknetNackQueue connection server) := by
    unfold sendRaknetNackQueue
    split <;> rfl
  simp only [updateConnection, acknowledged, partyAfter, reported, sendRaknetQueue_after]
  rfl

theorem updateConnections_after (server : Podrum α) :
    updateConnections (serverAfter toMain toThreaded server) =
      serverAfter toMain toThreaded (updateConnections server) := by
  have all (connections : List Connection) (server : RaknetServer) :
      connections.foldl updateConnection (after toMain toThreaded server) =
        after toMain toThreaded (connections.foldl updateConnection server) := by
    induction connections generalizing server with
    | nil => rfl
    | cons connection rest ih => rw [List.foldl_cons, updateConnection_after, ih, List.foldl_cons]
  exact congrArg server.setRaknet (all server.raknet.connections.slots server.raknet)

end Steps

/-! ## `queue_t` -/

section Queue

variable {β : Type}

/-- The rest is copied into a new array. -/
def getQueue (items : List β) : Option β × List β :=
  match items with
  | [] => (none, [])
  | item :: rest => (some item, (List.range rest.length).filterMap fun i => items[i + 1]?)

def putQueue (data : β) (items : List β) : List β := items ++ [data]

theorem getQueue_cons (item : β) (rest : List β) : getQueue (item :: rest) = (some item, rest) := by
  have copied : (List.range rest.length).filterMap (fun i => rest[i]?) = rest := by
    induction rest with
    | nil => rfl
    | cons first rest ih =>
        rw [List.length_cons, List.range_succ_eq_map, List.filterMap_cons, List.filterMap_map]
        simpa using ih
  simp [getQueue, copied]

end Queue

/-! ## Buffers -/

def internal : InternalMessage → Internal
  | .frame frame address => .frame { address, frame }
  | .newIncomingConnection address => .newIncomingConnection address
  | .disconnectNotification address => .disconnectNotification address

/-- The branches of `handle_raknet_internal` but for the one that sets an option. -/
def message : Internal → Option InternalMessage
  | .frame read => some (.frame read.frame read.address)
  | .newIncomingConnection address => some (.newIncomingConnection address)
  | .disconnectNotification address => some (.disconnectNotification address)
  | .setOption _ => none

def encode (posted : InternalMessage) : List UInt8 := putInternal (internal posted)

def decode (buffer : List UInt8) : Option InternalMessage := do
  let (read, _) ← getInternal buffer
  message read

/-- The message that comes out. -/
def wired : InternalMessage → InternalMessage
  | .frame frame address => .frame (wireFrame { frame with isFragmented := 0 }) address
  | other => other

def TextFits (text : List UInt8) : Prop := (0 : UInt8) ∉ text ∧ text.length + 1 < 2 ^ 32

instance (text : List UInt8) : Decidable (TextFits text) := inferInstanceAs (Decidable (_ ∧ _))

structure Passes (posted : InternalMessage) : Prop where
  frame : FrameFits (internal posted)
  texts : ∀ text ∈ texts (internal posted), TextFits text

theorem decode_encode {posted : InternalMessage} (passes : Passes posted) :
    decode (encode posted) = some (wired posted) := by
  have fits : Fits (internal posted) := ⟨passes.frame, fun text member => (passes.texts text member).1,
    fun text member => Nat.lt_of_succ_lt (passes.texts text member).2⟩
  have reads := reads_getterOf fits fun text member => (passes.texts text member).2
  have read := getInternal_putInternal (internal posted) []
  rw [reads [], List.append_nil] at read
  rw [decode, encode, read]
  cases posted <;> rfl

/-! ## The server whose queues hold buffers -/

/-- The queues of the server inside hold what the step has posted so far. -/
structure ByteServer (α : Type) where
  podrum : Podrum α
  threadedToMain : List (List UInt8) := []
  mainToThreaded : List (List UInt8) := []

section Bytes

variable {α : Type}

def emptied (server : RaknetServer) : RaknetServer :=
  { server with threadedToMain := [], mainToThreaded := [] }

def putAll (posted : List InternalMessage) (items : List (List UInt8)) : List (List UInt8) :=
  posted.foldl (fun items posted => putQueue (encode posted) items) items

/-- What a step has posted is written and put. -/
def ByteServer.post (state : ByteServer α) (next : Podrum α) : ByteServer α where
  podrum := next.setRaknet (emptied next.raknet)
  threadedToMain := putAll next.raknet.threadedToMain state.threadedToMain
  mainToThreaded := putAll next.raknet.mainToThreaded state.mainToThreaded

/-- `handle_raknet_internal` behind the getters, for the main thread. -/
def onMain (executors : Executors α) (read : InternalMessage) (server : Podrum α) :
    Option (Podrum α) :=
  match read with
  | .frame frame address => onConnection address (addToRaknetQueue frame) server
  | .disconnectNotification address =>
      some (server.setRaknet (disconnectRaknetClient address server.raknet))
  | .newIncomingConnection address => some (announceConnection executors address server)

def onThreaded (executors : Executors α) (read : InternalMessage) (server : Podrum α) :
    Option (Podrum α) :=
  match read with
  | .frame frame address =>
      match getRaknetConnection address server.raknet with
      | some connection => do
          let (app, requests) ← executors.onFrame frame connection server.raknet server.app
          some (postToMain requests (server.setApp app))
      | none => some server
  | .disconnectNotification address =>
      some (server.setApp (executors.onDisconnectNotification address server.app))
  | .newIncomingConnection address => some (announceConnection executors address server)

def internalStep (executors : Executors α) (state : ByteServer α) : Option (ByteServer α) :=
  match getQueue state.threadedToMain with
  | (none, _) => some state
  | (some buffer, threadedToMain) => do
      let read ← decode buffer
      (onMain executors read state.podrum).map ({ state with threadedToMain } : ByteServer α).post

def workerStep (executors : Executors α) (state : ByteServer α) : Option (ByteServer α) :=
  match getQueue state.mainToThreaded with
  | (none, _) => some state
  | (some buffer, mainToThreaded) => do
      let read ← decode buffer
      (onThreaded executors read state.podrum).map
        ({ state with mainToThreaded } : ByteServer α).post

def byteStep (texts : AddressTexts) (configuration : Configuration) (executors : Executors α)
    (state : ByteServer α) : ServerEvent → Option (ByteServer α)
  | .packet received =>
      (handleRaknetPacket texts configuration received state.podrum).map state.post
  | .internal => internalStep executors state
  | .update => some (state.post (updateConnections state.podrum))
  | .worker => workerStep executors state

/-- The server that passes the same messages as buffers. -/
def toBytes (server : Podrum α) : ByteServer α :=
  ({ podrum := server } : ByteServer α).post server

/-! ## One step -/

theorem putAll_eq (posted : List InternalMessage) (items : List (List UInt8)) :
    putAll posted items = items ++ posted.map encode := by
  induction posted generalizing items with
  | nil => exact (List.append_nil _).symm
  | cons first rest ih =>
      have folded : putAll (first :: rest) items = putAll rest (putQueue (encode first) items) := rfl
      rw [folded, ih, putQueue, List.append_assoc]
      rfl

theorem toBytes_eq (server : Podrum α) :
    toBytes server = {
      podrum := server.setRaknet (emptied server.raknet)
      threadedToMain := server.raknet.threadedToMain.map encode
      mainToThreaded := server.raknet.mainToThreaded.map encode } := by
  rw [toBytes, ByteServer.post, putAll_eq, putAll_eq]
  rfl

theorem post_eq (state : ByteServer α) (next : Podrum α) :
    state.post next = {
      podrum := next.setRaknet (emptied next.raknet)
      threadedToMain := state.threadedToMain ++ next.raknet.threadedToMain.map encode
      mainToThreaded := state.mainToThreaded ++ next.raknet.mainToThreaded.map encode } := by
  rw [ByteServer.post, putAll_eq, putAll_eq]

/-- A step that only posts, over buffers that are there already. -/
theorem post_after (toMain toThreaded : List InternalMessage) {state : ByteServer α}
    (main : state.threadedToMain = toMain.map encode)
    (threaded : state.mainToThreaded = toThreaded.map encode) (next : Podrum α) :
    state.post next = toBytes (serverAfter toMain toThreaded next) := by
  rw [post_eq, toBytes_eq, main, threaded]
  simp only [serverAfter, after, Podrum.setRaknet, emptied, List.map_append]

theorem serverAfter_emptied (toMain toThreaded : List InternalMessage) (server : Podrum α) :
    serverAfter toMain toThreaded (server.setRaknet (emptied server.raknet)) =
      server.setRaknet
        { server.raknet with threadedToMain := toMain, mainToThreaded := toThreaded } := by
  simp only [serverAfter, after, Podrum.setRaknet, emptied, List.append_nil]

theorem map_post_after (toMain toThreaded : List InternalMessage) {state : ByteServer α}
    (main : state.threadedToMain = toMain.map encode)
    (threaded : state.mainToThreaded = toThreaded.map encode) (result : Option (Podrum α)) :
    result.map state.post = (result.map (serverAfter toMain toThreaded)).map toBytes := by
  rw [Option.map_map]
  exact congrArg (result.map ·) (funext fun next => post_after toMain toThreaded main threaded next)

end Bytes

/-! ## Executors -/

section Executors

variable {α : Type} {executors : Executors α}

/-- `on_frame_executor` does not look into the queues, uses of a frame what
`put_internal_frame` writes, and posts messages that get through to addresses
that it knows. -/
structure Portable (executors : Executors α) : Prop where
  blind : ∀ frame connection toMain toThreaded server app,
    executors.onFrame frame connection (after toMain toThreaded server) app =
      executors.onFrame frame connection server app
  wire : ∀ frame connection server app,
    executors.onFrame (wireFrame { frame with isFragmented := 0 }) connection server app =
      executors.onFrame frame connection server app
  posts : ∀ {frame connection server app next requests},
    executors.onFrame frame connection server app = some (next, requests) →
    ∀ request ∈ requests, wired request = request ∧ FrameFits (internal request) ∧
      ∀ text ∈ texts (internal request),
        ∃ known ∈ connection.address :: addresses server, text = known.address

theorem announceConnection_after (toMain toThreaded : List InternalMessage) (address : MiscAddress)
    (server : Podrum α) :
    announceConnection executors address (serverAfter toMain toThreaded server) =
      serverAfter toMain toThreaded (announceConnection executors address server) := by
  have same : getRaknetConnection address (serverAfter toMain toThreaded server).raknet =
      getRaknetConnection address server.raknet := rfl
  unfold announceConnection
  rw [same]
  cases getRaknetConnection address server.raknet <;> rfl

theorem onMain_after (toMain toThreaded : List InternalMessage) (read : InternalMessage)
    (server : Podrum α) :
    onMain executors read (serverAfter toMain toThreaded server) =
      (onMain executors read server).map (serverAfter toMain toThreaded) := by
  cases read with
  | frame frame address =>
      exact onConnection_after toMain toThreaded (addToRaknetQueue_blind frame) address server
  | newIncomingConnection address =>
      exact congrArg some (announceConnection_after toMain toThreaded address server)
  | disconnectNotification address =>
      exact congrArg (fun raknet => some (server.setRaknet raknet))
        (disconnectRaknetClient_after toMain toThreaded address server.raknet)

theorem onThreaded_after (portable : Portable executors)
    (toMain toThreaded : List InternalMessage) (read : InternalMessage) (server : Podrum α) :
    onThreaded executors read (serverAfter toMain toThreaded server) =
      (onThreaded executors read server).map (serverAfter toMain toThreaded) := by
  cases read with
  | frame frame address =>
      have same : getRaknetConnection address (serverAfter toMain toThreaded server).raknet =
          getRaknetConnection address server.raknet := rfl
      simp only [onThreaded]
      rw [same]
      cases getRaknetConnection address server.raknet with
      | none => rfl
      | some connection =>
          have called := portable.blind frame connection toMain toThreaded server.raknet server.app
          dsimp only
          rw [show executors.onFrame frame connection (serverAfter toMain toThreaded server).raknet
            (serverAfter toMain toThreaded server).app = _ from called]
          cases executors.onFrame frame connection server.raknet server.app with
          | none => rfl
          | some result =>
              simp only [Option.bind_eq_bind, Option.bind_some, Option.map_some, postToMain,
                serverAfter, after, Podrum.setRaknet, Podrum.setApp, List.append_assoc]
  | newIncomingConnection address =>
      exact congrArg some (announceConnection_after toMain toThreaded address server)
  | disconnectNotification address => rfl

theorem onThreaded_wired (portable : Portable executors) (read : InternalMessage)
    (server : Podrum α) :
    onThreaded executors (wired read) server = onThreaded executors read server := by
  cases read with
  | frame frame address =>
      simp only [onThreaded, wired, portable.wire]
  | newIncomingConnection address => rfl
  | disconnectNotification address => rfl

theorem handleThreadedToMain_cons {server : Podrum α} {posted : InternalMessage}
    {rest : List InternalMessage} (queued : server.raknet.threadedToMain = posted :: rest) :
    handleThreadedToMain executors server =
      onMain executors posted
        (server.setRaknet { server.raknet with threadedToMain := rest }) := by
  rw [handleThreadedToMain, queued]
  cases posted <;> rfl

theorem handleMainToThreaded_cons {server : Podrum α} {posted : InternalMessage}
    {rest : List InternalMessage} (queued : server.raknet.mainToThreaded = posted :: rest) :
    handleMainToThreaded executors server =
      onThreaded executors posted
        (server.setRaknet { server.raknet with mainToThreaded := rest }) := by
  rw [handleMainToThreaded, queued]
  cases posted <;> rfl

/-! ## What can be written -/

/-- The texts of the addresses and the messages of the workers get through. -/
structure Passable (server : Podrum α) : Prop where
  table : ∀ address ∈ addresses server.raknet, TextFits address.address
  toMain : ∀ posted ∈ server.raknet.threadedToMain, wired posted = posted ∧ Passes posted
  toThreaded : ∀ posted ∈ server.raknet.mainToThreaded, ∀ text ∈ texts (internal posted),
    TextFits text

/-- The indices and the payload of each frame that waits for a worker fit. -/
def FramesFit (server : Podrum α) : Prop :=
  ∀ posted ∈ server.raknet.mainToThreaded, FrameFits (internal posted)

instance (read : Internal) : Decidable (FrameFits read) :=
  match read with
  | .frame read => inferInstanceAs (Decidable (read.frame.reliableFrameIndex.toNat < 2 ^ 24 ∧ _))
  | .newIncomingConnection _ => .isTrue trivial
  | .disconnectNotification _ => .isTrue trivial
  | .setOption _ => .isTrue trivial

instance (server : Podrum α) : Decidable (FramesFit server) :=
  inferInstanceAs (Decidable (∀ posted ∈ server.raknet.mainToThreaded, _))

section Step

variable {texts : AddressTexts} {configuration : Configuration} {server : Podrum α}

theorem internalStep_toBytes (passable : Passable server) :
    internalStep executors (toBytes server) =
      (handleThreadedToMain executors server).map toBytes := by
  have bytes := toBytes_eq server
  rw [internalStep, bytes]
  cases queued : server.raknet.threadedToMain with
  | nil =>
      rw [handleThreadedToMain, queued, Option.map_some, bytes, queued]
      rfl
  | cons posted rest =>
      obtain ⟨same, passes⟩ := passable.toMain posted (queued ▸ List.mem_cons_self)
      rw [List.map_cons, getQueue_cons]
      simp only [decode_encode passes, same, Option.bind_eq_bind, Option.bind_some]
      rw [map_post_after rest server.raknet.mainToThreaded rfl rfl, ← onMain_after,
        serverAfter_emptied, handleThreadedToMain_cons queued]

theorem workerStep_toBytes (portable : Portable executors) (passable : Passable server)
    (fit : FramesFit server) :
    workerStep executors (toBytes server) =
      (handleMainToThreaded executors server).map toBytes := by
  have bytes := toBytes_eq server
  rw [workerStep, bytes]
  cases queued : server.raknet.mainToThreaded with
  | nil =>
      rw [handleMainToThreaded, queued, Option.map_some, bytes, queued]
      rfl
  | cons posted rest =>
      have member : posted ∈ server.raknet.mainToThreaded := queued ▸ List.mem_cons_self
      have passes : Passes posted := ⟨fit posted member, passable.toThreaded posted member⟩
      rw [List.map_cons, getQueue_cons]
      simp only [decode_encode passes, onThreaded_wired portable, Option.bind_eq_bind,
        Option.bind_some]
      rw [map_post_after server.raknet.threadedToMain rest rfl rfl, ← onThreaded_after portable,
        serverAfter_emptied, handleMainToThreaded_cons queued]

/-- One step over buffers is the step over values. -/
theorem byteStep_toBytes (portable : Portable executors) (passable : Passable server)
    (fit : FramesFit server) (event : ServerEvent) :
    byteStep texts configuration executors (toBytes server) event =
      (serverStep texts configuration executors server event).map toBytes := by
  have bytes := toBytes_eq server
  have whole : serverAfter server.raknet.threadedToMain server.raknet.mainToThreaded
      (server.setRaknet (emptied server.raknet)) = server := serverAfter_emptied _ _ server
  have main : (toBytes server).threadedToMain = server.raknet.threadedToMain.map encode := by
    rw [bytes]
  have threaded : (toBytes server).mainToThreaded = server.raknet.mainToThreaded.map encode := by
    rw [bytes]
  have inside : (toBytes server).podrum = server.setRaknet (emptied server.raknet) := by
    rw [bytes]
  cases event with
  | packet received =>
      rw [byteStep, map_post_after _ _ main threaded, ← handleRaknetPacket_after, inside, whole]
      rfl
  | internal => exact internalStep_toBytes passable
  | update =>
      rw [byteStep, post_after _ _ main threaded, ← updateConnections_after, inside, whole]
      rfl
  | worker => exact workerStep_toBytes portable passable fit

end Step

/-! ## Whole runs -/

section Run

variable {texts : AddressTexts} {configuration : Configuration} {server next : Podrum α}

theorem texts_fromPeer {connected : Bool} {address : MiscAddress} {posted : InternalMessage}
    (peer : FromPeer connected address posted) :
    InternalMessages.texts (internal posted) = [address.address] := by
  cases posted with
  | frame frame sender =>
      obtain rfl := peer.1
      rfl
  | newIncomingConnection sender =>
      obtain rfl := (show sender = address from peer)
      rfl
  | disconnectNotification sender => exact absurd peer id

theorem passes_notification {address : MiscAddress} (fits : TextFits address.address) :
    Passes (.disconnectNotification address) :=
  ⟨trivial, fun _ member => List.mem_singleton.mp member ▸ fits⟩

/-- What the handlers of a connection post to the main thread. -/
theorem onConnection_requests {kind : Datagram → Prop} {address : MiscAddress}
    {action : Connection → RaknetServer → Option (Connection × RaknetServer)}
    (posts : ∀ connection after, action connection server.raknet = some after →
      Posts kind (connection, server.raknet) after)
    (success : onConnection address action server = some next) :
    ∀ posted ∈ next.raknet.threadedToMain, posted ∈ server.raknet.threadedToMain ∨
      ∃ known ∈ addresses server.raknet, posted = .disconnectNotification known := by
  obtain ⟨raknet, acted, rfl⟩ := Option.map_eq_some_iff.mp success
  unfold withConnection at acted
  split at acted
  · rename_i connection found
    obtain ⟨party, done, rfl⟩ := Option.map_eq_some_iff.mp acted
    obtain ⟨count, appended⟩ := (posts connection party done).toMain
    intro posted member
    have listed : posted ∈ party.2.threadedToMain := member
    rw [appended] at listed
    rcases List.mem_append.mp listed with early | late
    · exact Or.inl early
    · exact Or.inr ⟨connection.address, mem_addresses found, List.eq_of_mem_replicate late⟩
  · obtain rfl := Option.some.inj acted
    exact fun posted member => Or.inl member

theorem dispatch_requests {stream : List UInt8} {address : MiscAddress}
    (success : dispatch configuration stream address server = some next) :
    ∀ posted ∈ next.raknet.threadedToMain, posted ∈ server.raknet.threadedToMain ∨
      ∃ known ∈ addresses server.raknet, posted = .disconnectNotification known := by
  obtain rfl | ⟨reply, rfl⟩ | ⟨-, opens⟩ | ⟨action, acted, posts⟩ := dispatch_cases success
  · exact fun posted member => Or.inl member
  · exact fun posted member => Or.inl member
  · obtain ⟨⟨reply, raknet⟩, handled, opened⟩ := Option.bind_eq_some_iff.mp opens
    obtain ⟨⟨request, rest⟩, -, answered⟩ := Option.bind_eq_some_iff.mp handled
    cases answered
    obtain rfl := Option.some.inj opened
    exact fun posted member => Or.inl member
  · exact onConnection_requests posts acted

theorem Passable.dispatched {stream : List UInt8} {address : MiscAddress}
    (passable : Passable server) (heard : TextFits address.address)
    (success : dispatch configuration stream address server = some next) : Passable next := by
  have main : ∀ posted ∈ next.raknet.threadedToMain, wired posted = posted ∧ Passes posted := by
    intro posted member
    rcases dispatch_requests success posted member with early | ⟨known, listed, rfl⟩
    · exact passable.toMain posted early
    · exact ⟨rfl, passes_notification (passable.table known listed)⟩
  cases dispatch_change success with
  | talks messages table opened posted senders =>
      refine ⟨table ▸ passable.table, main, fun message member text inside => ?_⟩
      rw [posted] at member
      rcases List.mem_append.mp member with early | late
      · exact passable.toThreaded message early text inside
      · obtain ⟨known, listed, peer⟩ := senders message late
        rw [texts_fromPeer peer] at inside
        exact List.mem_singleton.mp inside ▸ passable.table known listed
  | opens opening cause absent table opened posted =>
      obtain rfl := Option.some.inj cause
      refine ⟨fun other member => ?_, main, posted ▸ passable.toThreaded⟩
      rw [table] at member
      rcases List.mem_append.mp member with early | last
      · exact passable.table other early
      · exact List.mem_singleton.mp last ▸ heard
  | closes closing cause => cases cause

/-- The text of each datagram's address. -/
def Heard : ServerEvent → Prop
  | .packet (some data) => TextFits data.address.address
  | _ => True

theorem receiveData_fits {received : Option SocketData} {data : SocketData} {raknet : RaknetServer}
    (passable : Passable server) (heard : Heard (.packet received))
    (success : receiveData texts received server.raknet = some (data, raknet)) :
    TextFits data.address.address ∧ Passable (server.setRaknet raknet) := by
  have nothing : TextFits noData.address.address := ⟨List.not_mem_nil, by decide⟩
  cases received with
  | none =>
      obtain ⟨rfl, rfl⟩ := Prod.mk.inj (Option.some.inj success)
      exact ⟨nothing, passable⟩
  | some read =>
      unfold receiveData at success
      dsimp only at success
      split at success
      · obtain ⟨resolved, written, same⟩ := Option.map_eq_some_iff.mp success
        obtain ⟨rfl, rfl⟩ := Prod.mk.inj same
        refine ⟨heard, ?_⟩
        cases texts with
        | copied =>
            obtain rfl := Option.some.inj written
            exact passable
        | staticBuffer =>
            have table := PeerAddress.inetNtoa_addresses written
            obtain ⟨connections, -, rfl⟩ := Option.map_eq_some_iff.mp written
            refine ⟨fun address member => ?_, passable.toMain, passable.toThreaded⟩
            obtain ⟨other, -, rfl⟩ := List.mem_map.mp (table ▸ member)
            exact heard
      · obtain ⟨rfl, rfl⟩ := Prod.mk.inj (Option.some.inj success)
        exact ⟨nothing, passable⟩

theorem Passable.onConnection {kind : Datagram → Prop} {address : MiscAddress}
    {action : Connection → RaknetServer → Option (Connection × RaknetServer)}
    (passable : Passable server)
    (posts : ∀ connection after, action connection server.raknet = some after →
      Posts kind (connection, server.raknet) after)
    (success : onConnection address action server = some next) : Passable next := by
  have main : ∀ posted ∈ next.raknet.threadedToMain, wired posted = posted ∧ Passes posted := by
    intro posted member
    rcases onConnection_requests posts success posted member with early | ⟨known, listed, rfl⟩
    · exact passable.toMain posted early
    · exact ⟨rfl, passes_notification (passable.table known listed)⟩
  obtain ⟨raknet, acted, rfl⟩ := Option.map_eq_some_iff.mp success
  unfold withConnection at acted
  split at acted
  · rename_i connection found
    obtain ⟨party, done, rfl⟩ := Option.map_eq_some_iff.mp acted
    obtain ⟨table, messages, appended, each⟩ :=
      storeConnection_talks (mem_addresses found) (posts connection party done)
    refine ⟨fun other member => ?_, main, fun posted member text inside => ?_⟩
    · exact passable.table other (table ▸ member)
    · have listed : posted ∈ (storeConnection party).mainToThreaded := member
      rw [appended] at listed
      rcases List.mem_append.mp listed with early | late
      · exact passable.toThreaded posted early text inside
      · rw [texts_fromPeer (each posted late)] at inside
        exact List.mem_singleton.mp inside ▸ passable.table _ (mem_addresses found)
  · obtain rfl := Option.some.inj acted
    exact passable

theorem Passable.announced (passable : Passable server) (address : MiscAddress) :
    Passable (announceConnection executors address server) := by
  have same := (announceConnection_raknet executors address server).1
  exact ⟨same ▸ passable.table, same ▸ passable.toMain, same ▸ passable.toThreaded⟩

theorem Passable.internal {posted : InternalMessage} (passable : Passable server)
    (passes : Passes posted) (success : onMain executors posted server = some next) :
    Passable next := by
  cases posted with
  | frame frame address =>
      exact passable.onConnection
        (fun _ _ added => posts_of_sending (addToRaknetQueue_sending added)) success
  | newIncomingConnection address =>
      obtain rfl := Option.some.inj success
      exact passable.announced address
  | disconnectNotification address =>
      obtain rfl := Option.some.inj success
      obtain ⟨table, posts, kept⟩ := disconnectRaknetClient_effect address server.raknet
      refine ⟨fun other member => ?_, fun posted member => ?_, fun posted member text inside => ?_⟩
      · exact passable.table other (List.mem_of_mem_filter (table ▸ member))
      · exact passable.toMain posted (kept ▸ member)
      · rcases List.mem_append.mp (posts ▸ member) with early | last
        · exact passable.toThreaded posted early text inside
        · obtain rfl := List.mem_singleton.mp last
          exact passes.texts text inside

theorem Passable.worked (portable : Portable executors) {posted : InternalMessage}
    (passable : Passable server) (success : onThreaded executors posted server = some next) :
    Passable next := by
  cases posted with
  | frame frame address =>
      simp only [onThreaded] at success
      split at success
      · rename_i connection found
        obtain ⟨⟨app, requests⟩, called, done⟩ := Option.bind_eq_some_iff.mp success
        obtain rfl := Option.some.inj done
        refine ⟨passable.table, fun request member => ?_, passable.toThreaded⟩
        rcases List.mem_append.mp member with early | late
        · exact passable.toMain request early
        · obtain ⟨same, fits, known⟩ := portable.posts called request late
          refine ⟨same, fits, fun text inside => ?_⟩
          obtain ⟨address, listed, rfl⟩ := known text inside
          rcases List.mem_cons.mp listed with rfl | member
          · exact passable.table _ (mem_addresses found)
          · exact passable.table address member
      · obtain rfl := Option.some.inj success
        exact passable
  | newIncomingConnection address =>
      obtain rfl := Option.some.inj success
      exact passable.announced address
  | disconnectNotification address =>
      obtain rfl := Option.some.inj success
      exact ⟨passable.table, passable.toMain, passable.toThreaded⟩

theorem Passable.step (portable : Portable executors) {event : ServerEvent}
    (passable : Passable server) (heard : Heard event)
    (stepped : serverStep texts configuration executors server event = some next) :
    Passable next := by
  cases event with
  | packet received =>
      obtain ⟨⟨data, raknet⟩, read, dispatched⟩ := Option.bind_eq_some_iff.mp stepped
      obtain ⟨fits, resolved⟩ := receiveData_fits passable heard read
      have sender : TextFits
          ({ data.address with version := configuration.version } : MiscAddress).address := fits
      exact resolved.dispatched sender dispatched
  | internal =>
      cases queued : server.raknet.threadedToMain with
      | nil =>
          rw [serverStep, handleThreadedToMain, queued] at stepped
          obtain rfl := Option.some.inj stepped
          exact passable
      | cons posted rest =>
          rw [serverStep, handleThreadedToMain_cons queued] at stepped
          have taken : Passable (server.setRaknet { server.raknet with threadedToMain := rest }) :=
            ⟨passable.table, fun request member =>
              passable.toMain request (queued ▸ List.mem_cons_of_mem posted member),
              passable.toThreaded⟩
          exact taken.internal (passable.toMain posted (queued ▸ List.mem_cons_self)).2 stepped
  | update =>
      obtain rfl := Option.some.inj stepped
      obtain ⟨table, others⟩ := updateRaknetConnections_effect server.raknet
      refine ⟨fun address member => passable.table address (table ▸ member), ?_, ?_⟩
      · rw [updateConnections, Podrum.setRaknet, others]
        exact passable.toMain
      · rw [updateConnections, Podrum.setRaknet, others]
        exact passable.toThreaded
  | worker =>
      cases queued : server.raknet.mainToThreaded with
      | nil =>
          rw [serverStep, handleMainToThreaded, queued] at stepped
          obtain rfl := Option.some.inj stepped
          exact passable
      | cons posted rest =>
          rw [serverStep, handleMainToThreaded_cons queued] at stepped
          have taken : Passable (server.setRaknet { server.raknet with mainToThreaded := rest }) :=
            ⟨passable.table, passable.toMain, fun message member =>
              passable.toThreaded message (queued ▸ List.mem_cons_of_mem posted member)⟩
          exact taken.worked portable stepped

theorem passable_start (app : α) : Passable ({ app } : Podrum α) :=
  ⟨fun _ member => absurd member List.not_mem_nil, fun _ member => absurd member List.not_mem_nil,
    fun _ member => absurd member List.not_mem_nil⟩

theorem run_toBytes (portable : Portable executors) (events : List ServerEvent)
    (passable : Passable server) (heard : ∀ event ∈ events, Heard event)
    (fit : ∀ state, Visits (serverStep texts configuration executors) events server state →
      FramesFit state) :
    run (byteStep texts configuration executors) events (toBytes server) =
      (run (serverStep texts configuration executors) events server).map toBytes := by
  induction events generalizing server with
  | nil => rfl
  | cons event rest ih =>
      rw [run, run, byteStep_toBytes portable passable (fit server (Or.inl rfl))]
      cases stepped : serverStep texts configuration executors server event with
      | none => rfl
      | some next =>
          exact ih (passable.step portable (heard event List.mem_cons_self) stepped)
            (fun other member => heard other (List.mem_cons_of_mem _ member))
            fun state visited => fit state (Or.inr ⟨next, stepped, visited⟩)

end Run

end Executors

/-- The threads that pass buffers do what the threads that pass values do: a
run is defined for both or for neither, and ends in the same connections, the
same application and the same messages, written. -/
theorem byteQueues_refine {α : Type} (texts : AddressTexts) (configuration : Configuration)
    (executors : Executors α) (portable : Portable executors) (app : α)
    (events : List ServerEvent) (heard : ∀ event ∈ events, Heard event)
    (fit : ∀ state, Visits (serverStep texts configuration executors) events { app } state →
      FramesFit state) :
    run (byteStep texts configuration executors) events { podrum := { app } } =
      (run (serverStep texts configuration executors) events { app }).map toBytes :=
  run_toBytes portable events (passable_start app) heard fit

/-- An application that counts the frames and answers each with one of its own. -/
def echoExecutors : Executors Nat where
  onFrame := fun _ connection _ app =>
    some (app + 1, [.frame { stream := [0xfe] } connection.address])
  onNewIncomingConnection := fun _ app => app
  onDisconnectNotification := fun _ app => app

theorem echoExecutors_portable : Portable echoExecutors where
  blind _ _ _ _ _ _ := rfl
  wire _ _ _ _ := rfl
  posts called request member := by
    cases called
    obtain rfl := List.mem_singleton.mp member
    have fits : (0 : UInt32).toNat < 2 ^ 24 := by decide
    exact ⟨rfl, ⟨fits, fits, fits, Nat.one_lt_two_pow (by decide)⟩, fun text inside =>
      ⟨_, List.mem_cons_self, List.mem_singleton.mp inside⟩⟩

def echoed : List ServerEvent :=
  [.packet (some opening), .packet (some lastFrames), .worker, .internal, .internal, .worker, .update]

theorem byteQueues_refine_echoed :
    ∃ server, run (byteStep .copied podrum echoExecutors) echoed { podrum := { app := 0 } } =
        some (toBytes server) ∧
      run (serverStep .copied podrum echoExecutors) echoed { app := 0 } = some server ∧
      server.app = 1 := by
  have computed : (run (serverStep .copied podrum echoExecutors) echoed { app := 0 }).map
      Podrum.app = some 1 := by decide
  have checked : everywhere (serverStep .copied podrum echoExecutors)
      (fun server => decide (FramesFit server)) echoed { app := 0 } = true := by decide
  obtain ⟨server, returned, counted⟩ := Option.map_eq_some_iff.mp computed
  have heard : ∀ event ∈ echoed, Heard event := by
    have text : TextFits firstHost := by decide
    intro event member
    simp only [echoed, List.mem_cons, List.not_mem_nil, or_false] at member
    rcases member with rfl | rfl | rfl | rfl | rfl | rfl | rfl
    · exact text
    · exact text
    all_goals trivial
  have fit : ∀ state, Visits (serverStep .copied podrum echoExecutors) echoed { app := 0 } state →
      FramesFit state := by
    intro state visited
    have fits := everywhere_visits checked visited
    exact of_decide_eq_true fits
  have refined := byteQueues_refine .copied podrum echoExecutors echoExecutors_portable 0 echoed
    heard fit
  rw [returned] at refined
  exact ⟨server, refined, returned, counted⟩

end PodrumRakNet.ByteQueues
