import PodrumFormal.Lib.EventRun
import PodrumFormal.RakNet.Handshake
import PodrumFormal.RakNet.Server

/-!
# The main thread and the worker

`tick_raknet` takes one datagram, then every message of `threaded_to_main`, and
flushes the connections.  The worker takes the messages of `main_to_threaded`
and calls the executors of the application, which post messages back.  The
messages that set an option or shut the server down are not among them.
-/

set_option autoImplicit false

namespace PodrumRakNet.Threads

open EventRun PodrumRakNet.Frame PodrumRakNet.FrameSet PodrumRakNet.Acknowledge
open PodrumRakNet.Packet PodrumRakNet.Connections PodrumRakNet.SendQueue PodrumRakNet.Handler
open PodrumRakNet.Handshake PodrumRakNet.Server

/-- `onFrame` also gives the messages it posts to the main thread. -/
structure Executors (α : Type) where
  onFrame : MiscFrame → Connection → RaknetServer → α → Option (α × List InternalMessage)
  onNewIncomingConnection : Connection → α → α
  onDisconnectNotification : MiscAddress → α → α

structure Configuration extends Offline where
  environment : Environment
  version : UInt8

/-- The server with its application.  `replies` are the offline answers sent, and
`opened` the addresses a connection was added for, in order. -/
structure Podrum (α : Type) where
  raknet : RaknetServer := {}
  app : α
  replies : List (MiscAddress × List UInt8) := []
  opened : List MiscAddress := []

variable {α : Type}

def Podrum.setRaknet (server : Podrum α) (raknet : RaknetServer) : Podrum α :=
  { server with raknet }

def Podrum.setApp (server : Podrum α) (app : α) : Podrum α := { server with app }

def sendReply (address : MiscAddress) (stream : List UInt8) (server : Podrum α) : Podrum α :=
  { server with replies := server.replies ++ [(address, stream)] }

/-! ## Receiving a datagram -/

structure SocketData where
  address : MiscAddress
  stream : List UInt8

/-- Whether an address keeps a text of its own or the pointer to the one buffer
of `inet_ntoa`. -/
inductive AddressTexts
  | copied
  | staticBuffer
  deriving DecidableEq

def withText (text : List UInt8) (connection : Connection) : Connection :=
  { connection with address := { connection.address with address := text } }

/-- The buffer of `inet_ntoa` is written, and with it the text of every
connection that points to it. -/
def inetNtoa (texts : AddressTexts) (text : List UInt8) (server : RaknetServer) :
    Option RaknetServer :=
  match texts with
  | .copied => some server
  | .staticBuffer =>
      (server.connections.mapSlots (withText text)).map fun connections =>
        { server with connections }

/-- What `receive_data` returns where `recvfrom` has no datagram for it. -/
def noData : SocketData := ⟨⟨0, [], 0⟩, []⟩

def receiveData (texts : AddressTexts) (received : Option SocketData) (server : RaknetServer) :
    Option (SocketData × RaknetServer) :=
  match received with
  | some data =>
      if data.stream.length < 65535 then
        (inetNtoa texts data.address.address server).map fun server =>
          (⟨{ data.address with version := 4 }, data.stream⟩, server)
      else some (noData, server)
  | none => some (noData, server)

/-! ## One datagram -/

def onConnection (address : MiscAddress)
    (action : Connection → RaknetServer → Option (Connection × RaknetServer))
    (server : Podrum α) : Option (Podrum α) :=
  (withConnection address action server.raknet).map server.setRaknet

def openConnection (configuration : Configuration) (stream : List UInt8) (address : MiscAddress)
    (server : Podrum α) : Option (Podrum α) := do
  let (reply, raknet) ← handleOpenConnectionRequest2 configuration.environment
    configuration.toOffline stream address server.raknet
  let opened := if hasRaknetConnection address server.raknet then [] else [address]
  some (sendReply address reply { server with raknet, opened := server.opened ++ opened })

/-- `handle_raknet_packet` on what was received. -/
def dispatch (configuration : Configuration) (stream : List UInt8) (address : MiscAddress)
    (server : Podrum α) : Option (Podrum α) :=
  match stream.head? with
  | none => some server
  | some packetId =>
      if packetId = idUnconnectedPing then
        (handleUnconnectedPing configuration.toOffline stream).map fun reply =>
          sendReply address reply server
      else if packetId = idOpenConnectionRequest1 then
        (handleOpenConnectionRequest1 configuration.toOffline stream).map fun reply =>
          sendReply address reply server
      else if packetId = idOpenConnectionRequest2 then
        openConnection configuration stream address server
      else if packetId = idAck then
        onConnection address (fun connection raknet =>
          (handleAck stream connection).map fun connection => (connection, raknet)) server
      else if packetId = idNack then onConnection address (handleNack stream) server
      else if packetId &&& idFrameSet ≠ 0 then
        onConnection address (handleFrameSet configuration.environment stream) server
      else some server

def handleRaknetPacket (texts : AddressTexts) (configuration : Configuration)
    (received : Option SocketData) (server : Podrum α) : Option (Podrum α) := do
  let (data, raknet) ← receiveData texts received server.raknet
  dispatch configuration data.stream { data.address with version := configuration.version }
    (server.setRaknet raknet)

/-! ## Internal messages -/

def announceConnection (executors : Executors α) (address : MiscAddress) (server : Podrum α) :
    Podrum α :=
  match getRaknetConnection address server.raknet with
  | some connection => server.setApp (executors.onNewIncomingConnection connection server.app)
  | none => server

/-- `handle_raknet_internal` with `INTERNAL_THREADED_TO_MAIN`. -/
def handleThreadedToMain (executors : Executors α) (server : Podrum α) : Option (Podrum α) :=
  match server.raknet.threadedToMain with
  | [] => some server
  | message :: rest =>
      let taken := server.setRaknet { server.raknet with threadedToMain := rest }
      match message with
      | .frame frame address => onConnection address (addToRaknetQueue frame) taken
      | .disconnectNotification address =>
          some (taken.setRaknet (disconnectRaknetClient address taken.raknet))
      | .newIncomingConnection address => some (announceConnection executors address taken)

def postToMain (requests : List InternalMessage) (server : Podrum α) : Podrum α :=
  server.setRaknet
    { server.raknet with threadedToMain := server.raknet.threadedToMain ++ requests }

/-- `handle_raknet_internal` with `INTERNAL_MAIN_TO_THREADED`. -/
def handleMainToThreaded (executors : Executors α) (server : Podrum α) : Option (Podrum α) :=
  match server.raknet.mainToThreaded with
  | [] => some server
  | message :: rest =>
      let taken := server.setRaknet { server.raknet with mainToThreaded := rest }
      match message with
      | .frame frame address =>
          match getRaknetConnection address taken.raknet with
          | some connection => do
              let (app, requests) ← executors.onFrame frame connection taken.raknet taken.app
              some (postToMain requests (taken.setApp app))
          | none => some taken
      | .disconnectNotification address =>
          some (taken.setApp (executors.onDisconnectNotification address taken.app))
      | .newIncomingConnection address => some (announceConnection executors address taken)

/-! ## Ticks -/

/-- The loop of `tick_raknet`, for that many messages. -/
def drain (executors : Executors α) : Nat → Podrum α → Option (Podrum α)
  | 0, server => some server
  | count + 1, server => do
      let next ← handleThreadedToMain executors server
      drain executors count next

def updateConnections (server : Podrum α) : Podrum α :=
  server.setRaknet (updateRaknetConnections server.raknet)

/-- Nothing that the main thread does itself posts to `threaded_to_main` while
the loop runs. -/
def tickRaknet (texts : AddressTexts) (configuration : Configuration) (executors : Executors α)
    (received : Option SocketData) (server : Podrum α) : Option (Podrum α) := do
  let handled ← handleRaknetPacket texts configuration received server
  let drained ← drain executors handled.raknet.threadedToMain.length handled
  some (updateConnections drained)

/-! ## Runs -/

/-- `internal` and `worker` take one message each. -/
inductive ServerEvent
  | packet (received : Option SocketData)
  | internal
  | update
  | worker

def serverStep (texts : AddressTexts) (configuration : Configuration) (executors : Executors α)
    (server : Podrum α) : ServerEvent → Option (Podrum α)
  | .packet received => handleRaknetPacket texts configuration received server
  | .internal => handleThreadedToMain executors server
  | .update => some (updateConnections server)
  | .worker => handleMainToThreaded executors server

section Ticks

variable {texts : AddressTexts} {configuration : Configuration} {executors : Executors α}

theorem drain_run (count : Nat) (server : Podrum α) :
    drain executors count server =
      run (serverStep texts configuration executors) (List.replicate count .internal) server := by
  induction count generalizing server with
  | zero => rfl
  | succ count ih =>
      rw [List.replicate_succ, drain, run]
      congr 1
      funext next
      exact ih next

/-- A tick is a run of smaller steps. -/
theorem tickRaknet_run {received : Option SocketData} {server next : Podrum α}
    (ticked : tickRaknet texts configuration executors received server = some next) :
    ∃ count, run (serverStep texts configuration executors)
      (.packet received :: (List.replicate count .internal ++ [.update])) server = some next := by
  obtain ⟨handled, first, ticked⟩ := Option.bind_eq_some_iff.mp ticked
  obtain ⟨drained, emptied, ticked⟩ := Option.bind_eq_some_iff.mp ticked
  refine ⟨handled.raknet.threadedToMain.length, Option.bind_eq_some_iff.mpr ⟨handled, first, ?_⟩⟩
  rw [run_snoc, ← drain_run, emptied]
  exact ticked

end Ticks

end PodrumRakNet.Threads
