import PodrumFormal.Minecraft.GameGate
import PodrumFormal.RakNet.PeerAddress

/-!
# Players and their connections

The executors of the game server on top of the two threads.  A player record
outlives its connection only as long as the notification of the disconnect
waits for the worker.
-/

set_option autoImplicit false

namespace PodrumMinecraft.PlayerSessions

open PodrumRakNet.Connections hiding addressKey
open PodrumMisc.CString PodrumRakNet.Frame PodrumRakNet.Packet PodrumRakNet.Server
open PodrumRakNet.Threads PodrumRakNet.OpenPeers PodrumRakNet.PeerAddress
open Player Login Dispatch GameGate

def idGame : UInt8 := 0xfe

/-- `readGame` is `get_packet_game` with the decoders of the sub-packets, and
`frames` the frames that carry the packets sent. -/
structure GameCodec where
  readGame : List UInt8 → Option (List GamePacket)
  frames : List Action → List (MiscAddress × MiscFrame)

/-! ## The executors -/

def postFrame (server : RaknetServer) (entry : MiscAddress × MiscFrame) : List InternalMessage :=
  if hasRaknetConnection entry.1 server then [.frame entry.2 entry.1] else []

def postDisconnect : Action → List InternalMessage
  | .disconnectNotification address => [.disconnectNotification address]
  | _ => []

/-- `none` where the payload is empty or cannot be decoded. -/
def readFrame (codec : GameCodec) (stream : List UInt8) : Option GameFrame := do
  let packetId ← stream.head?
  if packetId = idGame then (codec.readGame stream).map GameFrame.game else some .other

def onFrame (environment : GameEnvironment) (codec : GameCodec) (frame : MiscFrame)
    (connection : Connection) (server : RaknetServer) (state : GameState) :
    Option (GameState × List InternalMessage) := do
  let gameFrame ← readFrame codec frame.stream
  let next ← (onF environment connection.address gameFrame state).toOption
  let actions := next.actions.drop state.actions.length
  some (next, (codec.frames actions).flatMap (postFrame server) ++ actions.flatMap postDisconnect)

def onDn (address : MiscAddress) (state : GameState) : GameState :=
  { state with manager := removeMinecraftPlayer address state.manager }

/-- `on_nic` only prints. -/
def gameExecutors (environment : GameEnvironment) (codec : GameCodec) : Executors GameState where
  onFrame := onFrame environment codec
  onNewIncomingConnection := fun _ state => state
  onDisconnectNotification := onDn

/-! ## The player records after a frame -/

def hasPlayer (address : MiscAddress) (manager : MinecraftPlayerManager) : Prop :=
  (spawnedOf address manager).isSome

theorem hasPlayer_iff (address : MiscAddress) (manager : MinecraftPlayerManager) :
    hasPlayer address manager ↔
      ∃ player ∈ manager.slots, playerKey player = addressKey address := by
  rw [hasPlayer, spawnedOf, Option.isSome_map, getMinecraftPlayerAddress]
  constructor
  · intro present
    obtain ⟨player, found⟩ := Option.isSome_iff_exists.mp present
    exact ⟨player, KeyedArray.find_some found⟩
  · intro present
    rcases present with ⟨player, member, same⟩
    rw [← same, KeyedArray.find_of_mem member]
    rfl

theorem hasPlayer_remove {address other : MiscAddress} {manager : MinecraftPlayerManager}
    (present : hasPlayer other (removeMinecraftPlayer address manager)) :
    hasPlayer other manager ∧ addressKey other ≠ addressKey address := by
  rw [hasPlayer_iff] at present ⊢
  rcases present with ⟨player, member, same⟩
  obtain ⟨kept, different⟩ := (KeyedArray.mem_deduct _ _ _).mp member
  exact ⟨⟨player, kept, same⟩, same ▸ different⟩

section Frame

variable {environment : GameEnvironment} {address : MiscAddress} {state next : GameState}

theorem settings_players {protocolVersion : Int32}
    (returned : handleRequestNetworkSettings environment address protocolVersion state = .ok next)
    {other : MiscAddress} (present : hasPlayer other next.manager) :
    hasPlayer other state.manager ∨ addressKey other = addressKey address := by
  unfold handleRequestNetworkSettings at returned
  split at returned
  · obtain ⟨entityUniqueId, -, returned⟩ := bind_eq_ok.mp returned
    obtain ⟨entityRuntimeId, -, returned⟩ := bind_eq_ok.mp returned
    obtain rfl := Except.ok.inj returned
    rw [hasPlayer, spawnedOf_add, Option.isSome_or, Bool.or_eq_true] at present
    rcases present with old | new
    · exact Or.inl old
    · right
      split at new
      · rename_i same
        exact same.symm
      · cases new
  · obtain rfl := Except.ok.inj returned
    exact Or.inl present

theorem handleGamePacket_players {i : Nat} {packet : GamePacket} {goesOn : Bool}
    (returned : handleGamePacket environment address i packet state = .ok (next, goesOn))
    {other : MiscAddress} (present : hasPlayer other next.manager) :
    hasPlayer other state.manager ∨ addressKey other = addressKey address := by
  rcases handleGamePacket_cases returned with
    ⟨protocolVersion, rfl, handled⟩ | ⟨login, rfl, handled⟩ | ⟨-, -, rfl⟩ |
      ⟨-, player, after, actions, -, -, rfl⟩
  · exact settings_players handled present
  · obtain ⟨⟨manager, outcome⟩, checked, handled⟩ := bind_eq_ok.mp handled
    obtain rfl := Except.ok.inj handled
    rw [hasPlayer, handlePacketLogin_keeps checked] at present
    exact Or.inl present
  · exact Or.inl present
  · left
    rw [hasPlayer, spawnedOf_replace] at present
    split at present
    · rwa [Option.isSome_map] at present
    · exact present

theorem handleBatch_players {packets : List GamePacket} {other : MiscAddress} :
    ∀ {i : Nat} {state : GameState},
      handleBatch environment address i packets state = .ok next →
      hasPlayer other next.manager →
      hasPlayer other state.manager ∨ addressKey other = addressKey address := by
  induction packets with
  | nil =>
      intro i state returned present
      obtain rfl := Except.ok.inj returned
      exact Or.inl present
  | cons packet packets ih =>
      intro i state returned present
      obtain ⟨⟨middle, goesOn⟩, round, returned⟩ := bind_eq_ok.mp returned
      dsimp only at returned
      split at returned
      · rcases ih returned present with earlier | own
        · exact handleGamePacket_players round earlier
        · exact Or.inr own
      · obtain rfl := Except.ok.inj returned
        exact handleGamePacket_players round present

/-- A frame adds a player at most for the connection it came from. -/
theorem onFrame_players {codec : GameCodec} {frame : MiscFrame} {connection : Connection}
    {server : RaknetServer} {requests : List InternalMessage}
    (returned : onFrame environment codec frame connection server state = some (next, requests))
    {other : MiscAddress} (present : hasPlayer other next.manager) :
    hasPlayer other state.manager ∨ addressKey other = addressKey connection.address := by
  obtain ⟨gameFrame, _, returned⟩ := Option.bind_eq_some_iff.mp returned
  obtain ⟨after, called, returned⟩ := Option.bind_eq_some_iff.mp returned
  obtain ⟨rfl, -⟩ := Prod.mk.inj (Option.some.inj returned)
  have result : onF environment connection.address gameFrame state = .ok after := by
    cases outcome : onF environment connection.address gameFrame state with
    | error fault => rw [outcome] at called; cases called
    | ok value => rw [outcome] at called; exact congrArg _ (Option.some.inj called)
  cases gameFrame with
  | game packets => exact handleBatch_players result present
  | other =>
      obtain rfl := Except.ok.inj result
      exact Or.inl present

end Frame

/-! ## The invariant -/

def NotificationWaits (address : MiscAddress) (queue : List InternalMessage) : Prop :=
  ∃ other, addressKey other = addressKey address ∧ .disconnectNotification other ∈ queue

def Accounted (address : MiscAddress) (server : Podrum GameState) : Prop :=
  hasRaknetConnection address server.raknet = true ∨
    NotificationWaits address server.raknet.mainToThreaded

/-- Every player has a connection or a notification that removes it. -/
def PlayersAccounted (server : Podrum GameState) : Prop :=
  ∀ player ∈ server.app.manager.slots, Accounted player.address server

theorem accounted_congr {address other : MiscAddress} {server : Podrum GameState}
    (same : addressKey address = addressKey other) :
    Accounted address server ↔ Accounted other server := by
  rw [Accounted, Accounted, hasRaknetConnection_addresses, hasRaknetConnection_addresses,
    NotificationWaits, NotificationWaits, same]
  rw [show peerKey address = peerKey other from same]

theorem playersAccounted_iff (server : Podrum GameState) :
    PlayersAccounted server ↔
      ∀ address, hasPlayer address server.app.manager → Accounted address server := by
  constructor
  · intro holds address present
    obtain ⟨player, member, same⟩ := (hasPlayer_iff _ _).mp present
    exact (accounted_congr same).mp (holds player member)
  · intro holds player member
    exact holds player.address ((hasPlayer_iff _ _).mpr ⟨player, member, rfl⟩)

section Steps

variable {environment : GameEnvironment} {codec : GameCodec} {configuration : Configuration}
  {server next : Podrum GameState}

/-- The main thread posts the notification before it removes the connection. -/
theorem change_keeps {sender : Option MiscAddress} {address : MiscAddress}
    (holds : Accounted address server) (change : TableChange sender server next) :
    Accounted address next := by
  rw [Accounted, hasRaknetConnection_addresses] at holds ⊢
  cases change with
  | talks messages table opened posted =>
      rw [table, posted]
      rcases holds with connected | waits
      · exact Or.inl connected
      · rcases waits with ⟨other, same, member⟩
        exact Or.inr ⟨other, same, List.mem_append_left _ member⟩
  | opens opening cause absent table opened posted =>
      rw [table, posted, List.map_append]
      rcases holds with connected | waits
      · exact Or.inl (List.mem_append_left _ connected)
      · exact Or.inr waits
  | closes closing cause table opened posted =>
      rw [table, posted]
      by_cases own : peerKey closing = peerKey address
      · exact Or.inr ⟨closing, own, by simp⟩
      rcases holds with connected | waits
      · left
        obtain ⟨other, member, same⟩ := List.mem_map.mp connected
        refine List.mem_map.mpr ⟨other, List.mem_filter.mpr ⟨member, ?_⟩, same⟩
        rw [same]
        exact decide_eq_true (Ne.symm own)
      · rcases waits with ⟨other, same, member⟩
        exact Or.inr ⟨other, same, List.mem_append_left _ member⟩

/-- Of a message that is not a notification for the address. -/
theorem taken_keeps {address : MiscAddress} {message : InternalMessage}
    {rest : List InternalMessage} (holds : Accounted address server)
    (queued : server.raknet.mainToThreaded = message :: rest)
    (other : ∀ closed, message = .disconnectNotification closed →
      addressKey closed ≠ addressKey address)
    (connections : next.raknet.connections = server.raknet.connections)
    (taken : next.raknet.mainToThreaded = rest) : Accounted address next := by
  rw [Accounted, hasRaknetConnection, connections, taken]
  rcases holds with connected | waits
  · exact Or.inl connected
  · right
    rcases waits with ⟨closed, same, member⟩
    rw [queued] at member
    rcases List.mem_cons.mp member with head | behind
    · exact absurd same (other closed head.symm)
    · exact ⟨closed, same, behind⟩

theorem worker_keeps (holds : PlayersAccounted server)
    (success : handleMainToThreaded (gameExecutors environment codec) server = some next) :
    PlayersAccounted next := by
  rw [playersAccounted_iff] at holds ⊢
  intro address present
  obtain ⟨_, rfl⟩ | ⟨message, rest, queued, taken, connections, _, called⟩ :=
    handleMainToThreaded_cases success
  · exact holds address present
  have keep (old : hasPlayer address server.app.manager)
      (other : ∀ closed, message = .disconnectNotification closed →
        addressKey closed ≠ addressKey address) : Accounted address next :=
    taken_keeps (holds address old) queued other connections taken
  cases message with
  | frame frame sender =>
      rcases called with same | ⟨connection, raknet, requests, found, called⟩
      · exact keep (same ▸ present) fun _ notification => by cases notification
      · rcases onFrame_players called present with old | own
        · exact keep old fun _ notification => by cases notification
        · left
          rw [hasRaknetConnection_addresses, addresses, connections]
          have key : peerKey connection.address = peerKey address := own.symm
          exact key ▸ List.mem_map_of_mem (mem_addresses found)
  | disconnectNotification closed =>
      rw [called] at present
      obtain ⟨old, different⟩ := hasPlayer_remove present
      refine keep old fun other notification => ?_
      cases notification
      exact different.symm
  | newIncomingConnection sender =>
      have same : next.app = server.app := by
        rcases called with same | ⟨connection, same⟩
        · exact same
        · exact same
      exact keep (same ▸ present) fun _ notification => by cases notification

theorem main_keeps {sender : Option MiscAddress} (holds : PlayersAccounted server)
    (sameApp : next.app = server.app) (change : TableChange sender server next) :
    PlayersAccounted next := by
  intro player member
  rw [sameApp] at member
  exact change_keeps (holds player member) change

theorem packet_keeps {received : Option SocketData} (holds : PlayersAccounted server)
    (success : handleRaknetPacket .copied configuration received server = some next) :
    PlayersAccounted next := by
  obtain ⟨⟨data, raknet⟩, heard, success⟩ := Option.bind_eq_some_iff.mp success
  obtain ⟨rfl, _⟩ := receiveData_copied heard
  exact main_keeps holds (dispatch_app success) (dispatch_change success)

theorem serverStep_keeps {event : ServerEvent} (holds : PlayersAccounted server)
    (stepped : serverStep .copied configuration (gameExecutors environment codec) server event =
      some next) : PlayersAccounted next := by
  cases event with
  | packet received => exact packet_keeps holds stepped
  | internal =>
      exact main_keeps holds (handleThreadedToMain_app (fun _ _ => rfl) stepped)
        (handleThreadedToMain_change stepped).1
  | update =>
      obtain rfl := Option.some.inj stepped
      exact main_keeps holds rfl (updateConnections_change server)
  | worker => exact worker_keeps holds stepped

end Steps

/-- In every reachable state of the two threads. -/
theorem players_accounted (environment : GameEnvironment) (codec : GameCodec)
    (configuration : Configuration) (events : List ServerEvent) (final : Podrum GameState)
    (returned : EventRun.run (serverStep .copied configuration (gameExecutors environment codec))
      events { app := {} } = some final) : PlayersAccounted final :=
  EventRun.run_preserves (fun _ => PlayersAccounted)
    (fun _ _ _ _ holds stepped => serverStep_keeps holds stepped) events [] _ final
    (fun _ member => absurd member List.not_mem_nil) returned

/-! ## A client that leaves -/

/-- The request for the settings with protocol 594, which no inflate accepts. -/
def settingsRequest : List UInt8 := [0xfe, 0x06, 0xc1, 0x01, 0x00, 0x00, 0x02, 0x52]

def settingsReply : MiscFrame where
  reliability := reliabilityReliableOrdered
  stream := [0xfe, 0x0c, 0x8f, 0x01, 0x01, 0x00, 0x00, 0x00, 0x00, 0x00, 0x00, 0x00, 0x00, 0x00]

def settingsCodec : GameCodec where
  readGame := fun stream =>
    if stream = settingsRequest then some [.requestNetworkSettings 594] else none
  frames := fun actions => actions.filterMap fun
    | .send address .networkSettings => some (address, settingsReply)
    | _ => none

def settingsArrival : SocketData :=
  ⟨opening.address, [0x80, 0, 0, 0, 0x00, 0x00, 0x40] ++ settingsRequest⟩

def goodbye : SocketData := ⟨opening.address, [0x80, 1, 0, 0, 0x00, 0x00, 0x08, 0x15]⟩

/-- The client is gone and its player waits for the worker. -/
theorem players_accounted_goodbye :
    ∃ final, EventRun.run
        (serverStep .copied podrum (gameExecutors quietEnvironment settingsCodec))
        [.packet (some opening), .packet (some settingsArrival), .worker, .internal,
          .packet (some goodbye), .internal] { app := {} } = some final ∧
      final.app.manager.slots.length = 1 ∧ final.raknet.connections.slots.length = 0 ∧
      PlayersAccounted final := by
  have computed : (EventRun.run
      (serverStep .copied podrum (gameExecutors quietEnvironment settingsCodec))
      [.packet (some opening), .packet (some settingsArrival), .worker, .internal,
        .packet (some goodbye), .internal] { app := {} }).map (fun final =>
          (final.app.manager.slots.length, final.raknet.connections.slots.length)) =
        some (1, 0) := by decide
  obtain ⟨final, returned, counts⟩ := Option.map_eq_some_iff.mp computed
  obtain ⟨players, connections⟩ := Prod.mk.inj counts
  exact ⟨final, returned, players, connections,
    players_accounted quietEnvironment settingsCodec podrum _ final returned⟩

end PodrumMinecraft.PlayerSessions
