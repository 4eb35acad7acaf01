import PodrumFormal.RakNet.HandlerEffects
import PodrumFormal.RakNet.Threads

/-!
# The peers with an open connection

The server as the list of the addresses of its connections and the messages
that wait for the worker.  Every action of the main thread changes these in one
of three ways.
-/

set_option autoImplicit false

namespace PodrumRakNet.OpenPeers

open PodrumRakNet.Frame PodrumRakNet.FrameSet PodrumRakNet.Packet PodrumRakNet.Connections
open PodrumRakNet.SendQueue PodrumRakNet.Handler PodrumRakNet.Handshake PodrumRakNet.Server
open PodrumRakNet.Recovery PodrumRakNet.HandlerEffects PodrumRakNet.Threads

def peerKey (address : MiscAddress) : UInt16 × List UInt8 := (address.port, address.address)

def addresses (server : RaknetServer) : List MiscAddress :=
  server.connections.slots.map Connection.address

/-! ## The addresses after each operation -/

theorem hasRaknetConnection_addresses (address : MiscAddress) (server : RaknetServer) :
    hasRaknetConnection address server = true ↔
      peerKey address ∈ (addresses server).map peerKey := by
  rw [hasRaknetConnection, KeyedArray.isIn_iff_mem, addresses, List.map_map]
  rfl

theorem addresses_distinct (server : RaknetServer) :
    ((addresses server).map peerKey).Nodup := by
  rw [addresses, List.map_map]
  exact server.connections.distinct

theorem mem_addresses {address : MiscAddress} {server : RaknetServer} {connection : Connection}
    (found : getRaknetConnection address server = some connection) :
    connection.address ∈ addresses server :=
  List.mem_map_of_mem (KeyedArray.find_some found).1

/-- A store that keeps the address of an entry. -/
theorem addresses_store {server next : RaknetServer} {after : Connection}
    (known : after.address ∈ addresses server)
    (sameTable : next.connections = server.connections) :
    addresses (storeConnection (after, next)) = addresses server := by
  obtain ⟨connection, member, same⟩ := List.mem_map.mp known
  rw [addresses, addresses, storeConnection, sameTable, KeyedArray.replace, List.map_map]
  apply List.map_congr_left
  intro item listed
  rw [Function.comp_apply]
  split
  · rename_i sameKey
    have key : addressKey item = addressKey connection := by
      rw [sameKey, addressKey, addressKey, same]
    rw [List.inj_on_of_nodup_map server.connections.distinct listed member key, same]
  · rfl

theorem addresses_add {address : MiscAddress} {server : RaknetServer} (mtuSize : UInt16)
    (absent : hasRaknetConnection address server = false) :
    addresses (addRaknetConnection address mtuSize server) = addresses server ++ [address] := by
  have missing : addressKey (newConnection address mtuSize) ∉
      server.connections.slots.map addressKey := by
    rw [← KeyedArray.isIn_iff_mem]
    exact (Bool.not_eq_true _).mpr absent
  rw [addresses, addRaknetConnection, KeyedArray.append_slots_absent missing, List.map_append]
  rfl

theorem addRaknetConnection_present {address : MiscAddress} {server : RaknetServer}
    (mtuSize : UInt16) (present : hasRaknetConnection address server = true) :
    addRaknetConnection address mtuSize server = server := by
  have same : server.connections.append (newConnection address mtuSize) = server.connections := by
    rw [KeyedArray.append]
    exact dif_pos present
  rw [addRaknetConnection, same]

theorem addresses_remove (address : MiscAddress) (server : RaknetServer) :
    addresses (removeRaknetConnection address server) =
      (addresses server).filter fun other => peerKey other ≠ peerKey address := by
  rw [addresses, addresses, removeRaknetConnection, KeyedArray.deduct_slots, List.filter_map]
  rfl

/-! ## The three changes -/

variable {α : Type}

/-- Handling what a peer with an open connection sends, opening a connection,
and closing one.  Only a datagram opens one, for its sender, and no datagram
closes one: `sender` is there where a datagram is handled. -/
inductive TableChange (sender : Option MiscAddress) (before after : Podrum α) : Prop
  | talks (messages : List InternalMessage)
      (table : addresses after.raknet = addresses before.raknet)
      (opened : after.opened = before.opened)
      (posted : after.raknet.mainToThreaded = before.raknet.mainToThreaded ++ messages)
      (senders : ∀ message ∈ messages, ∃ address ∈ addresses before.raknet,
        FromPeer true address message)
  | opens (address : MiscAddress)
      (cause : sender = some address)
      (absent : hasRaknetConnection address before.raknet = false)
      (table : addresses after.raknet = addresses before.raknet ++ [address])
      (opened : after.opened = before.opened ++ [address])
      (posted : after.raknet.mainToThreaded = before.raknet.mainToThreaded)
  | closes (address : MiscAddress)
      (cause : sender = none)
      (table : addresses after.raknet =
        (addresses before.raknet).filter fun other => peerKey other ≠ peerKey address)
      (opened : after.opened = before.opened)
      (posted : after.raknet.mainToThreaded =
        before.raknet.mainToThreaded ++ [.disconnectNotification address])

theorem TableChange.silent {sender : Option MiscAddress} {before after : Podrum α}
    (table : addresses after.raknet = addresses before.raknet)
    (opened : after.opened = before.opened)
    (posted : after.raknet.mainToThreaded = before.raknet.mainToThreaded) :
    TableChange sender before after :=
  .talks [] table opened (by rw [posted, List.append_nil]) (by simp)

theorem TableChange.posts {sender : Option MiscAddress} {before after : Podrum α}
    (change : TableChange sender before after) :
    ∃ messages, after.raknet.mainToThreaded = before.raknet.mainToThreaded ++ messages := by
  cases change with
  | talks messages table opened posted => exact ⟨messages, posted⟩
  | opens address cause absent table opened posted => exact ⟨[], by rw [posted, List.append_nil]⟩
  | closes address cause table opened posted => exact ⟨_, posted⟩

theorem TableChange.opened_none {before after : Podrum α}
    (change : TableChange none before after) : after.opened = before.opened := by
  cases change with
  | talks messages table opened => exact opened
  | opens address cause => cases cause
  | closes address cause table opened => exact opened

/-- A change that follows a step which leaves the table and the messages alone. -/
theorem TableChange.following {sender : Option MiscAddress} {first second third : Podrum α}
    (table : addresses second.raknet = addresses first.raknet)
    (opened : second.opened = first.opened)
    (posted : second.raknet.mainToThreaded = first.raknet.mainToThreaded)
    (change : TableChange sender second third) : TableChange sender first third := by
  have connected (address : MiscAddress) : hasRaknetConnection address first.raknet =
      hasRaknetConnection address second.raknet := by
    rw [Bool.eq_iff_iff, hasRaknetConnection_addresses, hasRaknetConnection_addresses, table]
  cases change with
  | talks messages same kept appended senders =>
      rw [table] at same senders
      exact .talks messages same (kept.trans opened) (by rw [appended, posted]) senders
  | opens address cause absent added logged appended =>
      exact .opens address cause (by rw [connected, absent]) (by rw [added, table])
        (by rw [logged, opened]) (appended.trans posted)
  | closes address cause removed kept appended =>
      exact .closes address cause (by rw [removed, table]) (kept.trans opened)
        (by rw [appended, posted])

/-- What a handler does through the pointer to a connection. -/
theorem storeConnection_talks {kind : Datagram → Prop} {server : RaknetServer}
    {connection : Connection} {next : Connection × RaknetServer}
    (known : connection.address ∈ addresses server)
    (posts : Posts kind (connection, server) next) :
    addresses (storeConnection next) = addresses server ∧
      ∃ messages, (storeConnection next).mainToThreaded = server.mainToThreaded ++ messages ∧
        ∀ message ∈ messages, FromPeer true connection.address message := by
  refine ⟨addresses_store (by rw [posts.address]; exact known) posts.connections, ?_⟩
  obtain ⟨messages, appended, each⟩ := posts.toThreaded
  refine ⟨messages, appended, fun message member => ?_⟩
  have connected : hasRaknetConnection connection.address server = true :=
    (hasRaknetConnection_addresses _ _).mpr (List.mem_map_of_mem known)
  have peer := each message member
  rwa [connected] at peer

theorem onConnection_change {kind : Datagram → Prop} {sender : Option MiscAddress}
    {address : MiscAddress}
    {action : Connection → RaknetServer → Option (Connection × RaknetServer)}
    {server next : Podrum α}
    (posts : ∀ connection after, action connection server.raknet = some after →
      Posts kind (connection, server.raknet) after)
    (success : onConnection address action server = some next) :
    TableChange sender server next := by
  obtain ⟨raknet, acted, rfl⟩ := Option.map_eq_some_iff.mp success
  unfold withConnection at acted
  split at acted
  · rename_i connection found
    obtain ⟨after, done, rfl⟩ := Option.map_eq_some_iff.mp acted
    obtain ⟨table, messages, appended, each⟩ :=
      storeConnection_talks (mem_addresses found) (posts connection after done)
    exact .talks messages table rfl appended fun message member =>
      ⟨connection.address, mem_addresses found, each message member⟩
  · obtain rfl := Option.some.inj acted
    exact .silent rfl rfl rfl

theorem onConnection_toMain {address : MiscAddress}
    {action : Connection → RaknetServer → Option (Connection × RaknetServer)}
    {server next : Podrum α}
    (kept : ∀ connection after, action connection server.raknet = some after →
      after.2.threadedToMain = server.raknet.threadedToMain)
    (success : onConnection address action server = some next) :
    next.raknet.threadedToMain = server.raknet.threadedToMain := by
  obtain ⟨raknet, acted, rfl⟩ := Option.map_eq_some_iff.mp success
  unfold withConnection at acted
  split at acted
  · obtain ⟨after, done, rfl⟩ := Option.map_eq_some_iff.mp acted
    exact kept _ after done
  · obtain rfl := Option.some.inj acted
    rfl

theorem openConnection_change {configuration : Configuration} {stream : List UInt8}
    {address : MiscAddress} {server next : Podrum α}
    (success : openConnection configuration stream address server = some next) :
    TableChange (some address) server next := by
  obtain ⟨⟨reply, raknet⟩, handled, success⟩ := Option.bind_eq_some_iff.mp success
  obtain ⟨⟨request, rest⟩, _, handled⟩ := Option.bind_eq_some_iff.mp handled
  cases handled
  obtain rfl := Option.some.inj success
  cases known : hasRaknetConnection address server.raknet with
  | true =>
      have same := addRaknetConnection_present request.mtuSize known
      apply TableChange.silent
      · exact congrArg addresses same
      · simp [sendReply]
      · rfl
  | false =>
      apply TableChange.opens address rfl known
      · exact addresses_add request.mtuSize known
      · simp [sendReply]
      · rfl

/-- All that a datagram can do: nothing, an offline answer, the second request,
or a handler of the sender's connection. -/
theorem dispatch_cases {configuration : Configuration} {stream : List UInt8}
    {address : MiscAddress} {server next : Podrum α}
    (success : dispatch configuration stream address server = some next) :
    next = server ∨ (∃ reply, next = sendReply address reply server) ∨
      (stream.head? = some idOpenConnectionRequest2 ∧
        openConnection configuration stream address server = some next) ∨
      ∃ action, onConnection address action server = some next ∧
        ∀ connection after, action connection server.raknet = some after →
          Posts IsFrameSet (connection, server.raknet) after := by
  unfold dispatch at success
  split at success
  · exact Or.inl (Option.some.inj success).symm
  · rename_i packetId first
    split at success
    · obtain ⟨reply, _, answered⟩ := Option.map_eq_some_iff.mp success
      exact Or.inr (Or.inl ⟨reply, answered.symm⟩)
    · split at success
      · obtain ⟨reply, _, answered⟩ := Option.map_eq_some_iff.mp success
        exact Or.inr (Or.inl ⟨reply, answered.symm⟩)
      · split at success
        · rename_i request
          exact Or.inr (Or.inr (Or.inl ⟨first.trans (congrArg some request), success⟩))
        · split at success
          · refine Or.inr (Or.inr (Or.inr ⟨_, success, fun connection after acted => ?_⟩))
            obtain ⟨acknowledged, handled, rfl⟩ := Option.map_eq_some_iff.mp acted
            exact posts_of_sending (handleAck_sending _ handled)
          · split at success
            · exact Or.inr (Or.inr (Or.inr ⟨_, success, fun _ _ handled =>
                posts_of_sending (handleNack_sending handled)⟩))
            · split at success
              · exact Or.inr (Or.inr (Or.inr ⟨_, success, fun _ _ handled =>
                  handleFrameSet_posts handled⟩))
              · exact Or.inl (Option.some.inj success).symm

theorem dispatch_change {configuration : Configuration} {stream : List UInt8}
    {address : MiscAddress} {server next : Podrum α}
    (success : dispatch configuration stream address server = some next) :
    TableChange (some address) server next := by
  obtain rfl | ⟨reply, rfl⟩ | ⟨_, opens⟩ | ⟨action, acted, posts⟩ := dispatch_cases success
  · exact .silent rfl rfl rfl
  · exact .silent rfl rfl rfl
  · exact openConnection_change opens
  · exact onConnection_change posts acted

theorem onConnection_keeps {address : MiscAddress}
    {action : Connection → RaknetServer → Option (Connection × RaknetServer)}
    {server next : Podrum α} (success : onConnection address action server = some next) :
    next.app = server.app ∧ next.opened = server.opened := by
  obtain ⟨raknet, _, rfl⟩ := Option.map_eq_some_iff.mp success
  exact ⟨rfl, rfl⟩

/-- Only a second request opens a connection. -/
theorem dispatch_opened {configuration : Configuration} {stream : List UInt8}
    {address : MiscAddress} {server next : Podrum α}
    (other : stream.head? ≠ some idOpenConnectionRequest2)
    (success : dispatch configuration stream address server = some next) :
    next.opened = server.opened := by
  obtain rfl | ⟨reply, rfl⟩ | ⟨request, _⟩ | ⟨action, acted, _⟩ := dispatch_cases success
  · rfl
  · rfl
  · exact absurd request other
  · exact (onConnection_keeps acted).2

/-- No datagram calls an executor. -/
theorem dispatch_app {configuration : Configuration} {stream : List UInt8}
    {address : MiscAddress} {server next : Podrum α}
    (success : dispatch configuration stream address server = some next) :
    next.app = server.app := by
  obtain rfl | ⟨reply, rfl⟩ | ⟨_, opens⟩ | ⟨action, acted, _⟩ := dispatch_cases success
  · rfl
  · rfl
  · obtain ⟨_, _, opens⟩ := Option.bind_eq_some_iff.mp opens
    obtain rfl := Option.some.inj opens
    rfl
  · exact (onConnection_keeps acted).1

/-- With texts of their own the connections stay as they are. -/
theorem receiveData_copied {received : Option SocketData} {server : Podrum α}
    {data : SocketData} {raknet : RaknetServer}
    (success : receiveData .copied received server.raknet = some (data, raknet)) :
    raknet = server.raknet ∧ (data = noData ∨ ∃ heard, received = some heard ∧
      heard.stream.length < 65535 ∧ data = ⟨{ heard.address with version := 4 }, heard.stream⟩) := by
  unfold receiveData at success
  split at success
  · split at success
    · rename_i heard short
      obtain ⟨rfl, rfl⟩ := Prod.mk.inj (Option.some.inj success)
      exact ⟨rfl, Or.inr ⟨heard, rfl, short, rfl⟩⟩
    · obtain ⟨rfl, rfl⟩ := Prod.mk.inj (Option.some.inj success)
      exact ⟨rfl, Or.inl rfl⟩
  · obtain ⟨rfl, rfl⟩ := Prod.mk.inj (Option.some.inj success)
    exact ⟨rfl, Or.inl rfl⟩

/-! ## Internal messages -/

theorem disconnectRaknetClient_effect (address : MiscAddress) (server : RaknetServer) :
    addresses (disconnectRaknetClient address server) =
        (addresses server).filter (fun other => peerKey other ≠ peerKey address) ∧
      (disconnectRaknetClient address server).mainToThreaded =
        server.mainToThreaded ++ [.disconnectNotification address] ∧
      (disconnectRaknetClient address server).threadedToMain = server.threadedToMain := by
  rw [disconnectRaknetClient, addresses_remove]
  split
  · rename_i connection found
    obtain ⟨sets, sends⟩ := appendRaknetFrame_sending disconnectFrame true connection
      (notifyThreaded address server)
    have others := sends.server
    generalize appendRaknetFrame disconnectFrame true connection (notifyThreaded address server) =
      flushed at sends others
    have table : addresses (storeConnection flushed) = addresses (notifyThreaded address server) :=
      addresses_store (by rw [sends.owner]; exact mem_addresses found) (by rw [others])
    refine ⟨by rw [table]; rfl, ?_, ?_⟩
    · exact congrArg RaknetServer.mainToThreaded others
    · exact (congrArg RaknetServer.threadedToMain others :)
  · exact ⟨rfl, rfl, rfl⟩

theorem announceConnection_raknet (executors : Executors α) (address : MiscAddress)
    (server : Podrum α) :
    (announceConnection executors address server).raknet = server.raknet ∧
      (announceConnection executors address server).opened = server.opened := by
  unfold announceConnection
  split <;> exact ⟨rfl, rfl⟩

/-- Taking a message never posts one to the main thread. -/
theorem handleThreadedToMain_change {executors : Executors α} {server next : Podrum α}
    (success : handleThreadedToMain executors server = some next) :
    TableChange none server next ∧
      next.raknet.threadedToMain = server.raknet.threadedToMain.tail := by
  unfold handleThreadedToMain at success
  split at success
  · rename_i none
    obtain rfl := Option.some.inj success
    exact ⟨.silent rfl rfl rfl, by rw [none]; rfl⟩
  · rename_i message rest queued
    rw [queued]
    dsimp only at success
    split at success
    · rename_i frame address
      refine ⟨?_, onConnection_toMain ?_ success⟩
      · refine TableChange.following ?_ ?_ ?_ (onConnection_change
          (fun _ _ added => posts_of_sending (addToRaknetQueue_sending added)) success)
        all_goals rfl
      · intro connection after added
        obtain ⟨sets, sends⟩ := addToRaknetQueue_sending added
        rw [sends.server]
    · rename_i address
      obtain rfl := Option.some.inj success
      obtain ⟨table, posted, kept⟩ := disconnectRaknetClient_effect address
        { server.raknet with threadedToMain := rest }
      exact ⟨.closes address rfl table rfl posted, kept⟩
    · rename_i address
      obtain rfl := Option.some.inj success
      obtain ⟨raknet, opened⟩ := announceConnection_raknet executors address
        (server.setRaknet { server.raknet with threadedToMain := rest })
      refine ⟨.silent ?_ opened ?_, ?_⟩
      all_goals rw [raknet]
      all_goals rfl

theorem drain_effect {executors : Executors α} {count : Nat} {server final : Podrum α}
    (success : drain executors count server = some final) :
    final.opened = server.opened ∧
      ∃ messages, final.raknet.mainToThreaded = server.raknet.mainToThreaded ++ messages := by
  induction count generalizing server with
  | zero =>
      obtain rfl := Option.some.inj success
      exact ⟨rfl, [], by simp⟩
  | succ count ih =>
      obtain ⟨next, taken, success⟩ := Option.bind_eq_some_iff.mp success
      have change := (handleThreadedToMain_change taken).1
      obtain ⟨opened, messages, later⟩ := ih success
      obtain ⟨first, posted⟩ := change.posts
      exact ⟨opened.trans change.opened_none, first ++ messages, by
        rw [later, posted, List.append_assoc]⟩

/-! ## Flushing -/

def pendingAcks (connection : Connection) : List Datagram :=
  if connection.ackQueue.array.size > 0 then [.acknowledge connection.ackQueue.numbers false]
  else []

def pendingNacks (connection : Connection) : List Datagram :=
  if connection.nackQueue.array.size > 0 then [.acknowledge connection.nackQueue.numbers true]
  else []

def pendingFrames (connection : Connection) : List Datagram :=
  if connection.queue.frames.length > 0 then
    [.frameSet { connection.queue with sequenceNumber := connection.senderSequenceNumber }]
  else []

/-- What a flush sends for a connection. -/
def pendingDatagrams (connection : Connection) : List Datagram :=
  pendingAcks connection ++ (pendingNacks connection ++ pendingFrames connection)

def sendAll (address : MiscAddress) (datagrams : List Datagram) (server : RaknetServer) :
    RaknetServer :=
  { server with sent := server.sent ++ datagrams.map fun datagram => (address, datagram) }

theorem sendAll_append (address : MiscAddress) (first second : List Datagram)
    (server : RaknetServer) :
    sendAll address (first ++ second) server =
      sendAll address second (sendAll address first server) := by
  simp [sendAll]

theorem sendRaknetAckQueue_effect (connection : Connection) (server : RaknetServer) :
    ∃ ackQueue, sendRaknetAckQueue connection server =
      ({ connection with ackQueue },
        sendAll connection.address (pendingAcks connection) server) := by
  unfold sendRaknetAckQueue pendingAcks
  split
  · exact ⟨_, rfl⟩
  · exact ⟨connection.ackQueue, by simp [sendAll]⟩

theorem sendRaknetNackQueue_effect (connection : Connection) (server : RaknetServer) :
    ∃ nackQueue, sendRaknetNackQueue connection server =
      ({ connection with nackQueue },
        sendAll connection.address (pendingNacks connection) server) := by
  unfold sendRaknetNackQueue pendingNacks
  split
  · exact ⟨_, rfl⟩
  · exact ⟨connection.nackQueue, by simp [sendAll]⟩

theorem sendRaknetQueue_effect (connection : Connection) (server : RaknetServer) :
    ∃ after, after.address = connection.address ∧ sendRaknetQueue connection server =
      (after, sendAll connection.address (pendingFrames connection) server) := by
  unfold sendRaknetQueue pendingFrames
  split
  · refine ⟨_, ?_, rfl⟩
    rfl
  · exact ⟨connection, rfl, by simp [sendAll]⟩

/-- One turn of the loop stores the connection under its address and sends it
everything pending. -/
theorem updateConnection_effect (server : RaknetServer) (connection : Connection) :
    ∃ after, after.address = connection.address ∧ updateConnection server connection =
      storeConnection (after, sendAll connection.address (pendingDatagrams connection) server) := by
  obtain ⟨ackQueue, acked⟩ := sendRaknetAckQueue_effect connection server
  obtain ⟨nackQueue, nacked⟩ := sendRaknetNackQueue_effect { connection with ackQueue }
    (sendAll connection.address (pendingAcks connection) server)
  obtain ⟨after, sameAddress, flushed⟩ := sendRaknetQueue_effect
    { connection with ackQueue, nackQueue }
    (sendAll connection.address (pendingNacks connection)
      (sendAll connection.address (pendingAcks connection) server))
  refine ⟨after, sameAddress, ?_⟩
  rw [pendingDatagrams, sendAll_append, sendAll_append, updateConnection, acked]
  dsimp only at nacked flushed ⊢
  rw [nacked]
  exact congrArg storeConnection flushed

theorem foldl_updateConnection (connections : List Connection) (server : RaknetServer)
    (known : ∀ connection ∈ connections, connection.address ∈ addresses server) :
    let final := connections.foldl updateConnection server
    addresses final = addresses server ∧
      final = { server with
        connections := final.connections
        sent := server.sent ++ connections.flatMap fun connection =>
          (pendingDatagrams connection).map fun datagram => (connection.address, datagram) } := by
  induction connections generalizing server with
  | nil => exact ⟨rfl, by simp⟩
  | cons connection rest ih =>
      obtain ⟨after, sameAddress, stored⟩ := updateConnection_effect server connection
      have table : addresses (updateConnection server connection) = addresses server := by
        rw [stored]
        apply addresses_store _ rfl
        rw [sameAddress]
        exact known connection (List.mem_cons_self ..)
      have others := ih (updateConnection server connection) fun other member => by
        rw [table]
        exact known other (List.mem_cons_of_mem _ member)
      rcases others with ⟨sameTable, result⟩
      refine ⟨sameTable.trans table, ?_⟩
      rw [List.foldl_cons, List.flatMap_cons, ← List.append_assoc]
      rw [stored] at result ⊢
      exact result

theorem updateRaknetConnections_effect (server : RaknetServer) :
    addresses (updateRaknetConnections server) = addresses server ∧
      updateRaknetConnections server = { server with
        connections := (updateRaknetConnections server).connections
        sent := server.sent ++ server.connections.slots.flatMap fun connection =>
          (pendingDatagrams connection).map fun datagram => (connection.address, datagram) } :=
  foldl_updateConnection server.connections.slots server fun _ member =>
    List.mem_map_of_mem member

theorem updateConnections_change (server : Podrum α) :
    TableChange none server (updateConnections server) := by
  obtain ⟨table, others⟩ := updateRaknetConnections_effect server.raknet
  refine TableChange.silent ?_ rfl ?_
  · exact table
  · rw [updateConnections, Podrum.setRaknet, others]

/-- An announcement is the only call the main thread makes. -/
theorem handleThreadedToMain_app {executors : Executors α} {server next : Podrum α}
    (quiet : ∀ connection app, executors.onNewIncomingConnection connection app = app)
    (success : handleThreadedToMain executors server = some next) : next.app = server.app := by
  unfold handleThreadedToMain at success
  split at success
  · obtain rfl := Option.some.inj success
    rfl
  · dsimp only at success
    split at success
    · have same := (onConnection_keeps success).1
      exact same
    · obtain rfl := Option.some.inj success
      rfl
    · obtain rfl := Option.some.inj success
      unfold announceConnection
      split
      · exact quiet _ _
      · rfl

/-! ## The worker -/

/-- What a message makes of the application. -/
def Called (executors : Executors α) (server : Podrum α) (app : α) : InternalMessage → Prop
  | .frame frame address =>
      app = server.app ∨ ∃ connection raknet requests,
        getRaknetConnection address server.raknet = some connection ∧
        executors.onFrame frame connection raknet server.app = some (app, requests)
  | .disconnectNotification address =>
      app = executors.onDisconnectNotification address server.app
  | .newIncomingConnection _ =>
      app = server.app ∨ ∃ connection, app = executors.onNewIncomingConnection connection server.app

/-- All that the worker can do: it takes one message and leaves the connections
alone. -/
theorem handleMainToThreaded_cases {executors : Executors α} {server next : Podrum α}
    (success : handleMainToThreaded executors server = some next) :
    (server.raknet.mainToThreaded = [] ∧ next = server) ∨
      ∃ message rest, server.raknet.mainToThreaded = message :: rest ∧
        next.raknet.mainToThreaded = rest ∧
        next.raknet.connections = server.raknet.connections ∧ next.opened = server.opened ∧
        Called executors server next.app message := by
  unfold handleMainToThreaded at success
  split at success
  · rename_i none
    exact Or.inl ⟨none, (Option.some.inj success).symm⟩
  · rename_i message rest queued
    refine Or.inr ⟨message, rest, queued, ?_⟩
    dsimp only at success
    split at success
    · split at success
      · rename_i connection found
        obtain ⟨⟨app, requests⟩, called, success⟩ := Option.bind_eq_some_iff.mp success
        obtain rfl := Option.some.inj success
        exact ⟨rfl, rfl, rfl, Or.inr ⟨connection, _, requests, found, called⟩⟩
      · obtain rfl := Option.some.inj success
        exact ⟨rfl, rfl, rfl, Or.inl rfl⟩
    · obtain rfl := Option.some.inj success
      exact ⟨rfl, rfl, rfl, rfl⟩
    · obtain rfl := Option.some.inj success
      unfold announceConnection
      split
      · exact ⟨rfl, rfl, rfl, Or.inr ⟨_, rfl⟩⟩
      · exact ⟨rfl, rfl, rfl, Or.inl rfl⟩

theorem handleMainToThreaded_effect {executors : Executors α} {server next : Podrum α}
    (success : handleMainToThreaded executors server = some next) :
    next.raknet.connections = server.raknet.connections ∧ next.opened = server.opened ∧
      next.raknet.mainToThreaded = server.raknet.mainToThreaded.tail := by
  obtain ⟨none, rfl⟩ | ⟨message, rest, queued, taken, connections, opened, _⟩ :=
    handleMainToThreaded_cases success
  · exact ⟨rfl, rfl, by rw [none, List.tail_nil]⟩
  · exact ⟨connections, opened, by rw [queued, taken, List.tail_cons]⟩

end PodrumRakNet.OpenPeers
