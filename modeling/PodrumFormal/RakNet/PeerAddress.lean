import PodrumFormal.RakNet.FragmentSize
import PodrumFormal.RakNet.OpenPeers

/-!
# Where a connection's datagrams go

`receive_data` returns the pointer of `inet_ntoa`, and `add_raknet_connection`
stores it.  With one static buffer behind it, the address of every connection
follows the peer that was heard last.
-/

set_option autoImplicit false

namespace PodrumRakNet.PeerAddress

open EventRun PodrumRakNet.Packet PodrumRakNet.Connections PodrumRakNet.Server
open PodrumRakNet.Threads PodrumRakNet.OpenPeers PodrumRakNet.Handshake PodrumRakNet.NackQueue
open PodrumRakNet.FragmentSize

variable {α : Type}

/-! ## The openers -/

/-- The address that a connection was opened for last from the port.  No two
connections with one buffer have the same port. -/
def opener (port : UInt16) (opened : List MiscAddress) : Option MiscAddress :=
  opened.reverse.find? fun address => address.port = port

theorem opener_append (port : UInt16) (opened : List MiscAddress) (address : MiscAddress) :
    opener port (opened ++ [address]) =
      if address.port = port then some address else opener port opened := by
  rw [opener, List.reverse_append, List.reverse_singleton, List.singleton_append, List.find?_cons]
  by_cases same : address.port = port <;> simp [same, opener]

/-- What a flush would send now. -/
def flushed (server : RaknetServer) : List (MiscAddress × Datagram) :=
  (updateRaknetConnections server).sent.drop server.sent.length

/-- Every connection has the address it was opened for, and a flush sends what
is pending on it there. -/
structure ToOpeners (server : Podrum α) : Prop where
  stored : ∀ address ∈ addresses server.raknet, opener address.port server.opened = some address
  sends : (flushed server.raknet).map (fun entry => (some entry.1, entry.2)) =
    server.raknet.connections.slots.flatMap fun connection =>
      (pendingDatagrams connection).map fun datagram =>
        (opener connection.address.port server.opened, datagram)

theorem flushed_eq (server : RaknetServer) :
    flushed server = server.connections.slots.flatMap fun connection =>
      (pendingDatagrams connection).map fun datagram => (connection.address, datagram) := by
  rw [flushed, (updateRaknetConnections_effect server).2, List.drop_left]

theorem toOpeners_of_stored {server : Podrum α}
    (stored : ∀ address ∈ addresses server.raknet,
      opener address.port server.opened = some address) : ToOpeners server := by
  refine ⟨stored, ?_⟩
  rw [flushed_eq, List.map_flatMap]
  apply List.flatMap_congr
  intro connection member
  rw [List.map_map, stored connection.address (List.mem_map_of_mem member)]
  rfl

/-! ## Overwriting the buffer -/

/-- The datagram comes from the host of every open connection. -/
def SameHost (server : Podrum α) : ServerEvent → Prop
  | .packet (some data) => data.stream.length < 65535 →
      ∀ address ∈ addresses server.raknet, address.address = data.address.address
  | _ => True

def resolve (text : List UInt8) (address : MiscAddress) : MiscAddress :=
  { address with address := text }

theorem inetNtoa_addresses {text : List UInt8} {server next : RaknetServer}
    (written : inetNtoa .staticBuffer text server = some next) :
    addresses next = (addresses server).map (resolve text) := by
  obtain ⟨connections, mapped, rfl⟩ := Option.map_eq_some_iff.mp written
  rw [addresses, addresses, KeyedArray.mapSlots_slots mapped, List.map_map, List.map_map]
  rfl

theorem resolve_same {text : List UInt8} {table : List MiscAddress}
    (same : ∀ address ∈ table, address.address = text) : table.map (resolve text) = table := by
  rw [List.map_congr_left (g := id), List.map_id]
  intro address member
  rw [resolve, ← same address member]
  rfl

section Packet

variable {configuration : Configuration} {data : SocketData} {server next : Podrum α}

/-- The buffer is written before the datagram is looked at. -/
theorem packet_heard (short : data.stream.length < 65535)
    (success : handleRaknetPacket .staticBuffer configuration (some data) server = some next) :
    ∃ heard : Podrum α, heard.opened = server.opened ∧
      addresses heard.raknet = (addresses server.raknet).map (resolve data.address.address) ∧
      TableChange (some { data.address with version := configuration.version }) heard next := by
  obtain ⟨⟨socketData, raknet⟩, received, success⟩ := Option.bind_eq_some_iff.mp success
  simp only [receiveData, if_pos short] at received
  obtain ⟨written, resolved, same⟩ := Option.map_eq_some_iff.mp received
  obtain ⟨rfl, rfl⟩ := Prod.mk.inj same
  exact ⟨server.setRaknet written, rfl, inetNtoa_addresses resolved, dispatch_change success⟩

/-- Nothing happens where `receive_data` has no datagram. -/
theorem packet_ignored {texts : AddressTexts} {received : Option SocketData}
    (long : ∀ data, received = some data → ¬ data.stream.length < 65535)
    (success : handleRaknetPacket texts configuration received server = some next) :
    next = server := by
  have nothing : receiveData texts received server.raknet = some (noData, server.raknet) := by
    cases received with
    | none => rfl
    | some data => exact if_neg (long data rfl)
  rw [handleRaknetPacket, nothing] at success
  exact (Option.some.inj success).symm

/-- One more opening leaves the opener of every open connection, none of which
has its port. -/
theorem stored_opens {table opened : List MiscAddress} {address : MiscAddress}
    (stored : ∀ other ∈ table, opener other.port opened = some other)
    (sameText : ∀ other ∈ table, other.address = address.address)
    (absent : peerKey address ∉ table.map peerKey) :
    ∀ other ∈ table ++ [address], opener other.port (opened ++ [address]) = some other := by
  intro other member
  rw [opener_append]
  rcases List.mem_append.mp member with earlier | last
  · have different : address.port ≠ other.port := by
      intro samePort
      apply absent
      have sameKey : peerKey other = peerKey address := by
        rw [peerKey, peerKey, sameText other earlier, samePort]
      exact sameKey ▸ List.mem_map_of_mem earlier
    rw [if_neg different]
    exact stored other earlier
  · obtain rfl := List.mem_singleton.mp last
    exact if_pos rfl

theorem packet_keeps (holds : ToOpeners server)
    (sameHost : SameHost server (.packet (some data)))
    (success : handleRaknetPacket .staticBuffer configuration (some data) server = some next) :
    ToOpeners next := by
  by_cases short : data.stream.length < 65535
  · obtain ⟨heard, opened, resolved, change⟩ := packet_heard short success
    have same := sameHost short
    rw [resolve_same same] at resolved
    apply toOpeners_of_stored
    cases change with
    | talks messages table kept posted senders =>
        rw [table, kept, resolved, opened]
        exact holds.stored
    | opens address cause absent table logged posted =>
        obtain rfl := Option.some.inj cause
        rw [← Bool.not_eq_true, hasRaknetConnection_addresses, resolved] at absent
        rw [table, logged, resolved, opened]
        exact stored_opens holds.stored same absent
    | closes address cause => cases cause
  · have nothing := packet_ignored (fun other same => by
      obtain rfl := Option.some.inj same
      exact short) success
    rw [nothing]
    exact holds

/-- A datagram from another host leaves a connection without its opener's
address. -/
theorem packet_needs (holds : ToOpeners server)
    (success : handleRaknetPacket .staticBuffer configuration (some data) server = some next)
    (after : ToOpeners next) : SameHost server (.packet (some data)) := by
  intro short address member
  obtain ⟨heard, opened, resolved, change⟩ := packet_heard short success
  have rewritten : resolve data.address.address address ∈ addresses heard.raknet := by
    rw [resolved]
    exact List.mem_map_of_mem member
  have before := holds.stored address member
  rw [← opened] at before
  have now : opener address.port heard.opened = some (resolve data.address.address address) := by
    cases change with
    | talks messages table kept posted senders =>
        rw [← kept]
        exact after.stored _ (by rw [table]; exact rewritten)
    | opens other cause absent table logged posted =>
        obtain rfl := Option.some.inj cause
        have found := after.stored (resolve data.address.address address)
          (by rw [table]; exact List.mem_append_left _ rewritten)
        rw [logged, opener_append] at found
        rw [← Bool.not_eq_true, hasRaknetConnection_addresses] at absent
        split at found
        · rename_i samePort
          have sameKey : peerKey (resolve data.address.address address) =
              peerKey { data.address with version := configuration.version } := by
            rw [peerKey, peerKey, samePort]
            rfl
          exact absurd (sameKey ▸ List.mem_map_of_mem rewritten) absent
        · exact found
    | closes other cause => cases cause
  have same : address = resolve data.address.address address :=
    Option.some.inj (before.symm.trans now)
  calc address.address = (resolve data.address.address address).address :=
        congrArg MiscAddress.address same
    _ = data.address.address := rfl

end Packet

/-! ## Runs -/

section Runs

variable {configuration : Configuration} {executors : Executors α} {server next : Podrum α}

/-- What only the main thread's other work and the worker change. -/
theorem stored_of_change (holds : ToOpeners server) (change : TableChange none server next) :
    ToOpeners next := by
  apply toOpeners_of_stored
  cases change with
  | talks messages table kept posted senders =>
      rw [table, kept]
      exact holds.stored
  | opens address cause => cases cause
  | closes address cause table kept posted =>
      rw [table, kept]
      exact fun other member => holds.stored other (List.mem_of_mem_filter member)

theorem serverStep_keeps {event : ServerEvent} (holds : ToOpeners server)
    (sameHost : SameHost server event)
    (stepped : serverStep .staticBuffer configuration executors server event = some next) :
    ToOpeners next := by
  cases event with
  | packet received =>
      cases received with
      | none =>
          rw [packet_ignored (fun _ same => by cases same) stepped]
          exact holds
      | some data => exact packet_keeps holds sameHost stepped
  | internal => exact stored_of_change holds (handleThreadedToMain_change stepped).1
  | update =>
      obtain rfl := Option.some.inj stepped
      exact stored_of_change holds (updateConnections_change server)
  | worker =>
      obtain ⟨connections, opened, _⟩ := handleMainToThreaded_effect stepped
      apply toOpeners_of_stored
      rw [addresses, connections, opened]
      exact holds.stored

theorem serverStep_needs {event : ServerEvent} (holds : ToOpeners server)
    (stepped : serverStep .staticBuffer configuration executors server event = some next)
    (after : ToOpeners next) : SameHost server event := by
  cases event with
  | packet received =>
      cases received with
      | none => trivial
      | some data => exact packet_needs holds stepped after
  | internal => trivial
  | update => trivial
  | worker => trivial

theorem toOpeners_start (app : α) : ToOpeners ({ app } : Podrum α) :=
  ⟨fun _ member => absurd member List.not_mem_nil, rfl⟩

/-! ## One buffer, distinct ports -/

def SharedText (server : Podrum α) : Prop :=
  ∃ text, ∀ address ∈ addresses server.raknet, address.address = text

theorem sharedText_of_change {sender : Option MiscAddress} {text : List UInt8}
    (shared : ∀ address ∈ addresses server.raknet, address.address = text)
    (opening : ∀ address, sender = some address → address.address = text)
    (change : TableChange sender server next) :
    ∀ address ∈ addresses next.raknet, address.address = text := by
  cases change with
  | talks messages table =>
      rw [table]
      exact shared
  | opens address cause absent table =>
      rw [table]
      intro other member
      rcases List.mem_append.mp member with earlier | last
      · exact shared other earlier
      · rw [List.mem_singleton.mp last]
        exact opening address cause
  | closes address cause table =>
      rw [table]
      exact fun other member => shared other (List.mem_of_mem_filter member)

theorem serverStep_sharedText {event : ServerEvent} (shared : SharedText server)
    (stepped : serverStep .staticBuffer configuration executors server event = some next) :
    SharedText next := by
  rcases shared with ⟨text, each⟩
  have noOpening (address : MiscAddress) (cause : none = some address) :
      address.address = text := by cases cause
  cases event with
  | packet received =>
      by_cases heard : ∃ data, received = some data ∧ data.stream.length < 65535
      · rcases heard with ⟨data, rfl, short⟩
        obtain ⟨resolved, _, table, change⟩ := packet_heard short stepped
        refine ⟨data.address.address, sharedText_of_change ?_ ?_ change⟩
        · rw [table]
          intro address member
          obtain ⟨other, _, rfl⟩ := List.mem_map.mp member
          rfl
        · intro address cause
          obtain rfl := Option.some.inj cause
          rfl
      · rw [packet_ignored (fun data same short => heard ⟨data, same, short⟩) stepped]
        exact ⟨text, each⟩
  | internal =>
      exact ⟨text, sharedText_of_change each noOpening (handleThreadedToMain_change stepped).1⟩
  | update =>
      obtain rfl := Option.some.inj stepped
      exact ⟨text, sharedText_of_change each noOpening (updateConnections_change server)⟩
  | worker =>
      obtain ⟨connections, _⟩ := handleMainToThreaded_effect stepped
      refine ⟨text, ?_⟩
      rw [addresses, connections]
      exact each

/-- No two connections come to have the same address and port when the buffer
is written. -/
theorem inetNtoa_total (shared : SharedText server) (text : List UInt8) :
    ∃ written, inetNtoa .staticBuffer text server.raknet = some written := by
  rcases shared with ⟨common, each⟩
  have distinct : ((server.raknet.connections.slots.map (withText text)).map addressKey).Nodup := by
    have keys : (server.raknet.connections.slots.map (withText text)).map addressKey =
        (addresses server.raknet).map fun address => (address.port, text) := by
      rw [addresses, List.map_map, List.map_map]
      rfl
    rw [keys]
    apply List.Nodup.map_on _ (addresses_distinct server.raknet).of_map
    intro first early second late samePort
    apply List.inj_on_of_nodup_map (addresses_distinct server.raknet) early late
    rw [peerKey, peerKey, (Prod.mk.inj samePort).1, each first early, each second late]
  obtain ⟨connections, mapped⟩ := KeyedArray.mapSlots_isSome.mpr distinct
  exact ⟨_, Option.map_eq_some_iff.mpr ⟨connections, mapped, rfl⟩⟩

/-- In every reached state the buffer can be written. -/
theorem run_inetNtoa {app : α} {events : List ServerEvent}
    (returned : run (serverStep .staticBuffer configuration executors) events { app } =
      some server) (text : List UInt8) :
    ∃ written, inetNtoa .staticBuffer text server.raknet = some written := by
  apply inetNtoa_total
  exact run_preserves (fun _ => SharedText)
    (fun _ _ _ _ shared stepped => serverStep_sharedText shared stepped) events [] _ server
    ⟨[], fun _ member => absurd member List.not_mem_nil⟩ returned

end Runs

/-- A run of ticks is one of these runs. -/
theorem addresses_kept_iff (configuration : Configuration) (executors : Executors α) (app : α)
    (events : List ServerEvent) (final : Podrum α)
    (returned : run (serverStep .staticBuffer configuration executors) events { app } =
      some final) :
    (∀ server, Visits (serverStep .staticBuffer configuration executors) events { app } server →
      ToOpeners server) ↔
    Throughout (serverStep .staticBuffer configuration executors) SameHost events { app } :=
  visits_iff_throughout ToOpeners (fun _ _ _ holds allowed stepped =>
    serverStep_keeps holds allowed stepped) (fun _ _ _ holds stepped after =>
    serverStep_needs holds stepped after) events { app } final (toOpeners_start app) returned

def podrum : Configuration := { podrumOffline with environment := stillEnvironment, version := 4 }

/-- An application that does nothing. -/
def idleExecutors : Executors Unit where
  onFrame := fun _ _ _ app => some (app, [])
  onNewIncomingConnection := fun _ app => app
  onDisconnectNotification := fun _ app => app

def firstHost : List UInt8 := [0x31, 0x30, 0x2e, 0x30, 0x2e, 0x30, 0x2e, 0x31]

def secondHost : List UInt8 := [0x31, 0x30, 0x2e, 0x30, 0x2e, 0x30, 0x2e, 0x32]

def opening : SocketData := ⟨⟨4, firstHost, 1000⟩, openRequest 1400⟩

/-- One byte, which no handler looks at, from another host. -/
def strayByte : SocketData := ⟨⟨4, secondHost, 2000⟩, [0]⟩

/-- Two ports of one host: each opens a connection, and the first one sends a
frame set with a gap in front of it. -/
def oneHost : List ServerEvent :=
  [.packet (some opening), .update, .packet none, .update,
    .packet (some ⟨⟨4, firstHost, 1001⟩, openRequest 576⟩), .update,
    .packet (some ⟨opening.address, [0x80, 1, 0, 0, 0, 0, 8, 0xFE]⟩), .update, .internal, .worker]

theorem addresses_kept_iff_oneHost :
    ∃ final, run (serverStep .staticBuffer podrum idleExecutors) oneHost { app := () } =
        some final ∧
      ((∀ server, Visits (serverStep .staticBuffer podrum idleExecutors) oneHost { app := () }
        server → ToOpeners server) ↔
      Throughout (serverStep .staticBuffer podrum idleExecutors) SameHost oneHost
        { app := () }) := by
  have computed : (run (serverStep .staticBuffer podrum idleExecutors) oneHost
      { app := () }).isSome := by decide
  obtain ⟨final, returned⟩ := Option.isSome_iff_exists.mp computed
  exact ⟨final, returned, addresses_kept_iff podrum idleExecutors () oneHost final returned⟩

/-- Two ticks. -/
theorem strayByte_moves_connection :
    ¬ ∀ (events : List ServerEvent) (final server : Podrum Unit),
      run (serverStep .staticBuffer podrum idleExecutors) events { app := () } = some final →
      Visits (serverStep .staticBuffer podrum idleExecutors) events { app := () } server →
      ToOpeners server := by
  intro kept
  have computed : (run (serverStep .staticBuffer podrum idleExecutors)
      [.packet (some opening), .update, .packet (some strayByte), .update] { app := () }).map
        (fun server => (addresses server.raknet, server.opened)) =
        some ([⟨4, secondHost, 1000⟩], [⟨4, firstHost, 1000⟩]) := by decide
  obtain ⟨final, returned, state⟩ := Option.map_eq_some_iff.mp computed
  obtain ⟨table, opened⟩ := Prod.mk.inj state
  have stored := (kept _ final final returned (visits_end returned)).stored
  rw [table, opened] at stored
  exact absurd (stored ⟨4, secondHost, 1000⟩ (List.mem_singleton.mpr rfl)) (by decide)

end PodrumRakNet.PeerAddress
