import PodrumFormal.RakNet.Handler

/-!
# The server's connections

Looking a connection up by the address text and the port, writing through the
pointer that the lookup returns, removing a connection, and what
`disconnect_raknet_client` and `update_raknet_connections` do with all this.
-/

set_option autoImplicit false

namespace PodrumRakNet.Server

open PodrumRakNet.Frame PodrumRakNet.Packet PodrumRakNet.Connections PodrumRakNet.SendQueue

def getRaknetConnection (address : MiscAddress) (server : RaknetServer) : Option Connection :=
  server.connections.find (address.port, address.address)

/-- What the callers of `get_raknet_connection` leave behind the pointer. -/
def storeConnection (state : Connection × RaknetServer) : RaknetServer :=
  { state.2 with connections := state.2.connections.replace state.1 }

def removeRaknetConnection (address : MiscAddress) (server : RaknetServer) : RaknetServer :=
  { server with connections := server.connections.deduct (address.port, address.address) }

/-- The work of a caller that returns without a connection. -/
def withConnection (address : MiscAddress)
    (action : Connection → RaknetServer → Option (Connection × RaknetServer))
    (server : RaknetServer) : Option RaknetServer :=
  match getRaknetConnection address server with
  | some connection => (action connection server).map storeConnection
  | none => some server

def notifyThreaded (address : MiscAddress) (server : RaknetServer) : RaknetServer :=
  { server with
    mainToThreaded := server.mainToThreaded ++ [.disconnectNotification address] }

def disconnectFrame : MiscFrame := { stream := [idDisconnectNotification] }

def disconnectRaknetClient (address : MiscAddress) (server : RaknetServer) : RaknetServer :=
  let notified := notifyThreaded address server
  let flushed := match getRaknetConnection address notified with
    | some connection =>
        storeConnection (appendRaknetFrame disconnectFrame true connection notified)
    | none => notified
  removeRaknetConnection address flushed

/-- One turn of the loop of `update_raknet_connections`. -/
def updateConnection (server : RaknetServer) (connection : Connection) : RaknetServer :=
  let acknowledged := sendRaknetAckQueue connection server
  let reported := sendRaknetNackQueue acknowledged.1 acknowledged.2
  storeConnection (sendRaknetQueue reported.1 reported.2)

/-- A turn writes over its own entry only, so the loop goes through the entries
there were before it. -/
def updateRaknetConnections (server : RaknetServer) : RaknetServer :=
  server.connections.slots.foldl updateConnection server

/-! ## Looking a connection up -/

theorem getRaknetConnection_key {address : MiscAddress} {server : RaknetServer}
    {connection : Connection} (found : getRaknetConnection address server = some connection) :
    addressKey connection = (address.port, address.address) :=
  (KeyedArray.find_some found).2

theorem hasRaknetConnection_iff (address : MiscAddress) (server : RaknetServer) :
    hasRaknetConnection address server = true ↔
      ∃ connection, getRaknetConnection address server = some connection := by
  rw [hasRaknetConnection, KeyedArray.isIn_iff]
  constructor
  · intro present
    obtain ⟨connection, member, same⟩ := present
    exact ⟨connection, by rw [getRaknetConnection, ← same]; exact KeyedArray.find_of_mem member⟩
  · intro found
    obtain ⟨connection, success⟩ := found
    exact ⟨connection, KeyedArray.find_some success⟩

theorem getRaknetConnection_add {address : MiscAddress} {server : RaknetServer}
    (mtuSize : UInt16) (absent : hasRaknetConnection address server = false) :
    getRaknetConnection address (addRaknetConnection address mtuSize server) =
      some (newConnection address mtuSize) := by
  have missing : getRaknetConnection address server = none := by
    cases found : getRaknetConnection address server with
    | none => rfl
    | some connection =>
        rw [(hasRaknetConnection_iff address server).mpr ⟨connection, found⟩] at absent
        cases absent
  rw [getRaknetConnection] at missing
  rw [getRaknetConnection, addRaknetConnection, KeyedArray.find_append, missing, Option.none_or]
  exact if_pos rfl

/-- A lookup after a store through the pointer. -/
theorem getRaknetConnection_store {address : MiscAddress} {server next : RaknetServer}
    {connection after : Connection} (found : getRaknetConnection address server = some connection)
    (sameAddress : after.address = connection.address)
    (sameTable : next.connections = server.connections) :
    getRaknetConnection address (storeConnection (after, next)) = some after := by
  have key : addressKey after = (address.port, address.address) := by
    rw [addressKey, sameAddress]
    exact getRaknetConnection_key found
  rw [getRaknetConnection] at found
  rw [getRaknetConnection, storeConnection, KeyedArray.find_replace, if_pos key, sameTable, found]
  rfl

theorem getRaknetConnection_remove (address : MiscAddress) (server : RaknetServer) :
    getRaknetConnection address (removeRaknetConnection address server) = none := by
  rw [getRaknetConnection, removeRaknetConnection, KeyedArray.find_none, List.mem_map]
  intro present
  obtain ⟨connection, member, same⟩ := present
  exact ((KeyedArray.mem_deduct _ _ _).mp member).2 same

end PodrumRakNet.Server
