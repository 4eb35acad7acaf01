import PodrumFormal.Lib.CellTable
import PodrumFormal.Lib.EventRun
import PodrumFormal.Lib.OrderedMap
import PodrumFormal.RakNet.Server

/-!
# The connection table

The array behind the connections as the source resizes, copies and searches it,
with the fields that only it stores.  It is a finite map in insertion order.
-/

set_option autoImplicit false

namespace PodrumRakNet.ConnectionTable

open EventRun PodrumRakNet.Packet
open PodrumRakNet.Connections hiding addRaknetConnection hasRaknetConnection
open PodrumRakNet.Server hiding removeRaknetConnection getRaknetConnection

/-- A connection with the fields that no other function reads.  The guid is cut
to an `unsigned`. -/
structure RaknetConnection extends Connection where
  guid : UInt32
  receiverReliableFrameIndex : UInt32 := 0
  ms : Int := 0
  lastPingTime : Int
  lastReceiveTime : Int

abbrev RaknetConnections := CellTable RaknetConnection

/-- Ports and texts are compared, the versions are not. -/
def sameAddress (address : MiscAddress) (connection : RaknetConnection) : Bool :=
  connection.address.port = address.port ∧ connection.address.address = address.address

def hasRaknetConnection (address : MiscAddress) (table : RaknetConnections) : Option Bool :=
  table.isIn (sameAddress address)

/-- What `add_raknet_connection` is called with, and the times it reads. -/
structure Opening where
  address : MiscAddress
  mtuSize : UInt16
  guid : UInt64
  pingTime : Int
  receiveTime : Int

def Opening.connection (opening : Opening) : RaknetConnection where
  toConnection := newConnection opening.address opening.mtuSize
  guid := opening.guid.toUInt32
  lastPingTime := opening.pingTime
  lastReceiveTime := opening.receiveTime

def addRaknetConnection (opening : Opening) (table : RaknetConnections) : Option RaknetConnections :=
  table.insert (sameAddress opening.address) opening.connection

def removeRaknetConnection (address : MiscAddress) (table : RaknetConnections) :
    Option RaknetConnections :=
  table.remove (sameAddress address)

def getRaknetConnection (address : MiscAddress) (table : RaknetConnections) :
    Option (Option RaknetConnection) :=
  table.find (sameAddress address)

inductive TableEvent
  | add (opening : Opening)
  | remove (address : MiscAddress)

def step (table : RaknetConnections) : TableEvent → Option RaknetConnections
  | .add opening => addRaknetConnection opening table
  | .remove address => removeRaknetConnection address table

/-! ## The finite map -/

abbrev PeerKey := UInt16 × List UInt8

def keyOf (address : MiscAddress) : PeerKey := (address.port, address.address)

def connectionKey (connection : RaknetConnection) : PeerKey := keyOf connection.address

abbrev ConnectionMap := OrderedMap PeerKey RaknetConnection

def mapStep (map : ConnectionMap) : TableEvent → ConnectionMap
  | .add opening => map.insert (keyOf opening.address) opening.connection
  | .remove address => map.erase (keyOf address)

theorem sameAddress_eq (address : MiscAddress) :
    sameAddress address = fun connection => decide (connectionKey connection = keyOf address) := by
  funext connection
  rw [sameAddress, connectionKey, keyOf, keyOf]
  simp only [Prod.mk.injEq]

/-- The entries stand in the table in the order of the keys, and every operation
of the source does to them what it does to the map. -/
structure BehavesAs (map : ConnectionMap) (connections : List RaknetConnection)
    (table : RaknetConnections) : Prop where
  cells : CellTable.Holds connections table
  keys : connections.map connectionKey = map.keys
  values : ∀ connection ∈ connections, map.value (connectionKey connection) = some connection
  count : table.count = connections.length
  get : ∀ address, getRaknetConnection address table = some (map.value (keyOf address))
  has : ∀ address, hasRaknetConnection address table = some (map.value (keyOf address)).isSome
  addPresent : ∀ opening : Opening, keyOf opening.address ∈ map.keys →
    addRaknetConnection opening table = some table
  remove : ∀ address, ∃ after, removeRaknetConnection address table = some after ∧
    CellTable.Holds (connections.filter fun connection =>
      connectionKey connection ≠ keyOf address) after

section Array

variable {array : KeyedArray connectionKey} {table : RaknetConnections}

theorem behavesAs_ofArray (holds : CellTable.Holds array.slots table) :
    BehavesAs (OrderedMap.ofArray array) array.slots table where
  cells := holds
  keys := rfl
  values := fun connection member => KeyedArray.find_of_mem member
  count := holds.count
  get := fun address => by
    rw [getRaknetConnection, sameAddress_eq]
    exact holds.find_key (keyOf address)
  has := fun address => by
    rw [hasRaknetConnection, sameAddress_eq, holds.isIn_key, KeyedArray.isIn, ← List.isSome_find?]
    rfl
  addPresent := fun opening present => by
    rw [addRaknetConnection, sameAddress_eq]
    have isIn : array.isIn (connectionKey opening.connection) = true :=
      (KeyedArray.isIn_iff_mem _ _).mpr present
    exact holds.insert_present isIn
  remove := fun address => by
    obtain ⟨after, success, left⟩ := holds.remove (keyOf address)
    rw [KeyedArray.deduct_slots] at left
    rw [removeRaknetConnection, sameAddress_eq]
    exact ⟨after, success, left⟩

theorem step_map (holds : CellTable.Holds array.slots table) (event : TableEvent) :
    ∃ (after : RaknetConnections) (next : KeyedArray connectionKey),
      step table event = some after ∧ CellTable.Holds next.slots after ∧
      OrderedMap.ofArray next = mapStep (OrderedMap.ofArray array) event := by
  cases event with
  | add opening =>
      obtain ⟨after, success, written⟩ := holds.insert opening.connection
      refine ⟨after, array.append opening.connection, ?_, written, OrderedMap.ofArray_append _ _⟩
      rw [step, addRaknetConnection, sameAddress_eq]
      exact success
  | remove address =>
      obtain ⟨after, success, left⟩ := holds.remove (keyOf address)
      refine ⟨after, array.deduct (keyOf address), ?_, left, OrderedMap.ofArray_deduct _ _⟩
      rw [step, removeRaknetConnection, sameAddress_eq]
      exact success

end Array

/-! ## The connections of the server -/

/-- The server's connections are the entries without the fields that only the
table stores. -/
def TableOf (server : RaknetServer) (table : RaknetConnections) : Prop :=
  ∃ array : KeyedArray connectionKey, CellTable.Holds array.slots table ∧
    array.slots.map RaknetConnection.toConnection = server.connections.slots

section Server

variable {server : RaknetServer} {array : KeyedArray connectionKey}

theorem map_keys (same : array.slots.map RaknetConnection.toConnection =
    server.connections.slots) :
    array.slots.map connectionKey = server.connections.slots.map addressKey := by
  rw [← same, List.map_map]
  rfl

theorem append_connections (opening : Opening)
    (same : array.slots.map RaknetConnection.toConnection = server.connections.slots) :
    (array.append opening.connection).slots.map RaknetConnection.toConnection =
      (Connections.addRaknetConnection opening.address opening.mtuSize server).connections.slots := by
  have keys := map_keys same
  rw [Connections.addRaknetConnection]
  by_cases present : connectionKey opening.connection ∈ array.slots.map connectionKey
  · rw [KeyedArray.append_slots_present present, same]
    rw [keys] at present
    exact (KeyedArray.append_slots_present present).symm
  · rw [KeyedArray.append_slots_absent present, List.map_append, same]
    rw [keys] at present
    exact (KeyedArray.append_slots_absent present).symm

theorem deduct_connections (address : MiscAddress)
    (same : array.slots.map RaknetConnection.toConnection = server.connections.slots) :
    (array.deduct (keyOf address)).slots.map RaknetConnection.toConnection =
      (Server.removeRaknetConnection address server).connections.slots := by
  rw [Server.removeRaknetConnection, KeyedArray.deduct_slots, KeyedArray.deduct_slots, ← same,
    List.filter_map]
  rfl

/-- The table of the source and the model's keyed array take the same steps. -/
theorem tableOf_add {table : RaknetConnections} (holds : TableOf server table)
    (opening : Opening) :
    ∃ after, addRaknetConnection opening table = some after ∧
      TableOf (Connections.addRaknetConnection opening.address opening.mtuSize server) after := by
  obtain ⟨array, cells, same⟩ := holds
  obtain ⟨after, success, written⟩ := cells.insert opening.connection
  refine ⟨after, ?_, array.append opening.connection, written, append_connections opening same⟩
  rw [addRaknetConnection, sameAddress_eq]
  exact success

theorem tableOf_remove {table : RaknetConnections} (holds : TableOf server table)
    (address : MiscAddress) :
    ∃ after, removeRaknetConnection address table = some after ∧
      TableOf (Server.removeRaknetConnection address server) after := by
  obtain ⟨array, cells, same⟩ := holds
  obtain ⟨after, success, left⟩ := cells.remove (keyOf address)
  refine ⟨after, ?_, array.deduct (keyOf address), left, deduct_connections address same⟩
  rw [removeRaknetConnection, sameAddress_eq]
  exact success

theorem tableOf_has {table : RaknetConnections} (holds : TableOf server table)
    (address : MiscAddress) :
    hasRaknetConnection address table = some (Connections.hasRaknetConnection address server) := by
  obtain ⟨array, cells, same⟩ := holds
  rw [hasRaknetConnection, sameAddress_eq, cells.isIn_key, Connections.hasRaknetConnection,
    Option.some_inj, Bool.eq_iff_iff, KeyedArray.isIn_iff_mem, KeyedArray.isIn_iff_mem,
    map_keys same]
  rfl

end Server

/-! ## Runs -/

/-- The table holds an array whose map is the one of the history. -/
def HoldsMap (history : List TableEvent) (table : RaknetConnections) : Prop :=
  ∃ array : KeyedArray connectionKey, CellTable.Holds array.slots table ∧
    OrderedMap.ofArray array = history.foldl mapStep OrderedMap.empty

theorem holdsMap_step {history : List TableEvent} {table : RaknetConnections}
    (holds : HoldsMap history table) (event : TableEvent) :
    ∃ after, step table event = some after ∧ HoldsMap (history ++ [event]) after := by
  obtain ⟨array, cells, map⟩ := holds
  obtain ⟨after, next, success, written, stepped⟩ := step_map cells event
  refine ⟨after, success, next, written, ?_⟩
  rw [stepped, map, List.foldl_append]
  rfl

/-- Every run of additions and removals leaves the finite map of the run. -/
theorem connectionTable_map (events : List TableEvent) :
    ∃ table connections, run step events CellTable.empty = some table ∧
      BehavesAs (events.foldl mapStep OrderedMap.empty) connections table := by
  obtain ⟨table, reached, array, cells, map⟩ := run_total HoldsMap (fun _ => True)
    (fun history table event holds _ => holdsMap_step holds event) events [] CellTable.empty
    ⟨KeyedArray.empty, CellTable.holds_empty, rfl⟩ (fun _ _ => trivial)
  rw [List.nil_append] at map
  exact ⟨table, array.slots, reached, map ▸ behavesAs_ofArray cells⟩

end PodrumRakNet.ConnectionTable
