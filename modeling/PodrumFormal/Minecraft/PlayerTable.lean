import PodrumFormal.Lib.CellTable
import PodrumFormal.Minecraft.PlayerSessions

/-!
# The player table

The array behind the players as the source resizes, copies and searches it, and
the loops that draw the ids.  The three keys of a player stay its own.
-/

set_option autoImplicit false

namespace PodrumMinecraft.PlayerTable

open PodrumMisc.CString PodrumRakNet.Packet Dispatch
open Player hiding addMinecraftPlayer removeMinecraftPlayer getMinecraftPlayerAddress
  hasMinecraftPlayerEntityUniqueId hasMinecraftPlayerEntityRuntimeId

abbrev MinecraftPlayers := CellTable MinecraftPlayer

/-! ## The manager's functions -/

/-- Ports and texts are compared, the versions are not. -/
def sameAddress (address : MiscAddress) (player : MinecraftPlayer) : Bool :=
  player.address.port = address.port ∧ player.address.address = address.address

def addMinecraftPlayer (player : MinecraftPlayer) (players : MinecraftPlayers) :
    Option MinecraftPlayers :=
  players.insert (sameAddress player.address) player

def removeMinecraftPlayer (address : MiscAddress) (players : MinecraftPlayers) :
    Option MinecraftPlayers :=
  players.remove (sameAddress address)

def getMinecraftPlayerAddress (address : MiscAddress) (players : MinecraftPlayers) :
    Option (Option MinecraftPlayer) :=
  players.find (sameAddress address)

def hasMinecraftPlayerEntityUniqueId (entityUniqueId : Int64) (players : MinecraftPlayers) :
    Option Bool :=
  players.isIn fun player => player.entityUniqueId = entityUniqueId

def hasMinecraftPlayerEntityRuntimeId (entityRuntimeId : Int64) (players : MinecraftPlayers) :
    Option Bool :=
  players.isIn fun player => player.entityRuntimeId = entityRuntimeId.toUInt64

/-! ## The two packets -/

/-- The loop that draws until an id is free.  What `rand` returns is the list,
and the loop does not end where every id of it is taken. -/
def drawUnused (isTaken : Int64 → Option Bool) : List Int64 → Except Fault Int64
  | [] => .error .outOfFuel
  | id :: draws => do
      if ← orFault .outOfBounds (isTaken id) then drawUnused isTaken draws else return id

structure SettingsRequest where
  address : MiscAddress
  protocolVersion : Int32
  uniqueDraws : List Int32
  runtimeDraws : List Int32

/-- What `on_f` does to the players on the packet. -/
def requestNetworkSettings (request : SettingsRequest) (players : MinecraftPlayers) :
    Except Fault MinecraftPlayers :=
  if 594 ≤ request.protocolVersion then do
    let entityUniqueId ← drawUnused (hasMinecraftPlayerEntityUniqueId · players)
      (request.uniqueDraws.map fun draw => (-draw).toInt64)
    let entityRuntimeId ← drawUnused (hasMinecraftPlayerEntityRuntimeId · players)
      (request.runtimeDraws.map Int32.toInt64)
    orFault .outOfBounds <| addMinecraftPlayer
      (newPlayer request.address request.protocolVersion entityUniqueId entityRuntimeId) players
  else return players

def onDn (address : MiscAddress) (players : MinecraftPlayers) : Except Fault MinecraftPlayers :=
  orFault .outOfBounds (removeMinecraftPlayer address players)

inductive PlayerEvent
  | settings (request : SettingsRequest)
  | disconnect (address : MiscAddress)

def step (players : MinecraftPlayers) : PlayerEvent → Except Fault MinecraftPlayers
  | .settings request => requestNetworkSettings request players
  | .disconnect address => onDn address players

/-! ## The model's manager -/

theorem sameAddress_eq (address : MiscAddress) :
    sameAddress address = fun player => decide (playerKey player = addressKey address) := by
  funext player
  rw [sameAddress, playerKey, addressKey, addressKey]
  simp only [Prod.mk.injEq]

theorem drawUnused_eq {isTaken : Int64 → Option Bool} {taken : Int64 → Bool}
    (same : ∀ id, isTaken id = some (taken id)) (draws : List Int64) :
    drawUnused isTaken draws = orFault .outOfFuel (draws.find? fun id => !taken id) := by
  induction draws with
  | nil => rfl
  | cons id draws ih =>
      rw [drawUnused, same, List.find?_cons]
      cases taken id with
      | true => exact ih
      | false => rfl

section Manager

variable {manager : MinecraftPlayerManager} {players : MinecraftPlayers}

theorem drawEntityUniqueId_eq (holds : CellTable.Holds manager.slots players)
    (draws : List Int32) :
    drawUnused (hasMinecraftPlayerEntityUniqueId · players)
      (draws.map fun draw => (-draw).toInt64) =
      orFault .outOfFuel (drawEntityUniqueId draws manager) :=
  drawUnused_eq (fun _ => holds.isIn _) _

theorem drawEntityRuntimeId_eq (holds : CellTable.Holds manager.slots players)
    (draws : List Int32) :
    drawUnused (hasMinecraftPlayerEntityRuntimeId · players) (draws.map Int32.toInt64) =
      orFault .outOfFuel (drawEntityRuntimeId draws manager) :=
  drawUnused_eq (fun _ => holds.isIn _) _

theorem addMinecraftPlayer_holds (holds : CellTable.Holds manager.slots players)
    (player : MinecraftPlayer) :
    ∃ after, addMinecraftPlayer player players = some after ∧
      CellTable.Holds (Player.addMinecraftPlayer player manager).slots after := by
  rw [addMinecraftPlayer, sameAddress_eq]
  exact holds.insert player

theorem onDn_holds (holds : CellTable.Holds manager.slots players) (address : MiscAddress) :
    ∃ after, onDn address players = .ok after ∧
      CellTable.Holds (Player.removeMinecraftPlayer address manager).slots after := by
  obtain ⟨after, success, left⟩ := holds.remove (addressKey address)
  refine ⟨after, ?_, left⟩
  rw [onDn, removeMinecraftPlayer, sameAddress_eq, success]
  rfl

/-- All that the packet can do: the draws do not end, the protocol is too old, or
a player with ids that were free is added. -/
theorem requestNetworkSettings_cases (holds : CellTable.Holds manager.slots players)
    (request : SettingsRequest) :
    (requestNetworkSettings request players = .error .outOfFuel) ∨
    (requestNetworkSettings request players = .ok players) ∨
    ∃ entityUniqueId entityRuntimeId after,
      drawEntityUniqueId request.uniqueDraws manager = some entityUniqueId ∧
      drawEntityRuntimeId request.runtimeDraws manager = some entityRuntimeId ∧
      requestNetworkSettings request players = .ok after ∧
      CellTable.Holds (Player.addMinecraftPlayer (newPlayer request.address
        request.protocolVersion entityUniqueId entityRuntimeId) manager).slots after := by
  rw [requestNetworkSettings]
  by_cases recent : 594 ≤ request.protocolVersion
  · rw [if_pos recent, drawEntityUniqueId_eq holds, drawEntityRuntimeId_eq holds]
    cases unique : drawEntityUniqueId request.uniqueDraws manager with
    | none => exact .inl rfl
    | some entityUniqueId =>
        cases runtime : drawEntityRuntimeId request.runtimeDraws manager with
        | none => exact .inl rfl
        | some entityRuntimeId =>
            obtain ⟨after, success, written⟩ := addMinecraftPlayer_holds holds
              (newPlayer request.address request.protocolVersion entityUniqueId entityRuntimeId)
            refine .inr (.inr ⟨entityUniqueId, entityRuntimeId, after, rfl, rfl, ?_, written⟩)
            simp only [orFault, ok_bind, success]
  · rw [if_neg recent]
    exact .inr (.inl rfl)

/-! ## The ids -/

/-- The keyed array tells the addresses apart, and the draws the ids. -/
structure DistinctIds (players : List MinecraftPlayer) : Prop where
  unique : (players.map MinecraftPlayer.entityUniqueId).Nodup
  runtime : (players.map MinecraftPlayer.entityRuntimeId).Nodup

theorem DistinctIds.remove (distinct : DistinctIds manager.slots) (address : MiscAddress) :
    DistinctIds (Player.removeMinecraftPlayer address manager).slots := by
  rw [Player.removeMinecraftPlayer, KeyedArray.deduct_slots]
  exact ⟨distinct.unique.sublist (List.filter_sublist.map _),
    distinct.runtime.sublist (List.filter_sublist.map _)⟩

theorem DistinctIds.add (distinct : DistinctIds manager.slots) {player : MinecraftPlayer}
    (unique : player.entityUniqueId ∉ manager.slots.map MinecraftPlayer.entityUniqueId)
    (runtime : player.entityRuntimeId ∉ manager.slots.map MinecraftPlayer.entityRuntimeId) :
    DistinctIds (Player.addMinecraftPlayer player manager).slots := by
  rw [Player.addMinecraftPlayer]
  by_cases present : playerKey player ∈ manager.slots.map playerKey
  · rwa [KeyedArray.append_slots_present present]
  · rw [KeyedArray.append_slots_absent present]
    refine ⟨?_, ?_⟩
    · rw [List.map_append, List.map_singleton]
      exact distinct.unique.append (List.nodup_singleton _) (by simpa using unique)
    · rw [List.map_append, List.map_singleton]
      exact distinct.runtime.append (List.nodup_singleton _) (by simpa using runtime)

theorem drawEntityUniqueId_free {draws : List Int32} {id : Int64}
    (drawn : drawEntityUniqueId draws manager = some id) :
    id ∉ manager.slots.map MinecraftPlayer.entityUniqueId := by
  have free := List.find?_some drawn
  simpa [Player.hasMinecraftPlayerEntityUniqueId] using free

theorem drawEntityRuntimeId_free {draws : List Int32} {id : Int64}
    (drawn : drawEntityRuntimeId draws manager = some id) :
    id.toUInt64 ∉ manager.slots.map MinecraftPlayer.entityRuntimeId := by
  have free := List.find?_some drawn
  simpa [Player.hasMinecraftPlayerEntityRuntimeId] using free

end Manager

/-! ## Runs -/

/-- The players that the array holds, told apart by each of their keys; a
disconnect removes exactly the player of its address. -/
structure Separate (held : List MinecraftPlayer) (players : MinecraftPlayers) : Prop where
  cells : CellTable.Holds held players
  size : players.count = held.length
  addresses : (held.map playerKey).Nodup
  ids : DistinctIds held
  disconnect : ∀ address, ∃ after, onDn address players = .ok after ∧
    CellTable.Holds (held.filter fun player => playerKey player ≠ addressKey address) after

def Manages (players : MinecraftPlayers) : Prop :=
  ∃ manager : MinecraftPlayerManager, CellTable.Holds manager.slots players ∧
    DistinctIds manager.slots

theorem Manages.separate {players : MinecraftPlayers} (manages : Manages players) :
    ∃ held, Separate held players := by
  obtain ⟨manager, cells, ids⟩ := manages
  refine ⟨manager.slots, cells, cells.count, manager.distinct, ids, fun address => ?_⟩
  obtain ⟨after, success, left⟩ := onDn_holds cells address
  rw [Player.removeMinecraftPlayer, KeyedArray.deduct_slots] at left
  exact ⟨after, success, left⟩

/-- No step leaves its arrays; one that ends keeps the keys apart. -/
theorem Manages.step {players : MinecraftPlayers} (manages : Manages players)
    (event : PlayerEvent) :
    PlayerTable.step players event = .error .outOfFuel ∨
      ∃ after, PlayerTable.step players event = .ok after ∧ Manages after := by
  obtain ⟨manager, cells, ids⟩ := manages
  cases event with
  | settings request =>
      rcases requestNetworkSettings_cases cells request with
        endless | old | ⟨entityUniqueId, entityRuntimeId, after, unique, runtime, success, written⟩
      · exact .inl endless
      · exact .inr ⟨players, old, manager, cells, ids⟩
      · exact .inr ⟨after, success, _, written, ids.add (drawEntityUniqueId_free unique)
          (drawEntityRuntimeId_free runtime)⟩
  | disconnect address =>
      obtain ⟨after, success, left⟩ := onDn_holds cells address
      exact .inr ⟨after, success, _, left, ids.remove address⟩

/-- A run that ends keeps the keys apart, and only endless draws keep one from
ending. -/
def Kept : Except Fault MinecraftPlayers → Prop
  | .ok players => ∃ held, Separate held players
  | .error fault => fault = .outOfFuel

theorem Manages.run {players : MinecraftPlayers} (manages : Manages players)
    (events : List PlayerEvent) : Kept (events.foldlM PlayerTable.step players) := by
  induction events generalizing players with
  | nil => exact manages.separate
  | cons event rest ih =>
      rw [List.foldlM_cons]
      rcases manages.step event with endless | ⟨after, success, next⟩
      · rw [endless]
        rfl
      · rw [success]
        exact ih next

/-- Whatever is drawn and from wherever the packets come, the players of the
manager are told apart by address, unique id and runtime id. -/
theorem playerTable_separate (events : List PlayerEvent) :
    Kept (events.foldlM step CellTable.empty) :=
  Manages.run ⟨KeyedArray.empty, CellTable.holds_empty, List.nodup_nil, List.nodup_nil⟩ events

/-! ## The dispatcher -/

/-- The dispatcher's manager and the array end alike. -/
inductive Follows : Except Fault GameState → Except Fault MinecraftPlayers → Prop
  | ok {next : GameState} {after : MinecraftPlayers}
      (holds : CellTable.Holds next.manager.slots after) : Follows (.ok next) (.ok after)
  | error (fault : Fault) : Follows (.error fault) (.error fault)

theorem requestNetworkSettings_follows (environment : GameEnvironment) {state : GameState}
    {players : MinecraftPlayers} (holds : CellTable.Holds state.manager.slots players)
    (address : MiscAddress) (protocolVersion : Int32) :
    Follows (handleRequestNetworkSettings environment address protocolVersion state)
      (requestNetworkSettings ⟨address, protocolVersion,
        environment.uniqueDraws state.registrations,
        environment.runtimeDraws state.registrations⟩ players) := by
  rw [handleRequestNetworkSettings, requestNetworkSettings]
  by_cases recent : 594 ≤ protocolVersion
  · rw [if_pos recent, if_pos recent, drawEntityUniqueId_eq holds, drawEntityRuntimeId_eq holds]
    cases drawEntityUniqueId (environment.uniqueDraws state.registrations) state.manager with
    | none => exact .error .outOfFuel
    | some entityUniqueId =>
        cases drawEntityRuntimeId (environment.runtimeDraws state.registrations) state.manager with
        | none => exact .error .outOfFuel
        | some entityRuntimeId =>
            obtain ⟨after, success, written⟩ := addMinecraftPlayer_holds holds
              (newPlayer address protocolVersion entityUniqueId entityRuntimeId)
            simp only [orFault, ok_bind, success]
            exact .ok written
  · rw [if_neg recent, if_neg recent]
    exact .ok holds

theorem onDn_follows {state : GameState} {players : MinecraftPlayers}
    (holds : CellTable.Holds state.manager.slots players) (address : MiscAddress) :
    Follows (.ok (PlayerSessions.onDn address state)) (onDn address players) := by
  obtain ⟨after, success, left⟩ := onDn_holds holds address
  rw [success]
  exact .ok left

end PodrumMinecraft.PlayerTable
