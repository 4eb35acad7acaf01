import PodrumFormal.Lib.EventRun
import PodrumFormal.Minecraft.Login

/-!
# The packet dispatcher

`on_f` on batches of sub-packets that were read already.  What it does is
recorded in order: the packets it prints as inbound, the calls of
`play_success`, and the packets and notifications it sends.  A position enters
only through its floor, and `encryption_enabled` is 0.
-/

set_option autoImplicit false

namespace PodrumMinecraft.Dispatch

open PodrumMisc.CString PodrumRakNet.Packet Player Login

def playStatusLoginSuccess : Int32 := 0
def playStatusFailedClient : Int32 := 1
def playStatusFailedServer : Int32 := 2
def playStatusPlayerSpawn : Int32 := 3

def resourcePackClientResponseNone : UInt8 := 0
def resourcePackClientResponseHaveAllPacks : UInt8 := 3
def resourcePackClientResponseCompleted : UInt8 := 4

def interactOpenInventory : UInt8 := 6
def windowIdInventory : Int8 := 0
def windowIdCreative : Int8 := 121
def windowTypeInventory : Int8 := -1

/-! ## Packets -/

/-- A sub-packet by its id; texts and skins are passed on as they are. -/
inductive GamePacket
  | requestNetworkSettings (protocolVersion : Int32)
  | login (login : PacketLogin)
  | clientToServerHandshake
  | resourcePackClientResponse (responseStatus : UInt8) (resourcePackIds : List (List UInt8))
  | requestChunkRadius (chunkRadius : Int32)
  | interact (actionId : UInt8)
  | text (body : List UInt8)
  | containerClose (windowId : Int8)
  | movePlayer (positionX positionY positionZ : Int)
  | requestAbility (abilityId : Int32)
  | playerSkin (body : List UInt8)
  | unknown (pid : UInt32)
  deriving DecidableEq

inductive SentPacket
  | networkSettings
  | playStatus (status : Int32)
  | disconnect (message : List UInt8)
  | resourcePacksInfo
  | resourcePackStack
  | startGame (entityUniqueId : Int64) (entityRuntimeId : UInt64) (playerGamemode : Int32)
  | creativeContent (entryIds : List (Option UInt32))
  | biomeDefinitionList
  | availableEntityIdentifiers
  | chunkRadiusUpdated (chunkRadius : Int32)
  | levelChunk (x z : Int)
  | networkChunkPublisherUpdate (x y z : Int) (radius : UInt32)
  | containerOpen (windowId windowType : Int8) (x y z : Int) (entityUniqueId : Int64)
  | containerClose (windowId : Int8) (server : UInt8)
  | movePlayer (runtimeId : UInt32) (positionX positionY positionZ : Int)
  | text (body : List UInt8)
  | playerSkin (body : List UInt8)
  deriving DecidableEq

inductive Action
  | inbound (address : MiscAddress) (packet : GamePacket)
  | playSuccess (address : MiscAddress)
  | send (address : MiscAddress) (packet : SentPacket)
  | disconnectNotification (address : MiscAddress)
  deriving DecidableEq

/-! ## State -/

/-- `login` is the outside of each login check, the draws are what `rand` gives
to each loop that looks for an id, and `creativeItems` is the size of the
resource's list. -/
structure GameEnvironment where
  login : Nat → LoginEnvironment
  uniqueDraws : Nat → List Int32
  runtimeDraws : Nat → List Int32
  creativeItems : Nat

structure GameState where
  manager : MinecraftPlayerManager := KeyedArray.empty
  actions : List Action := []
  logins : Nat := 0
  registrations : Nat := 0

def GameState.record (actions : List Action) (state : GameState) : GameState :=
  { state with actions := state.actions ++ actions }

/-! ## Packets that need no player -/

/-- The first draw that no player has; `none` where none is among the draws. -/
def drawEntityUniqueId (draws : List Int32) (manager : MinecraftPlayerManager) : Option Int64 :=
  (draws.map fun draw => (-draw).toInt64).find? fun id =>
    !hasMinecraftPlayerEntityUniqueId id manager

def drawEntityRuntimeId (draws : List Int32) (manager : MinecraftPlayerManager) :
    Option Int64 :=
  (draws.map Int32.toInt64).find? fun id => !hasMinecraftPlayerEntityRuntimeId id manager

def newPlayer (address : MiscAddress) (protocol : Int32) (entityUniqueId entityRuntimeId : Int64) :
    MinecraftPlayer where
  entityUniqueId
  entityRuntimeId := entityRuntimeId.toUInt64
  address
  protocol
  displayName := some []
  identity := some []
  titleId := some []
  xuid := some []
  x := 0
  y := -56
  z := 0
  gamemode := 1
  viewDistance := 8
  spawned := 0

def handleRequestNetworkSettings (environment : GameEnvironment) (address : MiscAddress)
    (protocolVersion : Int32) (state : GameState) : Except Fault GameState := do
  if 594 ≤ protocolVersion then
    let entityUniqueId ← orFault .outOfFuel <|
      drawEntityUniqueId (environment.uniqueDraws state.registrations) state.manager
    let entityRuntimeId ← orFault .outOfFuel <|
      drawEntityRuntimeId (environment.runtimeDraws state.registrations) state.manager
    let player := newPlayer address protocolVersion entityUniqueId entityRuntimeId
    return { state with
      manager := addMinecraftPlayer player state.manager
      actions := state.actions ++ [.send address .networkSettings]
      registrations := state.registrations + 1 }
  else
    let status :=
      if protocolVersion < 594 then playStatusFailedClient else playStatusFailedServer
    return state.record [.send address (.playStatus status)]

def loginActions (address : MiscAddress) : LoginOutcome → List Action
  | .ignored => []
  | .disconnect message => [.send address (.disconnect message)]
  | .playSuccess =>
      [.playSuccess address, .send address (.playStatus playStatusLoginSuccess),
        .send address .resourcePacksInfo]

def handleLogin (environment : GameEnvironment) (address : MiscAddress) (login : PacketLogin)
    (state : GameState) : Except Fault GameState := do
  let (manager, outcome) ←
    handlePacketLogin (environment.login state.logins) address state.manager login
  return { state with
    manager
    actions := state.actions ++ loginActions address outcome
    logins := state.logins + 1 }

/-! ## Packets of a player -/

/-- The two loops of `send_chunks`, where their bounds do not overflow. -/
def chunkSquare (currentX currentZ viewDistance : Int) : List (Int × Int) :=
  (List.range (2 * viewDistance).toNat).flatMap fun x =>
    (List.range (2 * viewDistance).toNat).map fun z =>
      (currentX - viewDistance + x, currentZ - viewDistance + z)

def sendChunks (player : MinecraftPlayer) : List SentPacket :=
  (chunkSquare (player.x / 16) (player.z / 16) player.viewDistance.toInt).map
      (fun chunk => .levelChunk chunk.1 chunk.2) ++
    [.networkChunkPublisherUpdate player.x player.y player.z
      (player.viewDistance <<< 4).toUInt32]

/-- The loop writes one place, that of the sub-packet's position `i`. -/
def creativeEntryIds (i creativeItems : Nat) : Except Fault (List (Option UInt32)) :=
  if creativeItems = 0 then .ok []
  else if i < creativeItems then
    .ok ((List.replicate creativeItems none).set i (some (i + 1).toUInt32))
  else .error .outOfBounds

def handlePacketRequestChunkRadius (chunkRadius : Int32) (player : MinecraftPlayer) :
    MinecraftPlayer × List SentPacket :=
  if player.spawned = 1 then (player, [])
  else
    let radius := if chunkRadius < 8 then chunkRadius else 8
    let player := { player with viewDistance := radius }
    ({ player with spawned := 1 },
      .chunkRadiusUpdated radius :: sendChunks player ++ [.playStatus playStatusPlayerSpawn])

/-- An invalid mode leaves the window unwritten and goes on. -/
def gamemodeWindow (gamemode : Int32) : Except Fault Int8 :=
  if gamemode = 0 ∨ gamemode = 2 ∨ gamemode = 3 ∨ gamemode = 5 then .ok windowIdInventory
  else if gamemode = 1 ∨ gamemode = 4 then .ok windowIdCreative
  else .error .unwritten

def handlePacketInteract (actionId : UInt8) (player : MinecraftPlayer) :
    Except Fault (List SentPacket) := do
  if actionId = interactOpenInventory then
    let windowId ← gamemodeWindow player.gamemode
    -- The source casts the position, which truncates a negative one where the floor does not.
    return [.containerOpen windowId windowTypeInventory player.x player.y player.z
      player.entityUniqueId]
  else return []

def handlePacketMovePlayer (x y z : Int) (player : MinecraftPlayer) :
    MinecraftPlayer × List SentPacket :=
  ({ player with x, y, z },
    if player.spawned = 1 ∧ (player.x / 16 ≠ x / 16 ∨ player.z / 16 ≠ z / 16) then
      sendChunks player
    else [])

def handleResourcePackClientResponse (environment : GameEnvironment) (i : Nat)
    (responseStatus : UInt8) (player : MinecraftPlayer) : Except Fault (List SentPacket) := do
  if responseStatus = resourcePackClientResponseNone ∨
      responseStatus = resourcePackClientResponseHaveAllPacks then
    return [.resourcePackStack]
  else if responseStatus = resourcePackClientResponseCompleted then
    let entryIds ← creativeEntryIds i environment.creativeItems
    return [.startGame player.entityUniqueId player.entityRuntimeId player.gamemode,
      .creativeContent entryIds, .biomeDefinitionList, .availableEntityIdentifiers]
  else return []

def boardcastPacket (packet : SentPacket) (manager : MinecraftPlayerManager) : List Action :=
  (manager.slots.filter fun player => player.spawned = 1).map fun player =>
    .send player.address packet

/-- The height a text moves its sender to is taken from the first coordinate. -/
def teleportedPlayer (player : MinecraftPlayer) : MinecraftPlayer :=
  { player with y := player.x + 10 }

def teleport (player : MinecraftPlayer) : SentPacket :=
  .movePlayer player.entityRuntimeId.toUInt32 player.x player.y player.z

/-- The branch of each packet that needs a player: the player's record after
it and what it does. -/
def handlePlayerPacket (environment : GameEnvironment) (address : MiscAddress) (i : Nat)
    (manager : MinecraftPlayerManager) (player : MinecraftPlayer) :
    GamePacket → Except Fault (MinecraftPlayer × List Action)
  | .resourcePackClientResponse responseStatus _ => do
      let sent ← handleResourcePackClientResponse environment i responseStatus player
      return (player, sent.map (.send address))
  | .requestChunkRadius chunkRadius =>
      let (player, sent) := handlePacketRequestChunkRadius chunkRadius player
      .ok (player, sent.map (.send address))
  | .interact actionId => do
      let sent ← handlePacketInteract actionId player
      return (player, sent.map (.send address))
  | .text body =>
      let player := teleportedPlayer player
      .ok (player, .send address (teleport player) ::
        boardcastPacket (.text body) (manager.replace player))
  | .containerClose windowId => .ok (player, [.send address (.containerClose windowId 0)])
  | .movePlayer x y z =>
      let (player, sent) := handlePacketMovePlayer x y z player
      .ok (player, sent.map (.send address))
  | .playerSkin body => .ok (player, boardcastPacket (.playerSkin body) manager)
  | _ => .ok (player, [])

/-! ## The loop over a batch -/

/-- One round; a packet that finds no player leaves the loop. -/
def handleGamePacket (environment : GameEnvironment) (address : MiscAddress) (i : Nat)
    (packet : GamePacket) (state : GameState) : Except Fault (GameState × Bool) := do
  let state := state.record [.inbound address packet]
  match packet with
  | .requestNetworkSettings protocolVersion =>
      let state ← handleRequestNetworkSettings environment address protocolVersion state
      return (state, true)
  | .login login =>
      let state ← handleLogin environment address login state
      return (state, true)
  | packet =>
      match getMinecraftPlayerAddress address state.manager with
      | none => return (state, false)
      | some player =>
          let (player, actions) ←
            handlePlayerPacket environment address i state.manager player packet
          return ({ state with
            manager := state.manager.replace player
            actions := state.actions ++ actions }, true)

def handleBatch (environment : GameEnvironment) (address : MiscAddress) :
    Nat → List GamePacket → GameState → Except Fault GameState
  | _, [], state => .ok state
  | i, packet :: packets, state => do
      let (state, goesOn) ← handleGamePacket environment address i packet state
      if goesOn then handleBatch environment address (i + 1) packets state else return state

/-- A frame that is a game packet with its sub-packets, or another frame. -/
inductive GameFrame
  | game (packets : List GamePacket)
  | other

def onF (environment : GameEnvironment) (address : MiscAddress) (frame : GameFrame)
    (state : GameState) : Except Fault GameState :=
  match frame with
  | .game packets => handleBatch environment address 0 packets state
  | .other => .ok (state.record [.disconnectNotification address])

/-- One call of `on_f` for some connection; `none` where it does not return. -/
def gameStep (environment : GameEnvironment) (state : GameState)
    (event : MiscAddress × GameFrame) : Option GameState :=
  (onF environment event.1 event.2 state).toOption

end PodrumMinecraft.Dispatch
