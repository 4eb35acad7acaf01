import PodrumFormal.Minecraft.LevelChunk
import PodrumFormal.Minecraft.PacketFields

/-!
# The packets of the server

Every `put_packet_` function by the calls it makes, `put_packet_game` and the
rounded angles of `put_packet_move_entity` apart.  No packet's bytes begin
another's, so a client tells the packets apart, and each by its fields.
-/

set_option autoImplicit false

namespace PodrumMinecraft.ServerPackets

open ByteReader ByteWriter CountedArray FieldRows PodrumStream.BinaryStream PodrumStream.VarInt
open PodrumNbt.Tag Misc SkinEncoding Item PacketGetters LevelChunk MiscValues PacketFields
open PacketPutters hiding putPacketResourcePackClientResponse putPacketText putPacketInteract
  putPacketContainerOpen putPacketMovePlayer putPacketRequestChunkRadius

def idPlayStatus : UInt32 := 0x02
def idServerToClientHandshake : UInt32 := 0x03
def idDisconnect : UInt32 := 0x05
def idResourcePacksInfo : UInt32 := 0x06
def idResourcePackStack : UInt32 := 0x07
def idSetTime : UInt32 := 0x0a
def idStartGame : UInt32 := 0x0b
def idUpdateAttributesPacket : UInt32 := 0x1d
def idChunkRadiusUpdated : UInt32 := 0x46
def idAvailableEntityIdentifiers : UInt32 := 0x77
def idNetworkChunkPublisherUpdate : UInt32 := 0x79
def idBiomeDefinitionList : UInt32 := 0x7a
def idNetworkSettings : UInt32 := 0x8f
def idCreativeContent : UInt32 := 0x91

/-! ## Records -/

structure PacketResourcePacksInfo where
  mustAccept : UInt8
  hasScripts : UInt8
  forceServerPacks : UInt8
  behaviorPacks : MiscBehaviorPackInfos
  texturePacks : MiscTexturePackInfos
  deriving DecidableEq

structure PacketResourcePackStack where
  mustAccept : UInt8
  behaviorPacks : MiscResourcePackIdVersions
  resourcePacks : MiscResourcePackIdVersions
  gameVersion : List UInt8
  experiments : MiscExperiments
  experimentsPreviouslyUsed : UInt8
  deriving DecidableEq

/-- Floats are bit patterns. -/
structure PacketStartGame where
  entityUniqueId : Int64
  entityRuntimeId : UInt64
  playerGamemode : Int32
  playerX : UInt32
  playerY : UInt32
  playerZ : UInt32
  pitch : UInt32
  yaw : UInt32
  seed : Int64
  biomeType : Int16
  biomeName : List UInt8
  dimension : Int32
  generator : Int32
  worldGamemode : Int32
  difficulty : Int32
  spawnX : Int32
  spawnY : UInt32
  spawnZ : Int32
  achievementsDisabled : UInt8
  dayCycleStopTime : Int32
  eduOffer : Int32
  eduFeaturesEnabled : UInt8
  eduProductUuid : List UInt8
  rainLevel : UInt32
  lightningLevel : UInt32
  hasConfirmedPlatformLockedContent : UInt8
  isMultiplayer : UInt8
  broadcastToLan : UInt8
  xboxLiveBroadcastMode : UInt32
  platformBroadcastMode : UInt32
  enableCommands : UInt8
  areTexturePacksRequired : UInt8
  gamerules : MiscGameRules
  experiments : MiscExperiments
  experimentsPreviouslyUsed : UInt8
  bonusChest : UInt8
  mapEnabled : UInt8
  permissionLevel : Int32
  serverChunkTickRange : Int32
  hasLockedBehaviorPack : UInt8
  hasLockedTexturePack : UInt8
  isFromLockedWorldTemplate : UInt8
  msaGamertagsOnly : UInt8
  isFromWorldTemplate : UInt8
  isWorldTemplateOptionLocked : UInt8
  onlySpawnV1Villagers : UInt8
  gameVersion : List UInt8
  limitedWorldWidth : Int32
  limitedWorldLength : Int32
  isNewNether : UInt8
  eduResourceUri : MiscEducationSharedResourceUri
  experimentalGameplayOverride : UInt8
  levelId : List UInt8
  worldName : List UInt8
  premiumWorldTemplateId : List UInt8
  isTrial : UInt8
  movementAuthority : Int32
  rewindHistorySize : Int32
  serverAuthoritativeBlockBreaking : UInt8
  currentTick : Int64
  enchantmentSeed : Int32
  blockProperties : MiscBlockProperties
  itemStates : MiscItemStates
  multiplayerCorrelationId : List UInt8
  serverAuthoritativeInventory : UInt8
  engine : List UInt8
  blockPalleteChecksum : UInt64

structure PacketUpdateAttributes where
  entityRuntimeId : UInt64
  attributes : Counted UInt32 MiscAttribute
  tick : UInt64
  deriving DecidableEq

structure FullPlayerSkin where
  skinUuid : List UInt8
  skinData : FullSkin
  newSkinName : List UInt8
  oldSkinName : List UInt8
  verified : UInt8

structure PacketNetworkChunkPublisherUpdate where
  x : Int32
  y : UInt32
  z : Int32
  radius : UInt32
  deriving DecidableEq

/-! ## Calls -/

def putPacketPlayStatus (status : Int32) : List Field := [.varInt idPlayStatus, .intBe status]

/-- The token is the one that `make_and_send_hand_shake` signs. -/
def putServerToClientHandshake (jwt : List UInt8) : List Field :=
  [.varInt idServerToClientHandshake, .string jwt]

def putPacketDisconnect (msg : List UInt8) : List Field :=
  [.varInt idDisconnect, .unsignedByte (if msg = [] then 1 else 0),
    .when (msg ≠ []) (.string msg)]

def putPacketResourcePacksInfo (packet : PacketResourcePacksInfo) : List Field :=
  [.varInt idResourcePacksInfo, .unsignedByte packet.mustAccept, .unsignedByte packet.hasScripts,
    .unsignedByte packet.forceServerPacks, .misc (.behaviorPackInfos packet.behaviorPacks),
    .misc (.texturePackInfos packet.texturePacks)]

def putPacketResourcePackStack (packet : PacketResourcePackStack) : List Field :=
  [.varInt idResourcePackStack, .unsignedByte packet.mustAccept,
    .misc (.resourcePackIdVersions packet.behaviorPacks),
    .misc (.resourcePackIdVersions packet.resourcePacks), .string packet.gameVersion,
    .misc (.experiments packet.experiments), .unsignedByte packet.experimentsPreviouslyUsed]

def putPacketResourcePackClientResponse (packet : FullResponse) : List Field :=
  [.varInt idResourcePackClientResponse, .unsignedByte packet.responseStatus,
    .resourcePackIds packet.ids]

def putPacketText (packet : FullText) : List Field :=
  [.varInt idText, .unsignedByte packet.type, .unsignedByte packet.needsTranslation,
    .when (hasSourceName packet.type) (.string packet.sourceName),
    .when (hasMessageOnly packet.type || hasParameters packet.type) (.string packet.message),
    .when (hasParameters packet.type) (.parameters packet.parameters),
    .string packet.xboxUserId, .string packet.platformChatId]

def putPacketSetTime (time : Int32) : List Field := [.varInt idSetTime, .signedVarInt time]

/-- `COMPOUND_TAG` and `END_TAG`. -/
def emptyCompound : List Field := [.byte 10, .varInt 0, .byte 0]

def putPacketStartGame (packet : PacketStartGame) : List Field :=
  [.varInt idStartGame,
    .signedVarLong packet.entityUniqueId,
    .varLong packet.entityRuntimeId,
    .signedVarInt packet.playerGamemode,
    .floatLe packet.playerX,
    .floatLe packet.playerY,
    .floatLe packet.playerZ,
    .floatLe packet.pitch,
    .floatLe packet.yaw,
    .longLe packet.seed,
    .shortLe packet.biomeType,
    .string packet.biomeName,
    .signedVarInt packet.dimension,
    .signedVarInt packet.generator,
    .signedVarInt packet.worldGamemode,
    .signedVarInt packet.difficulty,
    .signedVarInt packet.spawnX,
    .varInt packet.spawnY,
    .signedVarInt packet.spawnZ,
    .unsignedByte packet.achievementsDisabled,
    -- editor, created in editor, exported from editor
    .unsignedByte 0,
    .unsignedByte 1,
    .unsignedByte 0,
    .signedVarInt packet.dayCycleStopTime,
    .signedVarInt packet.eduOffer,
    .unsignedByte packet.eduFeaturesEnabled,
    .string packet.eduProductUuid,
    .floatLe packet.rainLevel,
    .floatLe packet.lightningLevel,
    .unsignedByte packet.hasConfirmedPlatformLockedContent,
    .unsignedByte packet.isMultiplayer,
    .unsignedByte packet.broadcastToLan,
    .varInt packet.xboxLiveBroadcastMode,
    .varInt packet.platformBroadcastMode,
    .unsignedByte packet.enableCommands,
    .unsignedByte packet.areTexturePacksRequired,
    .misc (.gameRules packet.gamerules),
    .misc (.experiments packet.experiments),
    .unsignedByte packet.experimentsPreviouslyUsed,
    .unsignedByte packet.bonusChest,
    .unsignedByte packet.mapEnabled,
    .signedVarInt packet.permissionLevel,
    .intLe packet.serverChunkTickRange,
    .unsignedByte packet.hasLockedBehaviorPack,
    .unsignedByte packet.hasLockedTexturePack,
    .unsignedByte packet.isFromLockedWorldTemplate,
    .unsignedByte packet.msaGamertagsOnly,
    .unsignedByte packet.isFromWorldTemplate,
    .unsignedByte packet.isWorldTemplateOptionLocked,
    .unsignedByte packet.onlySpawnV1Villagers,
    -- personas disabled, custom skins disabled, emotes muted
    .unsignedByte 1,
    .unsignedByte 0,
    .unsignedByte 1,
    .string packet.gameVersion,
    .intLe packet.limitedWorldWidth,
    .intLe packet.limitedWorldLength,
    .unsignedByte packet.isNewNether,
    .misc (.educationSharedResourceUri packet.eduResourceUri),
    .unsignedByte packet.experimentalGameplayOverride,
    -- chat restriction, no player interactions
    .unsignedByte 0,
    .unsignedByte 0,
    .string packet.levelId,
    .string packet.worldName,
    .string packet.premiumWorldTemplateId,
    .unsignedByte packet.isTrial,
    .signedVarInt packet.movementAuthority,
    .signedVarInt packet.rewindHistorySize,
    .unsignedByte packet.serverAuthoritativeBlockBreaking,
    .longLe packet.currentTick,
    .signedVarInt packet.enchantmentSeed,
    .misc (.blockProperties packet.blockProperties),
    .misc (.itemStates packet.itemStates),
    .string packet.multiplayerCorrelationId,
    .unsignedByte packet.serverAuthoritativeInventory,
    .string packet.engine] ++ emptyCompound ++
  [.unsignedLongLe packet.blockPalleteChecksum,
    .uuid (List.replicate 16 0x30),
    -- client side generation, block hashes, server side sounds
    .unsignedByte 0,
    .unsignedByte 0,
    .unsignedByte 0]

def putPacketBiomeDefinitionList (nbt : NbtNamed) : List Field :=
  [.varInt idBiomeDefinitionList, .nbtTag nbt]

def putPacketAvailableEntityIdentifiers (nbt : NbtNamed) : List Field :=
  [.varInt idAvailableEntityIdentifiers, .nbtTag nbt]

def putPacketCreativeContent (entries : Counted UInt32 (UInt32 × MiscItem)) : List Field :=
  [.varInt idCreativeContent, .creativeItems entries]

def putPacketUpdateAttributes (packet : PacketUpdateAttributes) : List Field :=
  [.varInt idUpdateAttributesPacket, .varLong packet.entityRuntimeId,
    .attributes packet.attributes, .varLong packet.tick]

def putPacketInteract (packet : FullInteract) : List Field :=
  [.varInt idInteract, .unsignedByte packet.actionId, .varLong packet.entityRuntimeId,
    .when (hasPosition packet.actionId) (.position packet.position)]

def putPacketContainerOpen (packet : PacketContainerOpen) : List Field :=
  [.varInt idContainerOpen, .byte packet.windowId, .byte packet.windowType,
    .signedVarInt packet.coordinatesX, .varInt packet.coordinatesY,
    .signedVarInt packet.coordinatesZ, .signedVarLong packet.entityUniqueId]

def putPacketContainerClose (packet : PacketContainerClose) : List Field :=
  [.varInt idContainerClose, .byte packet.windowId, .varInt packet.server.toUInt32]

def putPacketMovePlayer (packet : FullMovePlayer) : List Field :=
  [.varInt idMovePlayer, .varInt packet.runtimeId, .position packet.position,
    .floatLe packet.pitch, .floatLe packet.yaw, .floatLe packet.headYaw,
    .unsignedByte packet.mode, .unsignedByte packet.onGround, .varInt packet.riddenRuntimeId,
    .when (packet.mode = movePlayerModeTeleport) (.teleportCause packet.teleport),
    .varLong packet.tick]

def putPacketPlayerSkin (packet : FullPlayerSkin) : List Field :=
  [.varInt idPlayerSkin, .uuid packet.skinUuid, .skin packet.skinData,
    .string packet.newSkinName, .string packet.oldSkinName, .unsignedByte packet.verified]

def putPacketNetworkChunkPublisherUpdate (packet : PacketNetworkChunkPublisherUpdate) :
    List Field :=
  [.varInt idNetworkChunkPublisherUpdate, .signedVarInt packet.x, .varInt packet.y,
    .signedVarInt packet.z, .varInt packet.radius, .intLe 0]

def putPacketRequestChunkRadius (packet : PacketRequestChunkRadius) : List Field :=
  [.varInt idRequestChunkRadius, .signedVarInt packet.chunkRadius]

def putPacketChunkRadiusUpdated (chunkRadius : Int32) : List Field :=
  [.varInt idChunkRadiusUpdated, .signedVarInt chunkRadius]

def putPacketLevelChunk (packet : PacketLevelChunk) : List Field :=
  [.varInt idLevelChunk, .signedVarInt packet.x, .signedVarInt packet.z,
    .varInt packet.subChunkCount,
    .when (packet.subChunkCount = 0xfffffffe) (.unsignedShortLe packet.highestSubchunkCount),
    .unsignedByte packet.cacheEnabled,
    .when (packet.cacheEnabled ≠ 0) (.hashes packet.hashes), .byteArray packet.payload]

def putPacketNetworkSetting : List Field :=
  [.varInt idNetworkSettings, .shortLe 1, .shortLe 0, .unsignedByte 0, .unsignedByte 0,
    .floatLe 0]

/-! ## Fields that are left out -/

def carriedText (packet : FullText) : FullText :=
  { packet with
    sourceName := if hasSourceName packet.type then packet.sourceName else []
    message :=
      if hasMessageOnly packet.type || hasParameters packet.type then packet.message else []
    parameters := if hasParameters packet.type then packet.parameters else []
    fits := by
      split
      · exact packet.fits
      · exact Nat.two_pow_pos 32 }

def carriedInteract (packet : FullInteract) : FullInteract :=
  { packet with
    position := if hasPosition packet.actionId then packet.position else ⟨0, 0, 0⟩ }

def carriedMovePlayer (packet : FullMovePlayer) : FullMovePlayer :=
  { packet with
    teleport := if packet.mode = movePlayerModeTeleport then packet.teleport else ⟨0, 0⟩ }

def carriedLevelChunk (packet : PacketLevelChunk) : PacketLevelChunk :=
  { packet with
    highestSubchunkCount :=
      if packet.subChunkCount = 0xfffffffe then packet.highestSubchunkCount else 0
    hashes := if packet.cacheEnabled ≠ 0 then packet.hashes else [] }

/-! ## Packets -/

inductive PacketKind
  | playStatus
  | serverToClientHandshake
  | disconnect
  | resourcePacksInfo
  | resourcePackStack
  | resourcePackClientResponse
  | text
  | setTime
  | startGame
  | biomeDefinitionList
  | availableEntityIdentifiers
  | creativeContent
  | updateAttributes
  | interact
  | containerOpen
  | containerClose
  | movePlayer
  | playerSkin
  | networkChunkPublisherUpdate
  | requestChunkRadius
  | chunkRadiusUpdated
  | levelChunk
  | networkSetting
  deriving DecidableEq

namespace PacketKind

def packetId : PacketKind → UInt32
  | playStatus => idPlayStatus
  | serverToClientHandshake => idServerToClientHandshake
  | disconnect => idDisconnect
  | resourcePacksInfo => idResourcePacksInfo
  | resourcePackStack => idResourcePackStack
  | resourcePackClientResponse => idResourcePackClientResponse
  | text => idText
  | setTime => idSetTime
  | startGame => idStartGame
  | biomeDefinitionList => idBiomeDefinitionList
  | availableEntityIdentifiers => idAvailableEntityIdentifiers
  | creativeContent => idCreativeContent
  | updateAttributes => idUpdateAttributesPacket
  | interact => idInteract
  | containerOpen => idContainerOpen
  | containerClose => idContainerClose
  | movePlayer => idMovePlayer
  | playerSkin => idPlayerSkin
  | networkChunkPublisherUpdate => idNetworkChunkPublisherUpdate
  | requestChunkRadius => idRequestChunkRadius
  | chunkRadiusUpdated => idChunkRadiusUpdated
  | levelChunk => idLevelChunk
  | networkSetting => idNetworkSettings

/-- What the `put_` function of the kind is given. -/
def Record : PacketKind → Type
  | playStatus | setTime | chunkRadiusUpdated => Int32
  | serverToClientHandshake | disconnect => List UInt8
  | resourcePacksInfo => PacketResourcePacksInfo
  | resourcePackStack => PacketResourcePackStack
  | resourcePackClientResponse => FullResponse
  | text => FullText
  | startGame => PacketStartGame
  | biomeDefinitionList | availableEntityIdentifiers => NbtNamed
  | creativeContent => Counted UInt32 (UInt32 × MiscItem)
  | updateAttributes => PacketUpdateAttributes
  | interact => FullInteract
  | containerOpen => PacketContainerOpen
  | containerClose => PacketContainerClose
  | movePlayer => FullMovePlayer
  | playerSkin => FullPlayerSkin
  | networkChunkPublisherUpdate => PacketNetworkChunkPublisherUpdate
  | requestChunkRadius => PacketRequestChunkRadius
  | levelChunk => PacketLevelChunk
  | networkSetting => Unit

def calls : (kind : PacketKind) → kind.Record → List Field
  | playStatus, status => putPacketPlayStatus status
  | serverToClientHandshake, jwt => putServerToClientHandshake jwt
  | disconnect, msg => putPacketDisconnect msg
  | resourcePacksInfo, packet => putPacketResourcePacksInfo packet
  | resourcePackStack, packet => putPacketResourcePackStack packet
  | resourcePackClientResponse, packet => putPacketResourcePackClientResponse packet
  | text, packet => putPacketText packet
  | setTime, time => putPacketSetTime time
  | startGame, packet => putPacketStartGame packet
  | biomeDefinitionList, nbt => putPacketBiomeDefinitionList nbt
  | availableEntityIdentifiers, nbt => putPacketAvailableEntityIdentifiers nbt
  | creativeContent, entries => putPacketCreativeContent entries
  | updateAttributes, packet => putPacketUpdateAttributes packet
  | interact, packet => putPacketInteract packet
  | containerOpen, packet => putPacketContainerOpen packet
  | containerClose, packet => putPacketContainerClose packet
  | movePlayer, packet => putPacketMovePlayer packet
  | playerSkin, packet => putPacketPlayerSkin packet
  | networkChunkPublisherUpdate, packet => putPacketNetworkChunkPublisherUpdate packet
  | requestChunkRadius, packet => putPacketRequestChunkRadius packet
  | chunkRadiusUpdated, chunkRadius => putPacketChunkRadiusUpdated chunkRadius
  | levelChunk, packet => putPacketLevelChunk packet
  | networkSetting, _ => putPacketNetworkSetting

/-- The record without the fields that its type, action, mode or flags leave out
of the packet. -/
def carried : (kind : PacketKind) → kind.Record → kind.Record
  | text, packet => carriedText packet
  | creativeContent, entries => carriedEntries entries
  | interact, packet => carriedInteract packet
  | movePlayer, packet => carriedMovePlayer packet
  | levelChunk, packet => carriedLevelChunk packet
  | playStatus, record | serverToClientHandshake, record | disconnect, record
  | resourcePacksInfo, record | resourcePackStack, record | resourcePackClientResponse, record
  | setTime, record | startGame, record | biomeDefinitionList, record
  | availableEntityIdentifiers, record | updateAttributes, record | containerOpen, record
  | containerClose, record | playerSkin, record | networkChunkPublisherUpdate, record
  | requestChunkRadius, record | chunkRadiusUpdated, record | networkSetting, record => record

def all : List PacketKind :=
  [playStatus, serverToClientHandshake, disconnect, resourcePacksInfo, resourcePackStack,
    resourcePackClientResponse, text, setTime, startGame, biomeDefinitionList,
    availableEntityIdentifiers, creativeContent, updateAttributes, interact, containerOpen,
    containerClose, movePlayer, playerSkin, networkChunkPublisherUpdate, requestChunkRadius,
    chunkRadiusUpdated, levelChunk, networkSetting]

/-- An id belongs to one kind. -/
theorem find_packetId (kind : PacketKind) :
    all.find? (fun other => other.packetId = kind.packetId) = some kind := by
  cases kind <;> decide

theorem packetId_injective {first second : PacketKind} (same : first.packetId = second.packetId) :
    first = second := by
  have found := find_packetId first
  rw [same, find_packetId second] at found
  exact (Option.some.inj found).symm

/-- The id comes first. -/
theorem calls_id (kind : PacketKind) (record : kind.Record) :
    ∃ others, kind.calls record = .varInt kind.packetId :: others := by
  cases kind <;> exact ⟨_, rfl⟩

end PacketKind

structure Packet where
  kind : PacketKind
  record : kind.Record

namespace Packet

def calls (packet : Packet) : List Field := packet.kind.calls packet.record

def put (packet : Packet) : Option (List UInt8) := joined (packet.calls.map Field.put)

def Fits (packet : Packet) : Prop := AllFit packet.calls

def carried (packet : Packet) : Packet := ⟨packet.kind, packet.kind.carried packet.record⟩

end Packet

/-! ## The fields that are told -/

section Told

/-- A packet of its id and one field. -/
theorem second_told {packetId field packetId' field' : Field}
    (same : [packetId, field].map Field.seen = [packetId', field'].map Field.seen) :
    field.seen = field'.seen :=
  (List.cons.inj (List.cons.inj same).2).1

theorem startGame_told {first second : PacketStartGame}
    (same : (putPacketStartGame first).map Field.seen =
      (putPacketStartGame second).map Field.seen) : first = second := by
  obtain ⟨⟩ := first
  obtain ⟨⟩ := second
  simpa [putPacketStartGame, emptyCompound, Field.seen] using same

theorem resourcePacksInfo_told {first second : PacketResourcePacksInfo}
    (same : (putPacketResourcePacksInfo first).map Field.seen =
      (putPacketResourcePacksInfo second).map Field.seen) : first = second := by
  obtain ⟨⟩ := first
  obtain ⟨⟩ := second
  simpa [putPacketResourcePacksInfo, Field.seen] using same

theorem resourcePackStack_told {first second : PacketResourcePackStack}
    (same : (putPacketResourcePackStack first).map Field.seen =
      (putPacketResourcePackStack second).map Field.seen) : first = second := by
  obtain ⟨⟩ := first
  obtain ⟨⟩ := second
  simpa [putPacketResourcePackStack, Field.seen] using same

theorem response_told {first second : FullResponse}
    (same : (putPacketResourcePackClientResponse first).map Field.seen =
      (putPacketResourcePackClientResponse second).map Field.seen) : first = second := by
  obtain ⟨⟩ := first
  obtain ⟨⟩ := second
  simpa [putPacketResourcePackClientResponse, Field.seen] using same

theorem updateAttributes_told {first second : PacketUpdateAttributes}
    (same : (putPacketUpdateAttributes first).map Field.seen =
      (putPacketUpdateAttributes second).map Field.seen) : first = second := by
  obtain ⟨⟩ := first
  obtain ⟨⟩ := second
  simpa [putPacketUpdateAttributes, Field.seen] using same

theorem containerOpen_told {first second : PacketContainerOpen}
    (same : (putPacketContainerOpen first).map Field.seen =
      (putPacketContainerOpen second).map Field.seen) : first = second := by
  obtain ⟨⟩ := first
  obtain ⟨⟩ := second
  simpa [putPacketContainerOpen, Field.seen] using same

theorem containerClose_told {first second : PacketContainerClose}
    (same : (putPacketContainerClose first).map Field.seen =
      (putPacketContainerClose second).map Field.seen) : first = second := by
  obtain ⟨windowId, server⟩ := first
  obtain ⟨windowId', server'⟩ := second
  have widened : server.toUInt32 = server'.toUInt32 → server = server' := by
    intro equal
    rw [← UInt8.toUInt8_toUInt32 server, equal, UInt8.toUInt8_toUInt32]
  simp only [putPacketContainerClose, Field.seen, List.map_cons, List.map_nil, List.cons.injEq,
    Field.byte.injEq, Field.varInt.injEq, and_true, true_and] at same
  rw [same.1, widened same.2]

theorem playerSkin_told {first second : FullPlayerSkin}
    (same : (putPacketPlayerSkin first).map Field.seen =
      (putPacketPlayerSkin second).map Field.seen) : first = second := by
  obtain ⟨⟩ := first
  obtain ⟨⟩ := second
  simpa [putPacketPlayerSkin, Field.seen] using same

theorem networkChunkPublisherUpdate_told {first second : PacketNetworkChunkPublisherUpdate}
    (same : (putPacketNetworkChunkPublisherUpdate first).map Field.seen =
      (putPacketNetworkChunkPublisherUpdate second).map Field.seen) : first = second := by
  obtain ⟨⟩ := first
  obtain ⟨⟩ := second
  simpa [putPacketNetworkChunkPublisherUpdate, Field.seen] using same

theorem requestChunkRadius_told {first second : PacketRequestChunkRadius}
    (same : (putPacketRequestChunkRadius first).map Field.seen =
      (putPacketRequestChunkRadius second).map Field.seen) : first = second := by
  obtain ⟨⟩ := first
  obtain ⟨⟩ := second
  simpa [putPacketRequestChunkRadius, Field.seen] using same

theorem disconnect_told {first second : List UInt8}
    (same : (putPacketDisconnect first).map Field.seen =
      (putPacketDisconnect second).map Field.seen) : first = second := by
  by_cases empty : first = [] <;> by_cases empty' : second = [] <;>
    simp_all [putPacketDisconnect, Field.seen]

theorem text_told {first second : FullText}
    (same : (putPacketText first).map Field.seen = (putPacketText second).map Field.seen) :
    carriedText first = carriedText second := by
  obtain ⟨type, needsTranslation, sourceName, message, parameters, xboxUserId, platformChatId, _⟩ :=
    first
  obtain ⟨type', _, _, _, _, _, _, _⟩ := second
  have equal : type = type' := by
    simp only [putPacketText, List.map_cons, List.cons.injEq, Field.seen,
      Field.unsignedByte.injEq] at same
    exact same.2.1
  subst equal
  cases source : hasSourceName type <;> cases message : hasMessageOnly type <;>
    cases parameters : hasParameters type <;>
    simp_all [putPacketText, carriedText, Field.seen]

theorem interact_told {first second : FullInteract}
    (same : (putPacketInteract first).map Field.seen =
      (putPacketInteract second).map Field.seen) :
    carriedInteract first = carriedInteract second := by
  obtain ⟨actionId, _, _⟩ := first
  obtain ⟨actionId', _, _⟩ := second
  have equal : actionId = actionId' := by
    simp only [putPacketInteract, List.map_cons, List.cons.injEq, Field.seen,
      Field.unsignedByte.injEq] at same
    exact same.2.1
  subst equal
  cases present : hasPosition actionId <;>
    simp_all [putPacketInteract, carriedInteract, Field.seen]

theorem movePlayer_told {first second : FullMovePlayer}
    (same : (putPacketMovePlayer first).map Field.seen =
      (putPacketMovePlayer second).map Field.seen) :
    carriedMovePlayer first = carriedMovePlayer second := by
  obtain ⟨_, _, _, _, _, mode, _, _, _, _⟩ := first
  obtain ⟨_, _, _, _, _, mode', _, _, _, _⟩ := second
  have equal : mode = mode' := by
    simp only [putPacketMovePlayer, List.map_cons, List.cons.injEq, Field.seen,
      Field.unsignedByte.injEq] at same
    exact same.2.2.2.2.2.2.1
  subst equal
  by_cases teleported : mode = movePlayerModeTeleport <;>
    simp_all [putPacketMovePlayer, carriedMovePlayer, Field.seen]

theorem levelChunk_told {first second : PacketLevelChunk}
    (same : (putPacketLevelChunk first).map Field.seen =
      (putPacketLevelChunk second).map Field.seen) :
    carriedLevelChunk first = carriedLevelChunk second := by
  obtain ⟨_, _, subChunkCount, _, cacheEnabled, _, _⟩ := first
  obtain ⟨_, _, subChunkCount', _, cacheEnabled', _, _⟩ := second
  have equal : subChunkCount = subChunkCount' ∧ cacheEnabled = cacheEnabled' := by
    simp only [putPacketLevelChunk, List.map_cons, List.cons.injEq, Field.seen,
      Field.unsignedByte.injEq, Field.varInt.injEq] at same
    exact ⟨same.2.2.2.1, same.2.2.2.2.2.1⟩
  obtain ⟨rfl, rfl⟩ := equal
  by_cases counted : subChunkCount = 0xfffffffe <;> by_cases cached : cacheEnabled = 0 <;>
    simp_all [putPacketLevelChunk, carriedLevelChunk, Field.seen]

end Told

/-- The bytes of two packets of a kind tell the records, and where they end. -/
theorem carried_told (kind : PacketKind) (first second : kind.Record)
    (same : (kind.calls first).map Field.seen = (kind.calls second).map Field.seen) :
    kind.carried first = kind.carried second := by
  cases kind with
  | playStatus => exact Field.intBe.inj (second_told same)
  | serverToClientHandshake => exact Field.string.inj (second_told same)
  | disconnect => exact disconnect_told same
  | resourcePacksInfo => exact resourcePacksInfo_told same
  | resourcePackStack => exact resourcePackStack_told same
  | resourcePackClientResponse => exact response_told same
  | text => exact text_told same
  | setTime => exact Field.signedVarInt.inj (second_told same)
  | startGame => exact startGame_told same
  | biomeDefinitionList => exact Field.nbtTag.inj (second_told same)
  | availableEntityIdentifiers => exact Field.nbtTag.inj (second_told same)
  | creativeContent => exact Field.creativeItems.inj (second_told same)
  | updateAttributes => exact updateAttributes_told same
  | interact => exact interact_told same
  | containerOpen => exact containerOpen_told same
  | containerClose => exact containerClose_told same
  | movePlayer => exact movePlayer_told same
  | playerSkin => exact playerSkin_told same
  | networkChunkPublisherUpdate => exact networkChunkPublisherUpdate_told same
  | requestChunkRadius => exact requestChunkRadius_told same
  | chunkRadiusUpdated => exact Field.signedVarInt.inj (second_told same)
  | levelChunk => exact levelChunk_told same
  | networkSetting => rfl

/-! ## Rows of one kind -/

/-- The first fields are of the same calls. -/
theorem separates_front (count : Nat) {first second : List Field} (fit : AllFit first)
    (fit' : AllFit second)
    (front : (first.take count).map Field.get = (second.take count).map Field.get)
    (back : (first.take count).map Field.seen = (second.take count).map Field.seen →
      Separates Field.put Field.seen (first.drop count) (second.drop count)) :
    Separates Field.put Field.seen first second := by
  rw [← List.take_append_drop count first, ← List.take_append_drop count second]
  exact .append (separates_kinds front (fit.take count) (fit'.take count)) back

/-- The rest are of the same calls where the first fields are equal. -/
theorem separates_after (count : Nat) {first second : List Field} (fit : AllFit first)
    (fit' : AllFit second)
    (front : (first.take count).map Field.get = (second.take count).map Field.get)
    (back : (first.take count).map Field.seen = (second.take count).map Field.seen →
      (first.drop count).map Field.get = (second.drop count).map Field.get) :
    Separates Field.put Field.seen first second :=
  separates_front count fit fit' front fun same =>
    separates_kinds (back same) (fit.drop count) (fit'.drop count)

theorem separates_text (first second : FullText)
    (fit : AllFit (putPacketText first))
    (fit' : AllFit (putPacketText second)) :
    Separates Field.put Field.seen (putPacketText first) (putPacketText second) := by
  refine separates_after 3 fit fit' rfl fun same => ?_
  have equal : first.type = second.type := by
    simp only [putPacketText, List.take, List.map, Field.seen, List.cons.injEq,
      Field.unsignedByte.injEq] at same
    exact same.2.1
  obtain ⟨⟩ := first
  obtain ⟨⟩ := second
  subst equal
  rfl

theorem separates_interact (first second : FullInteract)
    (fit : AllFit (putPacketInteract first))
    (fit' : AllFit (putPacketInteract second)) :
    Separates Field.put Field.seen (putPacketInteract first) (putPacketInteract second) := by
  refine separates_after 3 fit fit' rfl fun same => ?_
  have equal : first.actionId = second.actionId := by
    simp only [putPacketInteract, List.take, List.map, Field.seen, List.cons.injEq,
      Field.unsignedByte.injEq] at same
    exact same.2.1
  obtain ⟨⟩ := first
  obtain ⟨⟩ := second
  subst equal
  rfl

theorem separates_movePlayer (first second : FullMovePlayer)
    (fit : AllFit (putPacketMovePlayer first))
    (fit' : AllFit (putPacketMovePlayer second)) :
    Separates Field.put Field.seen (putPacketMovePlayer first) (putPacketMovePlayer second) := by
  refine separates_after 9 fit fit' rfl fun same => ?_
  have equal : first.mode = second.mode := by
    simp only [putPacketMovePlayer, List.take, List.map, Field.seen, List.cons.injEq,
      Field.unsignedByte.injEq] at same
    exact same.2.2.2.2.2.2.1
  obtain ⟨⟩ := first
  obtain ⟨⟩ := second
  subst equal
  rfl

theorem separates_disconnect (first second : List UInt8)
    (fit : AllFit (putPacketDisconnect first))
    (fit' : AllFit (putPacketDisconnect second)) :
    Separates Field.put Field.seen (putPacketDisconnect first) (putPacketDisconnect second) := by
  refine separates_after 2 fit fit' rfl fun same => ?_
  have equal : first = [] ↔ second = [] := by
    by_cases empty : first = [] <;> by_cases empty' : second = [] <;>
      simp_all [putPacketDisconnect, Field.seen]
  simp only [putPacketDisconnect, List.drop, List.map, Field.get, ne_eq, equal]

/-- The count says whether the highest sub-chunk follows, the flag whether the
hashes do. -/
theorem separates_levelChunk (first second : PacketLevelChunk)
    (fit : AllFit (putPacketLevelChunk first))
    (fit' : AllFit (putPacketLevelChunk second)) :
    Separates Field.put Field.seen (putPacketLevelChunk first) (putPacketLevelChunk second) := by
  refine separates_front 4 fit fit' rfl fun same => ?_
  have counts : first.subChunkCount = second.subChunkCount := by
    simp only [putPacketLevelChunk, List.take, List.map, Field.seen, List.cons.injEq,
      Field.varInt.injEq] at same
    exact same.2.2.2.1
  obtain ⟨⟩ := first
  obtain ⟨⟩ := second
  subst counts
  refine separates_after 2 (fit.drop 4) (fit'.drop 4) rfl fun later => ?_
  simp only [putPacketLevelChunk, List.take, List.drop, List.map, Field.seen, List.cons.injEq,
    Field.unsignedByte.injEq, and_true] at later
  obtain ⟨-, rfl⟩ := later
  rfl

theorem separates_calls (kind : PacketKind) (first second : kind.Record)
    (fit : AllFit (kind.calls first))
    (fit' : AllFit (kind.calls second)) :
    Separates Field.put Field.seen (kind.calls first) (kind.calls second) := by
  cases kind with
  | text => exact separates_text first second fit fit'
  | interact => exact separates_interact first second fit fit'
  | movePlayer => exact separates_movePlayer first second fit fit'
  | levelChunk => exact separates_levelChunk first second fit fit'
  | disconnect => exact separates_disconnect first second fit fit'
  | _ => exact separates_kinds rfl fit fit'

/-! ## The packets -/

theorem separates_packets {first second : Packet} (fits : first.Fits) (fits' : second.Fits)
    {block other rest others : List UInt8} (written : first.put = some block)
    (written' : second.put = some other) (same : block ++ rest = other ++ others) :
    first.carried = second.carried ∧ rest = others := by
  obtain ⟨kind, record⟩ := first
  obtain ⟨kind', record'⟩ := second
  have ids : kind = kind' := by
    obtain ⟨body, calls⟩ := kind.calls_id record
    obtain ⟨body', calls'⟩ := kind'.calls_id record'
    rw [Packet.put, Packet.calls, calls, List.map_cons] at written
    rw [Packet.put, Packet.calls, calls', List.map_cons] at written'
    obtain ⟨_, later, head, -, rfl⟩ := joined_cons.mp written
    obtain ⟨_, later', head', -, rfl⟩ := joined_cons.mp written'
    cases head
    cases head'
    rw [List.append_assoc, List.append_assoc] at same
    have read := reads_varInt kind.packetId (later ++ rest)
    rw [same, reads_varInt kind'.packetId (later' ++ others)] at read
    exact (PacketKind.packetId_injective (Prod.mk.inj (Option.some.inj read)).1).symm
  subst ids
  obtain ⟨fields, ends⟩ := separates_calls kind record record' fits fits' written written' same
  exact ⟨congrArg (Packet.mk kind) (carried_told kind record record' fields), ends⟩

theorem put_text (packet : FullText) :
    (Packet.mk .text packet).put = PacketPutters.putPacketText packet := rfl

theorem put_interact (packet : FullInteract) :
    (Packet.mk .interact packet).put = PacketPutters.putPacketInteract packet := rfl

theorem put_movePlayer (packet : FullMovePlayer) :
    (Packet.mk .movePlayer packet).put = PacketPutters.putPacketMovePlayer packet := rfl

theorem put_containerOpen (packet : PacketContainerOpen) :
    (Packet.mk .containerOpen packet).put = PacketPutters.putPacketContainerOpen packet := rfl

theorem put_requestChunkRadius (packet : PacketRequestChunkRadius) :
    (Packet.mk .requestChunkRadius packet).put =
      PacketPutters.putPacketRequestChunkRadius packet := rfl

theorem put_resourcePackClientResponse (packet : FullResponse) :
    (Packet.mk .resourcePackClientResponse packet).put =
      PacketPutters.putPacketResourcePackClientResponse packet := rfl

theorem put_levelChunk (packet : PacketLevelChunk) :
    (Packet.mk .levelChunk packet).put = some (LevelChunk.putPacketLevelChunk packet) := by
  by_cases counted : packet.subChunkCount = 0xfffffffe <;>
    by_cases cached : packet.cacheEnabled = 0 <;>
    simp [Packet.put, Packet.calls, PacketKind.calls, putPacketLevelChunk, Field.put, putWhen,
      joined, putHashes, LevelChunk.putPacketLevelChunk, counted, cached]

end PodrumMinecraft.ServerPackets
