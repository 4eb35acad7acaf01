import PodrumFormal.Minecraft.Login
import PodrumFormal.Minecraft.Skin

/-!
# The getters of the packets

What `on_f` and its handlers read of a sub-packet behind the header.  A field
that the type, the action or the mode leaves unset is `none`, and a float is
its bit pattern.
-/

set_option autoImplicit false

namespace PodrumMinecraft.PacketGetters

open ByteReader PodrumStream.BinaryStream PodrumStream.VarInt Misc Skin Login

def idLogin : UInt32 := 0x01
def idResourcePackClientResponse : UInt32 := 0x08
def idText : UInt32 := 0x09
def idMovePlayer : UInt32 := 0x13
def idInteract : UInt32 := 0x21
def idContainerClose : UInt32 := 0x2f
def idRequestChunkRadius : UInt32 := 0x45
def idPlayerSkin : UInt32 := 0x5d
def idRequestAbility : UInt32 := 0xb8
def idRequestNetworkSettings : UInt32 := 0xc1

def movePlayerModeTeleport : UInt8 := 2

def interactLeaveVehicle : UInt8 := 3
def interactMouseOverEntity : UInt8 := 4

def textRaw : UInt8 := 0
def textChat : UInt8 := 1
def textTranslation : UInt8 := 2
def textPopup : UInt8 := 3
def textJukeboxPopup : UInt8 := 4
def textTip : UInt8 := 5
def textSystem : UInt8 := 6
def textWhisper : UInt8 := 7
def textAnnouncement : UInt8 := 8
def textJsonWhisper : UInt8 := 9
def textJson : UInt8 := 10
def textJsonAnnouncement : UInt8 := 11

/-! ## Packets of a fixed shape -/

structure PacketRequestNetworkSetting where
  protocolVersion : Int32
  deriving DecidableEq

structure PacketRequestChunkRadius where
  chunkRadius : Int32
  deriving DecidableEq

structure PacketContainerClose where
  windowId : Int8
  server : UInt8
  deriving DecidableEq

structure PacketRequestAbility where
  abilityId : Int32
  abilityType : UInt8
  abilityBool : UInt8
  abilityFloat : UInt32
  deriving DecidableEq

def getPacketRequestNetworkSetting : Reader PacketRequestNetworkSetting := do
  let protocolVersion ← getIntBe
  pure { protocolVersion }

def getPacketRequestChunkRadius : Reader PacketRequestChunkRadius := do
  let chunkRadius ← getSignedVarInt
  pure { chunkRadius }

def getPacketContainerClose : Reader PacketContainerClose := do
  let windowId ← getByte
  let server ← getUnsignedByte
  pure { windowId, server }

def getPacketRequestAbility : Reader PacketRequestAbility := do
  let abilityId ← getSignedVarInt
  let abilityType ← getUnsignedByte
  let abilityBool ← getUnsignedByte
  let abilityFloat ← getFloatLe
  pure { abilityId, abilityType, abilityBool, abilityFloat }

/-! ## Login -/

def getMiscLoginTokens : Reader LoginTokens := do
  let identity ← getMiscStringIntLe
  let client ← getMiscStringIntLe
  pure { identity, client }

/-- A reader of a stream of its own. -/
def readFrom {α : Type} (stream : List UInt8) (reader : Reader α) : Reader α := fun bytes =>
  (reader stream).map fun result => (result.1, bytes)

def getPacketLogin : Reader PacketLogin := do
  let protocolVersion ← getIntBe
  let tempStream ← getMiscByteArrayVarInt
  let tokens ← readFrom tempStream getMiscLoginTokens
  pure { protocolVersion, tokens }

/-! ## Resource packs -/

structure PacketResourcePackClientResponse where
  responseStatus : UInt8
  resourcePackIds : MiscResourcePackIds
  deriving DecidableEq

def getPacketResourcePackClientResponse : Reader PacketResourcePackClientResponse := do
  let responseStatus ← getUnsignedByte
  let resourcePackIds ← getMiscResourcePackIds
  pure { responseStatus, resourcePackIds }

/-! ## Texts -/

structure PacketText where
  type : UInt8
  needsTranslation : UInt8
  sourceName : Option (List UInt8)
  message : Option (List UInt8)
  parameterCount : Option UInt32
  xboxUserId : List UInt8
  platformChatId : List UInt8
  deriving DecidableEq

def hasSourceName (type : UInt8) : Bool :=
  type = textChat || type = textWhisper || type = textAnnouncement

/-- The case of a source name falls through to the one of a message. -/
def hasMessageOnly (type : UInt8) : Bool :=
  hasSourceName type || type = textRaw || type = textTip || type = textSystem ||
    type = textJsonWhisper || type = textJson || type = textJsonAnnouncement

def hasParameters (type : UInt8) : Bool :=
  type = textTranslation || type = textPopup || type = textJukeboxPopup

/-- The first parameter is written through `parameters`, which nothing sets. -/
def getParameters : Reader UInt32 := do
  let parameterCount ← getVarInt
  if parameterCount = 0 then pure parameterCount
  else do
    let _ ← getMiscStringVarInt
    writeOutside

def getPacketText : Reader PacketText := do
  let type ← getUnsignedByte
  let needsTranslation ← getUnsignedByte
  let sourceName ← readWhen (hasSourceName type) (some <$> getMiscStringVarInt) none
  let message ← readWhen (hasMessageOnly type || hasParameters type)
    (some <$> getMiscStringVarInt) none
  let parameterCount ← readWhen (hasParameters type) (some <$> getParameters) none
  let xboxUserId ← getMiscStringVarInt
  let platformChatId ← getMiscStringVarInt
  pure { type, needsTranslation, sourceName, message, parameterCount, xboxUserId,
         platformChatId }

/-! ## Positions -/

structure Position where
  x : UInt32
  y : UInt32
  z : UInt32
  deriving DecidableEq

structure PacketInteract where
  actionId : UInt8
  entityRuntimeId : UInt64
  position : Option Position
  deriving DecidableEq

structure TeleportCause where
  teleportCause : Int32
  teleportSourceEntityType : Int32
  deriving DecidableEq

structure PacketMovePlayer where
  runtimeId : UInt32
  position : Position
  pitch : UInt32
  yaw : UInt32
  headYaw : UInt32
  mode : UInt8
  onGround : UInt8
  riddenRuntimeId : UInt32
  teleport : Option TeleportCause
  tick : UInt64
  deriving DecidableEq

def getPosition : Reader Position := do
  let x ← getFloatLe
  let y ← getFloatLe
  let z ← getFloatLe
  pure { x, y, z }

def hasPosition (actionId : UInt8) : Bool :=
  actionId = interactLeaveVehicle || actionId = interactMouseOverEntity

def getPacketInteract : Reader PacketInteract := do
  let actionId ← getUnsignedByte
  let entityRuntimeId ← getVarLong
  let position ← readWhen (hasPosition actionId) (some <$> getPosition) none
  pure { actionId, entityRuntimeId, position }

def getTeleportCause : Reader TeleportCause := do
  let teleportCause ← getIntLe
  let teleportSourceEntityType ← getIntLe
  pure { teleportCause, teleportSourceEntityType }

def getPacketMovePlayer : Reader PacketMovePlayer := do
  let runtimeId ← getVarInt
  let position ← getPosition
  let pitch ← getFloatLe
  let yaw ← getFloatLe
  let headYaw ← getFloatLe
  let mode ← getUnsignedByte
  let onGround ← getUnsignedByte
  let riddenRuntimeId ← getVarInt
  let teleport ← readWhen (mode = movePlayerModeTeleport) (some <$> getTeleportCause) none
  let tick ← getVarLong
  pure { runtimeId, position, pitch, yaw, headYaw, mode, onGround, riddenRuntimeId, teleport,
         tick }

/-! ## Skins -/

structure PacketPlayerSkin where
  skinUuid : List UInt8
  skinData : MiscSkin
  newSkinName : List UInt8
  oldSkinName : List UInt8
  verified : UInt8
  deriving DecidableEq

def getPacketPlayerSkin : Reader PacketPlayerSkin := do
  let skinUuid ← getBytes 16
  let skinData ← getMiscSkin
  let newSkinName ← getMiscStringVarInt
  let oldSkinName ← getMiscStringVarInt
  let verified ← getUnsignedByte
  pure { skinUuid, skinData, newSkinName, oldSkinName, verified }

end PodrumMinecraft.PacketGetters
