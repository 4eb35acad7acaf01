import PodrumFormal.Lib.ByteWriter
import PodrumFormal.Minecraft.PacketGetters

/-!
# The putters of the packets

What the `put_` functions of packets that have a getter as well write, with the
id in front.  A packet has all its fields; the type, the action or the mode says
which of them are written.
-/

set_option autoImplicit false

namespace PodrumMinecraft.PacketPutters

open ByteReader ByteWriter PodrumStream.BinaryStream PodrumStream.VarInt Misc PacketGetters

def idContainerOpen : UInt32 := 0x2e

/-! ## The packets -/

/-- The count of the ids is not negative. -/
structure FullResponse where
  responseStatus : UInt8
  ids : List (List UInt8)
  fits : ids.length < 2 ^ 15
  deriving DecidableEq

structure FullText where
  type : UInt8
  needsTranslation : UInt8
  sourceName : List UInt8
  message : List UInt8
  parameters : List (List UInt8)
  xboxUserId : List UInt8
  platformChatId : List UInt8
  fits : parameters.length < 2 ^ 32
  deriving DecidableEq

structure FullInteract where
  actionId : UInt8
  entityRuntimeId : UInt64
  position : Position
  deriving DecidableEq

structure PacketContainerOpen where
  windowId : Int8
  windowType : Int8
  coordinatesX : Int32
  coordinatesY : UInt32
  coordinatesZ : Int32
  entityUniqueId : Int64
  deriving DecidableEq

structure FullMovePlayer where
  runtimeId : UInt32
  position : Position
  pitch : UInt32
  yaw : UInt32
  headYaw : UInt32
  mode : UInt8
  onGround : UInt8
  riddenRuntimeId : UInt32
  teleport : TeleportCause
  tick : UInt64
  deriving DecidableEq

def getPacketContainerOpen : Reader PacketContainerOpen := do
  let windowId ← getByte
  let windowType ← getByte
  let coordinatesX ← getSignedVarInt
  let coordinatesY ← getVarInt
  let coordinatesZ ← getSignedVarInt
  let entityUniqueId ← getSignedVarLong
  pure { windowId, windowType, coordinatesX, coordinatesY, coordinatesZ, entityUniqueId }

/-! ## What is written -/

def putMiscResourcePackIds (ids : List (List UInt8)) : Option (List UInt8) :=
  joined [some (putShortLe (Int16.ofNat ids.length)), putCount putMiscStringVarInt ids]

def putPacketResourcePackClientResponse (packet : FullResponse) : Option (List UInt8) :=
  joined [some (putVarInt idResourcePackClientResponse),
    some (putUnsignedByte packet.responseStatus), putMiscResourcePackIds packet.ids]

def putParameters (parameters : List (List UInt8)) : Option (List UInt8) :=
  joined [some (putVarInt (UInt32.ofNat parameters.length)),
    putCount putMiscStringVarInt parameters]

def putPacketText (packet : FullText) : Option (List UInt8) :=
  joined [some (putVarInt idText), some (putUnsignedByte packet.type),
    some (putUnsignedByte packet.needsTranslation),
    putWhen (hasSourceName packet.type) (putMiscStringVarInt packet.sourceName),
    putWhen (hasMessageOnly packet.type || hasParameters packet.type)
      (putMiscStringVarInt packet.message),
    putWhen (hasParameters packet.type) (putParameters packet.parameters),
    putMiscStringVarInt packet.xboxUserId, putMiscStringVarInt packet.platformChatId]

def putPosition (position : Position) : Option (List UInt8) :=
  joined [some (putFloatLe position.x), some (putFloatLe position.y),
    some (putFloatLe position.z)]

def putPacketInteract (packet : FullInteract) : Option (List UInt8) :=
  joined [some (putVarInt idInteract), some (putUnsignedByte packet.actionId),
    some (putVarLong packet.entityRuntimeId),
    putWhen (hasPosition packet.actionId) (putPosition packet.position)]

def putPacketContainerOpen (packet : PacketContainerOpen) : Option (List UInt8) :=
  joined [some (putVarInt idContainerOpen), some (putByte packet.windowId),
    some (putByte packet.windowType), some (putSignedVarInt packet.coordinatesX),
    some (putVarInt packet.coordinatesY), some (putSignedVarInt packet.coordinatesZ),
    some (putSignedVarLong packet.entityUniqueId)]

def putTeleportCause (teleport : TeleportCause) : Option (List UInt8) :=
  joined [some (putIntLe teleport.teleportCause),
    some (putIntLe teleport.teleportSourceEntityType)]

def putPacketMovePlayer (packet : FullMovePlayer) : Option (List UInt8) :=
  joined [some (putVarInt idMovePlayer), some (putVarInt packet.runtimeId),
    putPosition packet.position, some (putFloatLe packet.pitch), some (putFloatLe packet.yaw),
    some (putFloatLe packet.headYaw), some (putUnsignedByte packet.mode),
    some (putUnsignedByte packet.onGround), some (putVarInt packet.riddenRuntimeId),
    putWhen (packet.mode = movePlayerModeTeleport) (putTeleportCause packet.teleport),
    some (putVarLong packet.tick)]

def putPacketRequestChunkRadius (packet : PacketRequestChunkRadius) : Option (List UInt8) :=
  joined [some (putVarInt idRequestChunkRadius), some (putSignedVarInt packet.chunkRadius)]

/-! ## What the getters return of it -/

section Read

variable (change : List UInt8 → List UInt8)

def FullResponse.read (packet : FullResponse) : PacketResourcePackClientResponse where
  responseStatus := packet.responseStatus
  resourcePackIds := ⟨Int16.ofNat packet.ids.length, packet.ids.map change⟩

def FullText.read (packet : FullText) : PacketText where
  type := packet.type
  needsTranslation := packet.needsTranslation
  sourceName := if hasSourceName packet.type then some (change packet.sourceName) else none
  message := if hasMessageOnly packet.type || hasParameters packet.type then
    some (change packet.message) else none
  parameterCount := if hasParameters packet.type then
    some (UInt32.ofNat packet.parameters.length) else none
  xboxUserId := change packet.xboxUserId
  platformChatId := change packet.platformChatId

end Read

def FullInteract.read (packet : FullInteract) : PacketInteract where
  actionId := packet.actionId
  entityRuntimeId := packet.entityRuntimeId
  position := if hasPosition packet.actionId then some packet.position else none

def FullMovePlayer.read (packet : FullMovePlayer) : PacketMovePlayer where
  runtimeId := packet.runtimeId
  position := packet.position
  pitch := packet.pitch
  yaw := packet.yaw
  headYaw := packet.headYaw
  mode := packet.mode
  onGround := packet.onGround
  riddenRuntimeId := packet.riddenRuntimeId
  teleport := if decide (packet.mode = movePlayerModeTeleport) then some packet.teleport else none
  tick := packet.tick

/-! ## Each getter on what its putter wrote -/

/-- The getter behind the id. -/
def withId {α : Type} (reader : Reader α) : Reader (UInt32 × α) := do
  let packetId ← getVarInt
  let packet ← reader
  pure (packetId, packet)

theorem encodes_withId {α : Type} {packetId : UInt32} {parts : List (Option (List UInt8))}
    {reader : Reader α} {value : α} (encodes : Encodes (joined parts) reader value) :
    Encodes (joined (some (putVarInt packetId) :: parts)) (withId reader) (packetId, value) :=
  .joined (.cons (.fixed (reads_varInt _)) fun bytes rest success =>
    (encodes bytes success).run_bind _ rest)

theorem encodes_ids {ids : List (List UInt8)} (fits : ids.length < 2 ^ 15) :
    Encodes (putMiscResourcePackIds ids) getMiscResourcePackIds
      ⟨Int16.ofNat ids.length, ids.map cut⟩ := by
  have turns : (Int16.ofNat ids.length).toNatClampNeg = ids.length :=
    Int16.toNatClampNeg_ofNat_of_lt fits
  have each : Encodes (putCount putMiscStringVarInt ids)
      (readCount getMiscStringVarInt (Int16.ofNat ids.length).toNatClampNeg) (ids.map cut) := by
    rw [turns]
    exact Encodes.count fun text _ => encodes_string text
  exact .joined (.cons (.fixed (reads_shortLe _)) (.cons each (.nil _)))

theorem encodes_response (packet : FullResponse) :
    Encodes (putPacketResourcePackClientResponse packet)
      (withId getPacketResourcePackClientResponse)
      (idResourcePackClientResponse, packet.read cut) :=
  encodes_withId (.joined (.cons (.fixed (reads_unsignedByte _))
    (.cons (encodes_ids packet.fits) (.nil _))))

theorem encodes_text (packet : FullText) (noParameters : hasParameters packet.type = false) :
    Encodes (putPacketText packet) (withId getPacketText) (idText, packet.read cut) := by
  have text (text : List UInt8) :
      Encodes (putMiscStringVarInt text) (some <$> getMiscStringVarInt) (some (cut text)) :=
    (encodes_string text).functor some
  have parameters {value : Option UInt32} : hasParameters packet.type = true →
      Encodes (putParameters packet.parameters) (some <$> getParameters) value := by
    rw [noParameters]
    intro impossible
    cases impossible
  exact encodes_withId (.joined (.cons (.fixed (reads_unsignedByte _))
    (.cons (.fixed (reads_unsignedByte _)) (.cons (.present _ fun _ => text _)
    (.cons (.present _ fun _ => text _) (.cons (.present _ parameters)
    (.cons (encodes_string _) (.cons (encodes_string _) (.nil _)))))))))

theorem encodes_position (position : Position) :
    Encodes (putPosition position) getPosition position :=
  .joined (.cons (.fixed (reads_unsignedIntLe _)) (.cons (.fixed (reads_unsignedIntLe _))
    (.cons (.fixed (reads_unsignedIntLe _)) (.nil _))))

theorem encodes_interact (packet : FullInteract) :
    Encodes (putPacketInteract packet) (withId getPacketInteract)
      (idInteract, packet.read) :=
  encodes_withId (.joined (.cons (.fixed (reads_unsignedByte _))
    (.cons (.fixed (reads_varLong _))
    (.cons (.present _ fun _ => (encodes_position _).functor some) (.nil _)))))

theorem encodes_containerOpen (packet : PacketContainerOpen) :
    Encodes (putPacketContainerOpen packet) (withId getPacketContainerOpen)
      (idContainerOpen, packet) :=
  encodes_withId (.joined (.cons (.fixed (reads_byte _)) (.cons (.fixed (reads_byte _))
    (.cons (.fixed (reads_signedVarInt _)) (.cons (.fixed (reads_varInt _))
    (.cons (.fixed (reads_signedVarInt _)) (.cons (.fixed (reads_signedVarLong _))
    (.nil _))))))))

theorem encodes_teleport (teleport : TeleportCause) :
    Encodes (putTeleportCause teleport) getTeleportCause teleport :=
  .joined (.cons (.fixed (reads_intLe _)) (.cons (.fixed (reads_intLe _)) (.nil _)))

theorem encodes_movePlayer (packet : FullMovePlayer) :
    Encodes (putPacketMovePlayer packet) (withId getPacketMovePlayer)
      (idMovePlayer, packet.read) :=
  encodes_withId (.joined (.cons (.fixed (reads_varInt _)) (.cons (encodes_position _)
    (.cons (.fixed (reads_unsignedIntLe _)) (.cons (.fixed (reads_unsignedIntLe _))
    (.cons (.fixed (reads_unsignedIntLe _)) (.cons (.fixed (reads_unsignedByte _))
    (.cons (.fixed (reads_unsignedByte _)) (.cons (.fixed (reads_varInt _))
    (.cons (.present _ fun _ => (encodes_teleport _).functor some)
    (.cons (.fixed (reads_varLong _)) (.nil _))))))))))))

theorem encodes_requestChunkRadius (packet : PacketRequestChunkRadius) :
    Encodes (putPacketRequestChunkRadius packet) (withId getPacketRequestChunkRadius)
      (idRequestChunkRadius, packet) :=
  encodes_withId (.joined (.cons (.fixed (reads_signedVarInt _)) (.nil _)))

end PodrumMinecraft.PacketPutters
