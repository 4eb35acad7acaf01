import PodrumFormal.Lib.KeyedArray
import PodrumFormal.RakNet.Packet

/-!
# Players

The player records and the manager that keeps them by address.  Positions are
whole blocks.
-/

set_option autoImplicit false

namespace PodrumMinecraft.Player

open PodrumRakNet.Packet

/-- A text is `none` where its pointer was read from an entry of another type. -/
structure MinecraftPlayer where
  entityUniqueId : Int64
  entityRuntimeId : UInt64
  address : MiscAddress
  protocol : Int32
  displayName : Option (List UInt8)
  identity : Option (List UInt8)
  titleId : Option (List UInt8)
  xuid : Option (List UInt8)
  x : Int
  y : Int
  z : Int
  gamemode : Int32
  viewDistance : Int32
  spawned : UInt8

/-- Addresses are compared by port and text. -/
def addressKey (address : MiscAddress) : UInt16 × List UInt8 := (address.port, address.address)

def playerKey (player : MinecraftPlayer) : UInt16 × List UInt8 := addressKey player.address

abbrev MinecraftPlayerManager := KeyedArray playerKey

def addMinecraftPlayer (player : MinecraftPlayer) (manager : MinecraftPlayerManager) :
    MinecraftPlayerManager :=
  manager.append player

def removeMinecraftPlayer (address : MiscAddress) (manager : MinecraftPlayerManager) :
    MinecraftPlayerManager :=
  manager.deduct (addressKey address)

def getMinecraftPlayerAddress (address : MiscAddress) (manager : MinecraftPlayerManager) :
    Option MinecraftPlayer :=
  manager.find (addressKey address)

def hasMinecraftPlayerEntityUniqueId (entityUniqueId : Int64)
    (manager : MinecraftPlayerManager) : Bool :=
  manager.slots.any fun player => player.entityUniqueId = entityUniqueId

def hasMinecraftPlayerEntityRuntimeId (entityRuntimeId : Int64)
    (manager : MinecraftPlayerManager) : Bool :=
  manager.slots.any fun player => player.entityRuntimeId = entityRuntimeId.toUInt64

end PodrumMinecraft.Player
