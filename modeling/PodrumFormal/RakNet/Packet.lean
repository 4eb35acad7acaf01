import PodrumFormal.Stream.BinaryStream

/-!
# Connected packets

The four packets that `handle_frame` reads and answers itself.  The address
conversions of the C library and the clock come from an environment.
-/

set_option autoImplicit false

namespace PodrumRakNet.Packet

open ByteReader PodrumStream.BinaryStream

def idConnectedPing : UInt8 := 0x00
def idConnectedPong : UInt8 := 0x03
def idConnectionRequest : UInt8 := 0x09
def idConnectionRequestAccepted : UInt8 := 0x10
def idNewIncomingConnection : UInt8 := 0x13
def idDisconnectNotification : UInt8 := 0x15

/-- `address` holds the characters of the text before its zero byte. -/
structure MiscAddress where
  version : UInt8
  address : List UInt8
  port : UInt16
  deriving DecidableEq, Repr

/-- What the handlers take from outside: `inet_addr`, the 16 bytes `inet_pton`
leaves, `AF_INET6`, and the successive values of `get_raknet_timestamp`. -/
structure Environment where
  inetAddr : List UInt8 → UInt32
  inetPton : List UInt8 → Vector UInt8 16
  afInet6 : UInt16
  timestamp : Nat → UInt64

def putMiscAddress (environment : Environment) (address : MiscAddress) : List UInt8 :=
  putUnsignedByte address.version ++
  if address.version = 4 then
    putUnsignedIntLe (~~~environment.inetAddr address.address) ++ putUnsignedShortBe address.port
  else
    putUnsignedShortLe environment.afInet6 ++ putUnsignedShortBe address.port ++
      putUnsignedIntBe 0 ++ putBytes (environment.inetPton address.address).toList ++
      putUnsignedIntBe 0

structure PacketConnectionRequest where
  guid : UInt64
  timestamp : UInt64
  deriving DecidableEq, Repr

structure PacketConnectionRequestAccepted where
  address : MiscAddress
  systemIndex : UInt16
  systemAddresses : Vector MiscAddress 20
  requestTimestamp : UInt64
  replyTimestamp : UInt64

structure PacketConnectedPing where
  timestamp : UInt64
  deriving DecidableEq, Repr

structure PacketConnectedPong where
  requestTimestamp : UInt64
  replyTimestamp : UInt64
  deriving DecidableEq, Repr

def getPacketConnectionRequest : Reader PacketConnectionRequest := do
  skip 1
  let guid ← getUnsignedLongBe
  let timestamp ← getUnsignedLongBe
  pure { guid, timestamp }

def getPacketConnectedPing : Reader PacketConnectedPing := do
  skip 1
  let timestamp ← getUnsignedLongBe
  pure { timestamp }

def putPacketConnectionRequestAccepted (environment : Environment)
    (packet : PacketConnectionRequestAccepted) : List UInt8 :=
  putUnsignedByte idConnectionRequestAccepted ++
  putMiscAddress environment packet.address ++
  putUnsignedShortBe packet.systemIndex ++
  packet.systemAddresses.toList.flatMap (putMiscAddress environment) ++
  putUnsignedLongBe packet.requestTimestamp ++
  putUnsignedLongBe packet.replyTimestamp

def putPacketConnectedPong (packet : PacketConnectedPong) : List UInt8 :=
  putUnsignedByte idConnectedPong ++
  putUnsignedLongBe packet.requestTimestamp ++
  putUnsignedLongBe packet.replyTimestamp

end PodrumRakNet.Packet
