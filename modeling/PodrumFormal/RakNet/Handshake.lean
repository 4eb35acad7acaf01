import PodrumFormal.RakNet.Connection

/-!
# The offline handshake

The unconnected packets: a ping, and the two requests that open a connection.
The server answers each at once; the second request adds the connection.
-/

set_option autoImplicit false

namespace PodrumRakNet.Handshake

open ByteReader PodrumStream.BinaryStream PodrumRakNet.Packet PodrumRakNet.Connections

def idUnconnectedPing : UInt8 := 0x01
def idUnconnectedPong : UInt8 := 0x1C
def idIncompatibleProtocolVersion : UInt8 := 0x19
def idOpenConnectionRequest1 : UInt8 := 0x05
def idOpenConnectionReply1 : UInt8 := 0x06
def idOpenConnectionRequest2 : UInt8 := 0x07
def idOpenConnectionReply2 : UInt8 := 0x08

def mojangRaknet : UInt8 := 11

def magic : List UInt8 :=
  [0x00, 0xff, 0xff, 0x00, 0xfe, 0xfe, 0xfe, 0xfe, 0xfd, 0xfd, 0xfd, 0xfd, 0x12, 0x34, 0x56, 0x78]

/-! ## Addresses in a packet -/

def decimal (value : UInt8) : List UInt8 :=
  (Nat.toDigits 10 value.toNat).map fun digit => UInt8.ofNat digit.toNat

/-- `"%u.%u.%u.%u"`. -/
def dottedText (part1 part2 part3 part4 : UInt8) : List UInt8 :=
  decimal part1 ++ [0x2e] ++ decimal part2 ++ [0x2e] ++ decimal part3 ++ [0x2e] ++ decimal part4

/-- `inetNtop` is the text of the C library for the 16 bytes of an IPv6
address. -/
def getMiscAddress (inetNtop : List UInt8 → List UInt8) : Reader MiscAddress := do
  let version ← getUnsignedByte
  if version = 4 then do
    let part1 ← getUnsignedByte
    let part2 ← getUnsignedByte
    let part3 ← getUnsignedByte
    let part4 ← getUnsignedByte
    let port ← getUnsignedShortBe
    pure { version, port, address := dottedText (~~~part1) (~~~part2) (~~~part3) (~~~part4) }
  else do
    skip 2
    let port ← getUnsignedShortBe
    skip 4
    let bytes ← getBytes 16
    skip 4
    pure { version, port, address := inetNtop bytes }

/-! ## The requests -/

structure PacketUnconnectedPing where
  timestamp : UInt64
  guid : UInt64
  deriving DecidableEq, Repr

structure PacketOpenConnectionRequest1 where
  protocolVersion : UInt8
  mtuSize : UInt16
  deriving DecidableEq, Repr

structure PacketOpenConnectionRequest2 where
  address : MiscAddress
  mtuSize : UInt16
  guid : UInt64
  deriving DecidableEq, Repr

def getPacketUnconnectedPing : Reader PacketUnconnectedPing := do
  skip 1
  let timestamp ← getUnsignedLongBe
  skip 16
  let guid ← getUnsignedLongBe
  pure { timestamp, guid }

/-- The MTU is the size of the whole datagram. -/
def getPacketOpenConnectionRequest1 : Reader PacketOpenConnectionRequest1 := fun stream => do
  let (protocolVersion, rest) ← (do skip 17; getUnsignedByte : Reader UInt8) stream
  some ({ protocolVersion, mtuSize := UInt16.ofNat stream.length }, rest)

def getPacketOpenConnectionRequest2 (inetNtop : List UInt8 → List UInt8) :
    Reader PacketOpenConnectionRequest2 := do
  skip 17
  let address ← getMiscAddress inetNtop
  let mtuSize ← getUnsignedShortBe
  let guid ← getUnsignedLongBe
  pure { address, mtuSize, guid }

/-! ## The answers -/

structure PacketUnconnectedPong where
  timestamp : UInt64
  guid : UInt64
  message : Option (List UInt8)

structure PacketIncompatibleProtocolVersion where
  protocolVersion : UInt8
  guid : UInt64

structure PacketOpenConnectionReply1 where
  guid : UInt64
  useSecurity : UInt8
  mtuSize : UInt16

structure PacketOpenConnectionReply2 where
  guid : UInt64
  address : MiscAddress
  mtuSize : UInt16
  useEncryption : UInt8

def putPacketUnconnectedPong (packet : PacketUnconnectedPong) : List UInt8 :=
  putUnsignedByte idUnconnectedPong ++ putUnsignedLongBe packet.timestamp ++
  putUnsignedLongBe packet.guid ++ putBytes magic ++
  match packet.message with
  | some message => putUnsignedShortBe (UInt16.ofNat message.length) ++ putBytes message
  | none => putUnsignedShortBe 0

def putPacketIncompatibleProtocolVersion (packet : PacketIncompatibleProtocolVersion) :
    List UInt8 :=
  putUnsignedByte idIncompatibleProtocolVersion ++ putUnsignedByte packet.protocolVersion ++
  putBytes magic ++ putUnsignedLongBe packet.guid

def putPacketOpenConnectionReply1 (packet : PacketOpenConnectionReply1) : List UInt8 :=
  putUnsignedByte idOpenConnectionReply1 ++ putBytes magic ++ putUnsignedLongBe packet.guid ++
  putUnsignedByte packet.useSecurity ++ putUnsignedShortBe packet.mtuSize

def putPacketOpenConnectionReply2 (environment : Environment)
    (packet : PacketOpenConnectionReply2) : List UInt8 :=
  putUnsignedByte idOpenConnectionReply2 ++ putBytes magic ++ putUnsignedLongBe packet.guid ++
  putMiscAddress environment packet.address ++ putUnsignedShortBe packet.mtuSize ++
  putUnsignedByte packet.useEncryption

/-! ## The handlers -/

/-- What the handlers read of the server besides its connections, and the
address conversion of the C library. -/
structure Offline where
  guid : UInt64
  message : Option (List UInt8)
  inetNtop : List UInt8 → List UInt8

def handleUnconnectedPing (offline : Offline) (stream : List UInt8) : Option (List UInt8) := do
  let (ping, _) ← getPacketUnconnectedPing stream
  some (putPacketUnconnectedPong {
    timestamp := ping.timestamp, guid := offline.guid, message := offline.message })

def handleOpenConnectionRequest1 (offline : Offline) (stream : List UInt8) :
    Option (List UInt8) := do
  let (request, _) ← getPacketOpenConnectionRequest1 stream
  if request.protocolVersion ≠ mojangRaknet then
    some (putPacketIncompatibleProtocolVersion {
      protocolVersion := mojangRaknet, guid := offline.guid })
  else
    some (putPacketOpenConnectionReply1 {
      mtuSize := 28 + request.mtuSize, useSecurity := 0, guid := offline.guid })

def handleOpenConnectionRequest2 (environment : Environment) (offline : Offline)
    (stream : List UInt8) (address : MiscAddress) (server : RaknetServer) :
    Option (List UInt8 × RaknetServer) := do
  let (request, _) ← getPacketOpenConnectionRequest2 offline.inetNtop stream
  some (putPacketOpenConnectionReply2 environment {
      address, mtuSize := request.mtuSize, guid := offline.guid, useEncryption := 0 },
    addRaknetConnection address request.mtuSize server)

end PodrumRakNet.Handshake
