import PodrumFormal.Misc.CString
import PodrumFormal.RakNet.Handshake

/-!
# The packets of the handshake

The getters and putters that the server itself does not call, and what every
getter of a packet outside the frame sets makes of what its putter wrote.
-/

set_option autoImplicit false

namespace PodrumRakNet.HandshakePackets

open ByteReader Endian PodrumMisc.CString PodrumStream.BinaryStream
open PodrumRakNet.Packet PodrumRakNet.Handshake

def idUnconnectedPingOpenConnections : UInt8 := 0x02

/-! ## Getters -/

def getPacketUnconnectedPong : Reader PacketUnconnectedPong := do
  skip 1
  let timestamp ← getUnsignedLongBe
  let guid ← getUnsignedLongBe
  skip 16
  let length ← getUnsignedShortBe
  let message ← readCount getUnsignedByte length.toNat
  pure { timestamp, guid, message := some (cString message) }

def getPacketIncompatibleProtocolVersion : Reader PacketIncompatibleProtocolVersion := do
  skip 1
  let protocolVersion ← getUnsignedByte
  skip 16
  let guid ← getUnsignedLongBe
  pure { protocolVersion, guid }

def getPacketOpenConnectionReply1 : Reader PacketOpenConnectionReply1 := do
  skip 17
  let guid ← getUnsignedLongBe
  let useSecurity ← getUnsignedByte
  let mtuSize ← getUnsignedShortBe
  pure { guid, useSecurity, mtuSize }

structure PacketNewIncomingConnection where
  address : MiscAddress
  systemAddresses : Vector MiscAddress 20
  requestTimestamp : UInt64
  replyTimestamp : UInt64

section Addresses

variable (inetNtop : List UInt8 → List UInt8)

def getPacketOpenConnectionReply2 : Reader PacketOpenConnectionReply2 := do
  skip 17
  let guid ← getUnsignedLongBe
  let address ← getMiscAddress inetNtop
  let mtuSize ← getUnsignedShortBe
  let useEncryption ← getUnsignedByte
  pure { guid, address, mtuSize, useEncryption }

def getPacketConnectionRequestAccepted : Reader PacketConnectionRequestAccepted := do
  skip 1
  let address ← getMiscAddress inetNtop
  let systemIndex ← getUnsignedShortBe
  let systemAddresses ← readVector (getMiscAddress inetNtop) 20
  let requestTimestamp ← getUnsignedLongBe
  let replyTimestamp ← getUnsignedLongBe
  pure { address, systemIndex, systemAddresses, requestTimestamp, replyTimestamp }

def getPacketNewIncomingConnection : Reader PacketNewIncomingConnection := do
  skip 1
  let address ← getMiscAddress inetNtop
  let systemAddresses ← readVector (getMiscAddress inetNtop) 20
  let requestTimestamp ← getUnsignedLongBe
  let replyTimestamp ← getUnsignedLongBe
  pure { address, systemAddresses, requestTimestamp, replyTimestamp }

end Addresses

def getPacketConnectedPong : Reader PacketConnectedPong := do
  skip 1
  let requestTimestamp ← getUnsignedLongBe
  let replyTimestamp ← getUnsignedLongBe
  pure { requestTimestamp, replyTimestamp }

/-! ## Putters -/

/-- Without the option the id of the pong is written. -/
def putPacketUnconnectedPing (packet : PacketUnconnectedPing) (opts : Bool) : List UInt8 :=
  putUnsignedByte (if opts then idUnconnectedPingOpenConnections else idUnconnectedPong) ++
  putUnsignedLongBe packet.timestamp ++ putBytes magic ++ putUnsignedLongBe packet.guid

/-- The padding is counted in 16 bits. -/
def putPacketOpenConnectionRequest1 (packet : PacketOpenConnectionRequest1) : List UInt8 :=
  let padBytes := packet.mtuSize - 18
  putUnsignedByte idOpenConnectionRequest1 ++ putBytes magic ++
  putUnsignedByte packet.protocolVersion ++
  (List.replicate padBytes.toNat 0).flatMap putUnsignedByte

def putPacketConnectionRequest (packet : PacketConnectionRequest) : List UInt8 :=
  putUnsignedByte idConnectionRequest ++ putUnsignedLongBe packet.guid ++
  putUnsignedLongBe packet.timestamp

def putPacketConnectedPing (packet : PacketConnectedPing) : List UInt8 :=
  putUnsignedByte idConnectedPing ++ putUnsignedLongBe packet.timestamp

section Environment

variable (environment : Environment)

def putPacketOpenConnectionRequest2 (packet : PacketOpenConnectionRequest2) : List UInt8 :=
  putUnsignedByte idOpenConnectionRequest2 ++ putBytes magic ++
  putMiscAddress environment packet.address ++ putUnsignedShortBe packet.mtuSize ++
  putUnsignedLongBe packet.guid

def putPacketNewIncomingConnection (packet : PacketNewIncomingConnection) : List UInt8 :=
  putUnsignedByte idNewIncomingConnection ++ putMiscAddress environment packet.address ++
  packet.systemAddresses.toList.flatMap (putMiscAddress environment) ++
  putUnsignedLongBe packet.requestTimestamp ++ putUnsignedLongBe packet.replyTimestamp

end Environment

/-! ## One packet of any kind -/

inductive RaknetPacket
  | unconnectedPing (packet : PacketUnconnectedPing)
  | unconnectedPong (packet : PacketUnconnectedPong)
  | incompatibleProtocolVersion (packet : PacketIncompatibleProtocolVersion)
  | openConnectionRequest1 (packet : PacketOpenConnectionRequest1)
  | openConnectionReply1 (packet : PacketOpenConnectionReply1)
  | openConnectionRequest2 (packet : PacketOpenConnectionRequest2)
  | openConnectionReply2 (packet : PacketOpenConnectionReply2)
  | connectionRequest (packet : PacketConnectionRequest)
  | connectionRequestAccepted (packet : PacketConnectionRequestAccepted)
  | newIncomingConnection (packet : PacketNewIncomingConnection)
  | connectedPing (packet : PacketConnectedPing)
  | connectedPong (packet : PacketConnectedPong)

/-- `opts` is the option of the unconnected ping. -/
def putPacket (environment : Environment) (opts : Bool) : RaknetPacket → List UInt8
  | .unconnectedPing packet => putPacketUnconnectedPing packet opts
  | .unconnectedPong packet => putPacketUnconnectedPong packet
  | .incompatibleProtocolVersion packet => putPacketIncompatibleProtocolVersion packet
  | .openConnectionRequest1 packet => putPacketOpenConnectionRequest1 packet
  | .openConnectionReply1 packet => putPacketOpenConnectionReply1 packet
  | .openConnectionRequest2 packet => putPacketOpenConnectionRequest2 environment packet
  | .openConnectionReply2 packet => putPacketOpenConnectionReply2 environment packet
  | .connectionRequest packet => putPacketConnectionRequest packet
  | .connectionRequestAccepted packet => putPacketConnectionRequestAccepted environment packet
  | .newIncomingConnection packet => putPacketNewIncomingConnection environment packet
  | .connectedPing packet => putPacketConnectedPing packet
  | .connectedPong packet => putPacketConnectedPong packet

inductive PacketKind
  | unconnectedPing
  | unconnectedPong
  | incompatibleProtocolVersion
  | openConnectionRequest1
  | openConnectionReply1
  | openConnectionRequest2
  | openConnectionReply2
  | connectionRequest
  | connectionRequestAccepted
  | newIncomingConnection
  | connectedPing
  | connectedPong
  deriving DecidableEq, Repr

def RaknetPacket.kind : RaknetPacket → PacketKind
  | .unconnectedPing _ => .unconnectedPing
  | .unconnectedPong _ => .unconnectedPong
  | .incompatibleProtocolVersion _ => .incompatibleProtocolVersion
  | .openConnectionRequest1 _ => .openConnectionRequest1
  | .openConnectionReply1 _ => .openConnectionReply1
  | .openConnectionRequest2 _ => .openConnectionRequest2
  | .openConnectionReply2 _ => .openConnectionReply2
  | .connectionRequest _ => .connectionRequest
  | .connectionRequestAccepted _ => .connectionRequestAccepted
  | .newIncomingConnection _ => .newIncomingConnection
  | .connectedPing _ => .connectedPing
  | .connectedPong _ => .connectedPong

/-- The getter of a kind; of the packet it knows nothing but the bytes. -/
def getPacket (inetNtop : List UInt8 → List UInt8) : PacketKind → Reader RaknetPacket
  | .unconnectedPing => .unconnectedPing <$> getPacketUnconnectedPing
  | .unconnectedPong => .unconnectedPong <$> getPacketUnconnectedPong
  | .incompatibleProtocolVersion =>
      .incompatibleProtocolVersion <$> getPacketIncompatibleProtocolVersion
  | .openConnectionRequest1 => .openConnectionRequest1 <$> getPacketOpenConnectionRequest1
  | .openConnectionReply1 => .openConnectionReply1 <$> getPacketOpenConnectionReply1
  | .openConnectionRequest2 =>
      .openConnectionRequest2 <$> getPacketOpenConnectionRequest2 inetNtop
  | .openConnectionReply2 => .openConnectionReply2 <$> getPacketOpenConnectionReply2 inetNtop
  | .connectionRequest => .connectionRequest <$> getPacketConnectionRequest
  | .connectionRequestAccepted =>
      .connectionRequestAccepted <$> getPacketConnectionRequestAccepted inetNtop
  | .newIncomingConnection =>
      .newIncomingConnection <$> getPacketNewIncomingConnection inetNtop
  | .connectedPing => .connectedPing <$> getPacketConnectedPing
  | .connectedPong => .connectedPong <$> getPacketConnectedPong

/-- What a getter leaves unread: the padding of the first request. -/
def RaknetPacket.unread : RaknetPacket → List UInt8
  | .openConnectionRequest1 packet => List.replicate (packet.mtuSize.toNat - 18) 0
  | _ => []

/-! ## Addresses -/

/-- An IPv4 address with the text that four numbers print as. -/
def Dotted (address : MiscAddress) : Prop :=
  address.version = 4 ∧
    ∃ part1 part2 part3 part4, address.address = dottedText part1 part2 part3 part4

/-- `inet_addr` on a little-endian host: the first number is the lowest byte. -/
def ReadsDotted (inetAddr : List UInt8 → UInt32) : Prop :=
  ∀ part1 part2 part3 part4 : UInt8, (inetAddr (dottedText part1 part2 part3 part4)).toNat =
    part1.toNat + part2.toNat * 256 + part3.toNat * 65536 + part4.toNat * 16777216

theorem putComplement {word : UInt32} {part1 part2 part3 part4 : UInt8}
    (value : word.toNat =
      part1.toNat + part2.toNat * 256 + part3.toNat * 65536 + part4.toNat * 16777216) :
    putUnsignedIntLe (~~~word) =
      putUnsignedByte (~~~part1) ++ (putUnsignedByte (~~~part2) ++
        (putUnsignedByte (~~~part3) ++ putUnsignedByte (~~~part4))) := by
  have bound1 := part1.toNat_lt
  have bound2 := part2.toNat_lt
  have bound3 := part3.toNat_lt
  have bound4 := part4.toNat_lt
  have whole : (~~~word).toNat = littleValue [~~~part1, ~~~part2, ~~~part3, ~~~part4] := by
    have nothing : littleValue [] = 0 := rfl
    simp only [littleValue_cons, nothing, UInt8.toNat_not, UInt32.toNat_not, value,
      UInt8.size, UInt32.size]
    omega
  rw [putUnsignedIntLe, whole]
  exact littleBytes_littleValue [~~~part1, ~~~part2, ~~~part3, ~~~part4]

section Reading

variable {inetNtop : List UInt8 → List UInt8} {environment : Environment}

theorem reads_miscAddress (reads : ReadsDotted environment.inetAddr) {address : MiscAddress}
    (dotted : Dotted address) :
    Reads (getMiscAddress inetNtop) (putMiscAddress environment address) address := by
  obtain ⟨version, text, port⟩ := address
  obtain ⟨four, part1, part2, part3, part4, same⟩ := dotted
  dsimp only at four same
  rw [putMiscAddress, getMiscAddress]
  apply (reads_unsignedByte version).bind
  dsimp only
  rw [if_pos four, if_pos four, same, putComplement (reads part1 part2 part3 part4)]
  simp only [List.append_assoc]
  apply (reads_unsignedByte _).bind
  apply (reads_unsignedByte _).bind
  apply (reads_unsignedByte _).bind
  apply (reads_unsignedByte _).bind
  apply (reads_unsignedShortBe _).bind_pure
  rw [UInt8.not_not, UInt8.not_not, UInt8.not_not, UInt8.not_not]
  exact Reads.pure _

/-! ## The packets -/

/-- The conditions on the values: dotted addresses, a message that its zero byte
and a 16-bit length can end, and room for the bytes before the padding. -/
def Canonical : RaknetPacket → Prop
  | .unconnectedPong packet =>
      ∃ message, packet.message = some message ∧ (0 : UInt8) ∉ message ∧ message.length ≤ 65535
  | .openConnectionRequest1 packet => 18 ≤ packet.mtuSize.toNat
  | .openConnectionRequest2 packet => Dotted packet.address
  | .openConnectionReply2 packet => Dotted packet.address
  | .connectionRequestAccepted packet =>
      Dotted packet.address ∧ ∀ address ∈ packet.systemAddresses.toList, Dotted address
  | .newIncomingConnection packet =>
      Dotted packet.address ∧ ∀ address ∈ packet.systemAddresses.toList, Dotted address
  | _ => True

/-- The id and the magic that the getter passes over. -/
theorem reads_header (packetId : UInt8) :
    Reads (skip 17) (putUnsignedByte packetId ++ putBytes magic) () :=
  Reads.skip (putUnsignedByte packetId ++ putBytes magic)

theorem reads_id (packetId : UInt8) : Reads (skip 1) (putUnsignedByte packetId) () :=
  Reads.skip (putUnsignedByte packetId)

theorem reads_magic : Reads (skip 16) (putBytes magic) () := Reads.skip (putBytes magic)

theorem reads_unconnectedPing (packet : PacketUnconnectedPing) (opts : Bool) :
    Reads getPacketUnconnectedPing (putPacketUnconnectedPing packet opts) packet := by
  rw [putPacketUnconnectedPing, List.append_assoc, List.append_assoc]
  exact (reads_id _).bind ((reads_unsignedLongBe _).bind
    (reads_magic.bind ((reads_unsignedLongBe _).bind_pure (Reads.pure _))))

theorem reads_unconnectedPong {packet : PacketUnconnectedPong}
    (canonical : Canonical (.unconnectedPong packet)) :
    Reads getPacketUnconnectedPong (putPacketUnconnectedPong packet) packet := by
  obtain ⟨timestamp, guid, message⟩ := packet
  obtain ⟨text, rfl, nonzero, short⟩ := canonical
  have size : (UInt16.ofNat text.length).toNat = text.length :=
    UInt16.toNat_ofNat_of_lt' (Nat.lt_succ_of_le short)
  rw [putPacketUnconnectedPong, getPacketUnconnectedPong]
  simp only [List.append_assoc]
  apply (reads_id _).bind
  apply (reads_unsignedLongBe _).bind
  apply (reads_unsignedLongBe _).bind
  apply reads_magic.bind
  apply (reads_unsignedShortBe _).bind
  rw [size]
  apply (reads_characters text).bind_pure
  rw [cString_of_nonzero nonzero]
  exact Reads.pure _

theorem reads_incompatibleProtocolVersion (packet : PacketIncompatibleProtocolVersion) :
    Reads getPacketIncompatibleProtocolVersion (putPacketIncompatibleProtocolVersion packet)
      packet := by
  rw [putPacketIncompatibleProtocolVersion, List.append_assoc, List.append_assoc]
  exact (reads_id _).bind ((reads_unsignedByte _).bind
    (reads_magic.bind ((reads_unsignedLongBe _).bind_pure (Reads.pure _))))

theorem reads_openConnectionReply1 (packet : PacketOpenConnectionReply1) :
    Reads getPacketOpenConnectionReply1 (putPacketOpenConnectionReply1 packet) packet := by
  rw [putPacketOpenConnectionReply1, List.append_assoc, List.append_assoc]
  exact (reads_header _).bind ((reads_unsignedLongBe _).bind
    ((reads_unsignedByte _).bind ((reads_unsignedShortBe _).bind_pure (Reads.pure _))))

theorem reads_connectionRequest (packet : PacketConnectionRequest) :
    Reads getPacketConnectionRequest (putPacketConnectionRequest packet) packet := by
  rw [putPacketConnectionRequest, List.append_assoc]
  exact (reads_id _).bind ((reads_unsignedLongBe _).bind
    ((reads_unsignedLongBe _).bind_pure (Reads.pure _)))

theorem reads_connectedPing (packet : PacketConnectedPing) :
    Reads getPacketConnectedPing (putPacketConnectedPing packet) packet :=
  (reads_id _).bind ((reads_unsignedLongBe _).bind_pure (Reads.pure _))

theorem reads_connectedPong (packet : PacketConnectedPong) :
    Reads getPacketConnectedPong (putPacketConnectedPong packet) packet := by
  rw [putPacketConnectedPong, List.append_assoc]
  exact (reads_id _).bind ((reads_unsignedLongBe _).bind
    ((reads_unsignedLongBe _).bind_pure (Reads.pure _)))

section Addressed

variable (reads : ReadsDotted environment.inetAddr)

include reads

theorem reads_openConnectionRequest2 {packet : PacketOpenConnectionRequest2}
    (dotted : Dotted packet.address) :
    Reads (getPacketOpenConnectionRequest2 inetNtop)
      (putPacketOpenConnectionRequest2 environment packet) packet := by
  rw [putPacketOpenConnectionRequest2, List.append_assoc, List.append_assoc]
  exact (reads_header _).bind ((reads_miscAddress reads dotted).bind
    ((reads_unsignedShortBe _).bind ((reads_unsignedLongBe _).bind_pure (Reads.pure _))))

theorem reads_openConnectionReply2 {packet : PacketOpenConnectionReply2}
    (dotted : Dotted packet.address) :
    Reads (getPacketOpenConnectionReply2 inetNtop)
      (putPacketOpenConnectionReply2 environment packet) packet := by
  rw [putPacketOpenConnectionReply2, List.append_assoc, List.append_assoc, List.append_assoc]
  exact (reads_header _).bind ((reads_unsignedLongBe _).bind
    ((reads_miscAddress reads dotted).bind ((reads_unsignedShortBe _).bind
      ((reads_unsignedByte _).bind_pure (Reads.pure _)))))

theorem reads_systemAddresses {addresses : Vector MiscAddress 20}
    (dotted : ∀ address ∈ addresses.toList, Dotted address) :
    Reads (readVector (getMiscAddress inetNtop) 20)
      (addresses.toList.flatMap (putMiscAddress environment)) addresses :=
  Reads.vector addresses fun address member => reads_miscAddress reads (dotted address member)

theorem reads_connectionRequestAccepted {packet : PacketConnectionRequestAccepted}
    (dotted : Dotted packet.address)
    (system : ∀ address ∈ packet.systemAddresses.toList, Dotted address) :
    Reads (getPacketConnectionRequestAccepted inetNtop)
      (putPacketConnectionRequestAccepted environment packet) packet := by
  rw [putPacketConnectionRequestAccepted]
  simp only [List.append_assoc]
  exact (reads_id _).bind ((reads_miscAddress reads dotted).bind
    ((reads_unsignedShortBe _).bind ((reads_systemAddresses reads system).bind
      ((reads_unsignedLongBe _).bind ((reads_unsignedLongBe _).bind_pure (Reads.pure _))))))

theorem reads_newIncomingConnection {packet : PacketNewIncomingConnection}
    (dotted : Dotted packet.address)
    (system : ∀ address ∈ packet.systemAddresses.toList, Dotted address) :
    Reads (getPacketNewIncomingConnection inetNtop)
      (putPacketNewIncomingConnection environment packet) packet := by
  rw [putPacketNewIncomingConnection]
  simp only [List.append_assoc]
  exact (reads_id _).bind ((reads_miscAddress reads dotted).bind
    ((reads_systemAddresses reads system).bind
      ((reads_unsignedLongBe _).bind ((reads_unsignedLongBe _).bind_pure (Reads.pure _)))))

end Addressed

/-- The datagram is as long as the MTU says. -/
theorem get_openConnectionRequest1 {packet : PacketOpenConnectionRequest1}
    (room : 18 ≤ packet.mtuSize.toNat) :
    getPacketOpenConnectionRequest1 (putPacketOpenConnectionRequest1 packet) =
      some (packet, List.replicate (packet.mtuSize.toNat - 18) 0) := by
  have pad : (packet.mtuSize - 18).toNat = packet.mtuSize.toNat - 18 :=
    UInt16.toNat_sub_of_le _ _ (UInt16.le_iff_toNat_le.mpr room)
  have padding : (List.replicate (packet.mtuSize - 18).toNat 0).flatMap putUnsignedByte =
      List.replicate (packet.mtuSize.toNat - 18) 0 := by
    rw [pad]
    exact List.flatMap_singleton' _
  have length : (putPacketOpenConnectionRequest1 packet).length = packet.mtuSize.toNat := by
    rw [putPacketOpenConnectionRequest1, List.length_append, padding, List.length_replicate]
    simp [putUnsignedByte, putBytes, magic]
    omega
  have version : Reads (do skip 17; getUnsignedByte : Reader UInt8)
      (putUnsignedByte idOpenConnectionRequest1 ++ putBytes magic ++
        putUnsignedByte packet.protocolVersion) packet.protocolVersion :=
    (reads_header _).bind (reads_unsignedByte _)
  have first := version ((List.replicate (packet.mtuSize - 18).toNat 0).flatMap putUnsignedByte)
  rw [← putPacketOpenConnectionRequest1] at first
  rw [getPacketOpenConnectionRequest1, first, length, UInt16.ofNat_toNat, padding]
  rfl

/-- Every getter returns the packet that its putter wrote, and reads to its end
or, of the first request, to its padding. -/
theorem getPacket_putPacket (reads : ReadsDotted environment.inetAddr) (opts : Bool)
    {packet : RaknetPacket} (canonical : Canonical packet) :
    getPacket inetNtop packet.kind (putPacket environment opts packet) =
      some (packet, packet.unread) := by
  have whole {α : Type} {reader : Reader α} {bytes : List UInt8} {value : α}
      (kind : α → RaknetPacket) (read : Reads reader bytes value) :
      (kind <$> reader) bytes = some (kind value, []) :=
    (read.functor kind).apply_nil
  cases packet with
  | unconnectedPing packet => exact whole _ (reads_unconnectedPing packet opts)
  | unconnectedPong packet => exact whole _ (reads_unconnectedPong canonical)
  | incompatibleProtocolVersion packet => exact whole _ (reads_incompatibleProtocolVersion packet)
  | openConnectionRequest1 packet =>
      exact congrArg (Option.map fun result => (RaknetPacket.openConnectionRequest1 result.1,
        result.2)) (get_openConnectionRequest1 canonical)
  | openConnectionReply1 packet => exact whole _ (reads_openConnectionReply1 packet)
  | openConnectionRequest2 packet => exact whole _ (reads_openConnectionRequest2 reads canonical)
  | openConnectionReply2 packet => exact whole _ (reads_openConnectionReply2 reads canonical)
  | connectionRequest packet => exact whole _ (reads_connectionRequest packet)
  | connectionRequestAccepted packet =>
      exact whole _ (reads_connectionRequestAccepted reads canonical.1 canonical.2)
  | newIncomingConnection packet =>
      exact whole _ (reads_newIncomingConnection reads canonical.1 canonical.2)
  | connectedPing packet => exact whole _ (reads_connectedPing packet)
  | connectedPong packet => exact whole _ (reads_connectedPong packet)

end Reading

/-! ## Numbers and dots -/

/-- The word of a dotted text.  `weight` is the one of the number that the next
characters belong to, and `number` what was read of it. -/
def dottedWord (weight number : Nat) : List UInt8 → Nat
  | [] => number * weight
  | char :: text =>
      if char = 0x2e then number * weight + dottedWord (weight * 256) 0 text
      else dottedWord weight (number * 10 + (char - 48).toNat) text

theorem dottedWord_digits (weight : Nat) (text : List UInt8) :
    ∀ (digits : List UInt8) (number : Nat), (0x2e : UInt8) ∉ digits →
      dottedWord weight number (digits ++ text) = dottedWord weight
        (digits.foldl (fun number char => number * 10 + (char - 48).toNat) number) text := by
  intro digits
  induction digits with
  | nil => exact fun number _ => rfl
  | cons char digits ih =>
      intro number plain
      rw [List.mem_cons, not_or] at plain
      obtain ⟨other, rest⟩ := plain
      rw [List.cons_append, dottedWord, if_neg (Ne.symm other), ih _ rest, List.foldl_cons]

theorem dottedWord_decimal (weight : Nat) (byte : UInt8) (text : List UInt8) :
    dottedWord weight 0 (decimal byte ++ text) = dottedWord weight byte.toNat text := by
  have printed : ∀ number : Fin 256, (0x2e : UInt8) ∉ decimal (UInt8.ofNat number) ∧
      (decimal (UInt8.ofNat number)).foldl
        (fun (number : Nat) char => number * 10 + (char - 48).toNat) 0 = number.val := by
    decide +kernel
  obtain ⟨plain, value⟩ := printed ⟨byte.toNat, byte.toNat_lt⟩
  rw [UInt8.ofNat_toNat] at plain value
  rw [dottedWord_digits weight text _ 0 plain, value]

def dottedAddr (text : List UInt8) : UInt32 := UInt32.ofNat (dottedWord 1 0 text)

theorem readsDotted_dottedAddr : ReadsDotted dottedAddr := by
  intro part1 part2 part3 part4
  have bound1 := part1.toNat_lt
  have bound2 := part2.toNat_lt
  have bound3 := part3.toNat_lt
  have bound4 := part4.toNat_lt
  have dot (weight number : Nat) (text : List UInt8) :
      dottedWord weight number ([0x2e] ++ text) =
        number * weight + dottedWord (weight * 256) 0 text := rfl
  have last := dottedWord_decimal (1 * 256 * 256 * 256) part4 []
  rw [List.append_nil] at last
  have value : dottedWord 1 0 (dottedText part1 part2 part3 part4) =
      part1.toNat + part2.toNat * 256 + part3.toNat * 65536 + part4.toNat * 16777216 := by
    rw [dottedText]
    simp only [List.append_assoc, dottedWord_decimal, dot, last, dottedWord]
    omega
  rw [dottedAddr, value]
  exact UInt32.toNat_ofNat_of_lt' (by rw [UInt32.size]; omega)

def loopback : MiscAddress := ⟨4, dottedText 127 0 0 1, 19132⟩

/-- A client's own address and the twenty of its system. -/
def incoming : RaknetPacket :=
  .newIncomingConnection ⟨loopback, Vector.replicate 20 ⟨4, dottedText 10 0 0 255, 19133⟩, 7, 9⟩

theorem getPacket_putPacket_incoming :
    ReadsDotted dottedAddr ∧ Canonical incoming ∧
      getPacket (fun _ => []) .newIncomingConnection
        (putPacket ⟨dottedAddr, fun _ => Vector.replicate 16 0, 10, fun _ => 0⟩ false incoming) =
        some (incoming, []) := by
  have canonical : Canonical incoming := by
    refine ⟨⟨rfl, 127, 0, 0, 1, rfl⟩, fun address member => ?_⟩
    rw [Vector.toList_replicate] at member
    obtain rfl := List.eq_of_mem_replicate member
    exact ⟨rfl, 10, 0, 0, 255, rfl⟩
  have read := @getPacket_putPacket (fun _ => [])
    ⟨dottedAddr, fun _ => Vector.replicate 16 0, 10, fun _ => 0⟩ readsDotted_dottedAddr false
    incoming canonical
  exact ⟨readsDotted_dottedAddr, canonical, read⟩

end PodrumRakNet.HandshakePackets
