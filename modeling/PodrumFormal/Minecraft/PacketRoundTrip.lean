import PodrumFormal.Minecraft.PacketPutters

/-!
# Packets: round trip

The packets that the server both reads and writes.  Their strings go through an
`int` length, all else is read back for every value.
-/

set_option autoImplicit false

namespace PodrumMinecraft.PacketRoundTrip

open ByteReader ByteWriter PodrumStream.BinaryStream PodrumStream.VarInt Misc PacketGetters
open PacketPutters

inductive Packet
  | resourcePackClientResponse (packet : FullResponse)
  | text (packet : FullText)
  | interact (packet : FullInteract)
  | containerOpen (packet : PacketContainerOpen)
  | movePlayer (packet : FullMovePlayer)
  | requestChunkRadius (packet : PacketRequestChunkRadius)
  deriving DecidableEq

/-- What a getter returns. -/
inductive Received
  | resourcePackClientResponse (packet : PacketResourcePackClientResponse)
  | text (packet : PacketText)
  | interact (packet : PacketInteract)
  | containerOpen (packet : PacketContainerOpen)
  | movePlayer (packet : PacketMovePlayer)
  | requestChunkRadius (packet : PacketRequestChunkRadius)
  deriving DecidableEq

inductive Kind
  | resourcePackClientResponse
  | text
  | interact
  | containerOpen
  | movePlayer
  | requestChunkRadius
  deriving DecidableEq

/-- The getter of a kind. -/
def Kind.get : Kind → Reader Received
  | resourcePackClientResponse =>
      .resourcePackClientResponse <$> getPacketResourcePackClientResponse
  | text => .text <$> getPacketText
  | interact => .interact <$> getPacketInteract
  | containerOpen => .containerOpen <$> getPacketContainerOpen
  | movePlayer => .movePlayer <$> getPacketMovePlayer
  | requestChunkRadius => .requestChunkRadius <$> getPacketRequestChunkRadius

namespace Packet

def packetId : Packet → UInt32
  | resourcePackClientResponse _ => idResourcePackClientResponse
  | text _ => idText
  | interact _ => idInteract
  | containerOpen _ => idContainerOpen
  | movePlayer _ => idMovePlayer
  | requestChunkRadius _ => idRequestChunkRadius

def put : Packet → Option (List UInt8)
  | resourcePackClientResponse packet => putPacketResourcePackClientResponse packet
  | text packet => putPacketText packet
  | interact packet => putPacketInteract packet
  | containerOpen packet => putPacketContainerOpen packet
  | movePlayer packet => putPacketMovePlayer packet
  | requestChunkRadius packet => putPacketRequestChunkRadius packet

def kind : Packet → Kind
  | resourcePackClientResponse _ => .resourcePackClientResponse
  | text _ => .text
  | interact _ => .interact
  | containerOpen _ => .containerOpen
  | movePlayer _ => .movePlayer
  | requestChunkRadius _ => .requestChunkRadius

/-- The fields that its type, action or mode makes present, with a change to its
strings. -/
def read (change : List UInt8 → List UInt8) : Packet → Received
  | resourcePackClientResponse packet => .resourcePackClientResponse (packet.read change)
  | text packet => .text (packet.read change)
  | interact packet => .interact packet.read
  | containerOpen packet => .containerOpen packet
  | movePlayer packet => .movePlayer packet.read
  | requestChunkRadius packet => .requestChunkRadius packet

/-- The strings that are written. -/
def strings : Packet → List (List UInt8)
  | resourcePackClientResponse packet => packet.ids
  | text packet =>
      (if hasSourceName packet.type then [packet.sourceName] else []) ++
        [packet.message, packet.xboxUserId, packet.platformChatId]
  | _ => []

/-- Texts without parameters. -/
def Plain : Packet → Prop
  | text packet => packet.type ∈ [textRaw, textChat, textTip, textSystem, textWhisper,
      textAnnouncement, textJsonWhisper, textJson, textJsonAnnouncement]
  | _ => True

end Packet

theorem plain_text {type : UInt8} (plain : type ∈ [textRaw, textChat, textTip, textSystem,
    textWhisper, textAnnouncement, textJsonWhisper, textJson, textJsonAnnouncement]) :
    hasMessageOnly type = true ∧ hasParameters type = false := by
  simp only [List.mem_cons, List.not_mem_nil, or_false] at plain
  rcases plain with rfl | rfl | rfl | rfl | rfl | rfl | rfl | rfl | rfl <;> exact ⟨rfl, rfl⟩

theorem withId_functor {α β : Type} {part : Option (List UInt8)} {reader : Reader α}
    {packetId : UInt32} {value : α} (convert : α → β)
    (encodes : Encodes part (withId reader) (packetId, value)) :
    Encodes part (withId (convert <$> reader)) (packetId, convert value) := by
  intro block written rest
  have read := encodes block written rest
  obtain ⟨⟨first, middle⟩, head, later⟩ := Option.bind_eq_some_iff.mp read
  obtain ⟨⟨result, last⟩, tail, same⟩ := Option.bind_eq_some_iff.mp later
  cases same
  show (getVarInt (block ++ rest)).bind _ = _
  rw [head, Option.bind_some]
  show (((reader middle).bind _).bind _) = _
  rw [tail]
  rfl

/-- The getter stops at the end of the encoding with the strings up to their
cut. -/
theorem encodes_packet {packet : Packet} (plain : packet.Plain) :
    Encodes packet.put (withId packet.kind.get) (packet.packetId, packet.read cut) := by
  cases packet with
  | resourcePackClientResponse packet => exact withId_functor _ (encodes_response packet)
  | text packet => exact withId_functor _ (encodes_text packet (plain_text plain).2)
  | interact packet => exact withId_functor _ (encodes_interact packet)
  | containerOpen packet => exact withId_functor _ (encodes_containerOpen packet)
  | movePlayer packet => exact withId_functor _ (encodes_movePlayer packet)
  | requestChunkRadius packet => exact withId_functor _ (encodes_requestChunkRadius packet)

theorem put_isSome {packet : Packet} (plain : packet.Plain) :
    (∃ bytes, packet.put = some bytes) ↔ ∀ text ∈ packet.strings, Writable text := by
  cases packet with
  | resourcePackClientResponse packet =>
      simp [Packet.put, Packet.strings, putPacketResourcePackClientResponse,
        putMiscResourcePackIds, putCount, joined_isSome, putMiscStringVarInt_isSome]
  | text packet =>
      obtain ⟨message, noParameters⟩ := plain_text plain
      cases source : hasSourceName packet.type <;>
        simp [Packet.put, Packet.strings, putPacketText, putWhen, source, message, noParameters,
          joined_isSome, putMiscStringVarInt_isSome]
  | interact packet =>
      cases present : hasPosition packet.actionId <;>
        simp [Packet.put, Packet.strings, putPacketInteract, putPosition, putWhen, present,
          joined_isSome]
  | containerOpen packet =>
      simp [Packet.put, Packet.strings, putPacketContainerOpen, joined_isSome]
  | movePlayer packet =>
      by_cases teleported : packet.mode = movePlayerModeTeleport <;>
        simp [Packet.put, Packet.strings, putPacketMovePlayer, putPosition, putTeleportCause,
          putWhen, teleported, joined_isSome]
  | requestChunkRadius packet =>
      simp [Packet.put, Packet.strings, putPacketRequestChunkRadius, joined_isSome]

theorem read_eq_iff {change : List UInt8 → List UInt8} {packet : Packet} (plain : packet.Plain) :
    packet.read change = packet.read id ↔ ∀ text ∈ packet.strings, change text = text := by
  cases packet with
  | resourcePackClientResponse packet =>
      simp only [Packet.read, Packet.strings, FullResponse.read,
        Received.resourcePackClientResponse.injEq, PacketResourcePackClientResponse.mk.injEq,
        MiscResourcePackIds.mk.injEq, true_and]
      exact List.map_inj_left
  | text packet =>
      obtain ⟨message, -⟩ := plain_text plain
      cases source : hasSourceName packet.type <;>
        simp [Packet.read, Packet.strings, FullText.read, source, message]
  | interact packet => simp [Packet.read, Packet.strings]
  | containerOpen packet => simp [Packet.read, Packet.strings]
  | movePlayer packet => simp [Packet.read, Packet.strings]
  | requestChunkRadius packet => simp [Packet.read, Packet.strings]

/-- Reading the id and then the packet stops at the end of the encoding and
returns every present field exactly where each written string is shorter than
2^31 bytes. -/
theorem packet_roundTrip_iff (packet : Packet) (plain : packet.Plain) :
    (∃ bytes, packet.put = some bytes ∧ ∀ rest, withId packet.kind.get (bytes ++ rest) =
        some ((packet.packetId, packet.read id), rest)) ↔
      ∀ text ∈ packet.strings, text.length < 2 ^ 31 := by
  constructor
  · rintro ⟨bytes, written, reads⟩ text member
    have writable := (put_isSome plain).mp ⟨bytes, written⟩
    have read := reads []
    rw [encodes_packet plain bytes written] at read
    have uncut := (read_eq_iff plain).mp (Prod.mk.inj (Prod.mk.inj (Option.some.inj read)).1).2
    exact short_of_cut (writable text member) (uncut text member)
  · intro short
    have writable : ∀ text ∈ packet.strings, Writable text :=
      fun text member => writable_short (short text member)
    obtain ⟨bytes, written⟩ := (put_isSome plain).mpr writable
    have uncut : packet.read cut = packet.read id :=
      (read_eq_iff plain).mpr fun text member => cut_short (short text member)
    refine ⟨bytes, written, fun rest => ?_⟩
    rw [encodes_packet plain bytes written, uncut]

/-- A whisper with a message. -/
def whisper (message : List UInt8) : Packet :=
  .text { type := textWhisper, needsTranslation := 0, sourceName := [0x61], message,
          parameters := [], xboxUserId := [], platformChatId := [], fits := by decide }

theorem packet_roundTrip_iff_whisper :
    (∃ bytes, (whisper [0x62]).put = some bytes ∧
        ∀ rest, withId (whisper [0x62]).kind.get (bytes ++ rest) =
          some (((whisper [0x62]).packetId, (whisper [0x62]).read id), rest)) ↔
      ∀ text ∈ (whisper [0x62]).strings, text.length < 2 ^ 31 :=
  packet_roundTrip_iff (whisper [0x62]) (by simp [whisper, Packet.Plain])

theorem whisper_unwritten {message : List UInt8} (long : message.length = 2 ^ 31) :
    (whisper message).put = none := by
  refine Option.eq_none_iff_forall_ne_some.mpr fun bytes written => ?_
  have plain : (whisper message).Plain := by simp [whisper, Packet.Plain]
  have member : message ∈ (whisper message).strings := by simp [whisper, Packet.strings]
  have writable := (put_isSome plain).mp ⟨bytes, written⟩ message member
  rw [Writable, long] at writable
  omega

/-- The `int` length of a message of 2^31 bytes is negative. -/
theorem longMessage_unwritten : (whisper (List.replicate (2 ^ 31) 0x61)).put = none :=
  whisper_unwritten List.length_replicate

end PodrumMinecraft.PacketRoundTrip
