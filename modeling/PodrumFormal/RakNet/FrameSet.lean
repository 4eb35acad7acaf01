import Mathlib.Data.List.Forall2
import PodrumFormal.RakNet.Frame

/-!
# Frame sets

`packet_frame_set_t` and its codec: a packet id, a 24-bit sequence number and
the frames back to back, delimited by the end of the datagram only.
-/

set_option autoImplicit false

namespace PodrumRakNet.FrameSet

open ByteReader Endian PodrumStream.BinaryStream PodrumRakNet.Frame

def idFrameSet : UInt8 := 0x80

structure PacketFrameSet where
  sequenceNumber : UInt32 := 0
  frames : List MiscFrame := []
  deriving DecidableEq, Repr

def putPacketFrameSet (packet : PacketFrameSet) : List UInt8 :=
  putUnsignedByte idFrameSet ++ putUnsignedTriadLe packet.sequenceNumber ++
    packet.frames.flatMap putMiscFrame

def getPacketFrameSet : Reader PacketFrameSet := do
  skip 1
  let sequenceNumber ← getUnsignedTriadLe
  let frames ← readAll getMiscFrame
  pure { sequenceNumber, frames }

/-! ## The number on the wire -/

/-- What the 24 bits in the datagram hold of a sequence number. -/
def wireNumber (sequenceNumber : UInt32) : UInt32 := UInt32.ofNat (sequenceNumber.toNat % 2 ^ 24)

theorem wireNumber_toNat (sequenceNumber : UInt32) :
    (wireNumber sequenceNumber).toNat = sequenceNumber.toNat % 2 ^ 24 := by
  have small := Nat.mod_lt sequenceNumber.toNat (show 0 < 2 ^ 24 by decide)
  exact UInt32.toNat_ofNat_of_lt' (by simp only [UInt32.size]; omega)

theorem wireNumber_small {sequenceNumber : UInt32} (small : sequenceNumber.toNat < 2 ^ 24) :
    wireNumber sequenceNumber = sequenceNumber := by
  rw [wireNumber, Nat.mod_eq_of_lt small, UInt32.ofNat_toNat]

theorem reads_wireNumber (sequenceNumber : UInt32) :
    Reads getUnsignedTriadLe (putUnsignedTriadLe sequenceNumber) (wireNumber sequenceNumber) := by
  apply (reads_little_mod 3 sequenceNumber.toNat).bind_pure
  exact Reads.pure _

/-- Whatever its frames decode to, a decoded datagram has the wire number of
the frame set it was written from. -/
theorem getPacketFrameSet_number {packet decoded : PacketFrameSet} {rest : List UInt8}
    (success : getPacketFrameSet (putPacketFrameSet packet) = some (decoded, rest)) :
    decoded.sequenceNumber = wireNumber packet.sequenceNumber := by
  have header := Reads.skip (putUnsignedByte idFrameSet)
    (putUnsignedTriadLe packet.sequenceNumber ++ packet.frames.flatMap putMiscFrame)
  rw [getPacketFrameSet, putPacketFrameSet, List.append_assoc, bind_apply,
    show skip 1 = skip (putUnsignedByte idFrameSet).length by rfl, header, Option.bind_some,
    bind_apply, reads_wireNumber packet.sequenceNumber, Option.bind_some, bind_apply] at success
  obtain ⟨⟨frames, after⟩, _, result⟩ := Option.bind_eq_some_iff.mp success
  cases result
  rfl

/-! ## The round trip -/

/-- Decoding an encoded frame set gives the number and, in order, what the wire
carries of each frame; nothing is left over. -/
theorem getPacketFrameSet_putPacketFrameSet (packet : PacketFrameSet)
    (sequenceFits : packet.sequenceNumber.toNat < 2 ^ 24)
    (encodable : ∀ frame ∈ packet.frames, Encodable frame) :
    getPacketFrameSet (putPacketFrameSet packet) =
      some (⟨packet.sequenceNumber, packet.frames.map wireFrame⟩, []) := by
  have frames : readAll getMiscFrame (packet.frames.flatMap putMiscFrame) =
      some (packet.frames.map wireFrame, []) :=
    readAll_flatMap getMiscFrame_progress packet.frames
      (fun frame member => reads_miscFrame frame (encodable frame member))
      (fun frame _ => putMiscFrame_ne_nil frame)
  have header := Reads.skip (putUnsignedByte idFrameSet)
    (putUnsignedTriadLe packet.sequenceNumber ++ packet.frames.flatMap putMiscFrame)
  have number := reads_unsignedTriadLe packet.sequenceNumber sequenceFits
    (packet.frames.flatMap putMiscFrame)
  rw [getPacketFrameSet, putPacketFrameSet, List.append_assoc, bind_apply]
  rw [show skip 1 = skip (putUnsignedByte idFrameSet).length by rfl, header, Option.bind_some,
    bind_apply, number, Option.bind_some, bind_apply, frames]
  rfl

/-- The received frame has every field of the sent one that the reliability and
the fragment flag make meaningful. -/
structure SameOnWire (sent received : MiscFrame) : Prop where
  reliability : received.reliability = sent.reliability
  fragmented : received.isFragmented ≠ 0 ↔ sent.isFragmented ≠ 0
  reliable : isReliable sent.reliability →
    received.reliableFrameIndex = sent.reliableFrameIndex
  sequenced : isSequenced sent.reliability →
    received.sequencedFrameIndex = sent.sequencedFrameIndex
  ordered : isOrdered sent.reliability →
    received.orderedFrameIndex = sent.orderedFrameIndex ∧
      received.orderChannel = sent.orderChannel
  compound : sent.isFragmented ≠ 0 →
    received.compoundSize = sent.compoundSize ∧ received.compoundId = sent.compoundId ∧
      received.index = sent.index
  stream : received.stream = sent.stream

theorem sameOnWire_wireFrame (frame : MiscFrame) : SameOnWire frame (wireFrame frame) where
  reliability := rfl
  fragmented := by by_cases fragmented : frame.isFragmented = 0 <;> simp [wireFrame, fragmented]
  reliable holds := if_pos holds
  sequenced holds := if_pos holds
  ordered holds := ⟨if_pos holds, if_pos holds⟩
  compound holds := by simp [wireFrame, holds]
  stream := rfl

theorem frameSet_roundTrip (packet : PacketFrameSet)
    (sequenceFits : packet.sequenceNumber.toNat < 2 ^ 24)
    (encodable : ∀ frame ∈ packet.frames, Encodable frame) :
    ∃ decoded, getPacketFrameSet (putPacketFrameSet packet) = some (decoded, []) ∧
      decoded.sequenceNumber = packet.sequenceNumber ∧
      List.Forall₂ SameOnWire packet.frames decoded.frames := by
  refine ⟨_, getPacketFrameSet_putPacketFrameSet packet sequenceFits encodable, rfl, ?_⟩
  rw [List.forall₂_map_right_iff]
  exact List.forall₂_same.mpr fun frame _ => sameOnWire_wireFrame frame

theorem frameSet_roundTrip_fragment :
    ∃ decoded, getPacketFrameSet (putPacketFrameSet
        ⟨5, [{ reliability := 3, isFragmented := 2, index := 1, stream := [9] }]⟩) =
          some (decoded, []) ∧
      decoded.sequenceNumber = 5 ∧
      List.Forall₂ SameOnWire
        [{ reliability := 3, isFragmented := 2, index := 1, stream := [9] }] decoded.frames :=
  frameSet_roundTrip _ (by decide) fun frame member => by
    obtain rfl := List.mem_singleton.mp member
    constructor <;> decide

end PodrumRakNet.FrameSet
