import Mathlib.Tactic.IntervalCases
import PodrumFormal.Stream.BinaryStream

/-!
# RakNet frames

`misc_frame_t`, the three reliability classifications, and the frame codec
`get_misc_frame` / `put_misc_frame`.  Which header fields are on the wire
depends on the reliability and on the fragment flag; a field that is not there
is left unassigned by the source and is zero here.
-/

set_option autoImplicit false

namespace PodrumRakNet.Frame

open ByteReader PodrumStream.BinaryStream

def reliabilityUnreliable : UInt8 := 0x00
def reliabilityUnreliableSequenced : UInt8 := 0x01
def reliabilityReliable : UInt8 := 0x02
def reliabilityReliableOrdered : UInt8 := 0x03
def reliabilityReliableSequenced : UInt8 := 0x04
def reliabilityReliableWithAckReceipt : UInt8 := 0x06
def reliabilityReliableOrderedWithAckReceipt : UInt8 := 0x07

/-- `stream` holds the payload bytes; every frame's stream starts at offset 0. -/
structure MiscFrame where
  reliability : UInt8 := 0
  isFragmented : UInt8 := 0
  reliableFrameIndex : UInt32 := 0
  sequencedFrameIndex : UInt32 := 0
  orderedFrameIndex : UInt32 := 0
  orderChannel : UInt8 := 0
  compoundSize : UInt32 := 0
  compoundId : UInt16 := 0
  index : UInt32 := 0
  stream : List UInt8 := []
  deriving DecidableEq, Repr

def isReliable (reliability : UInt8) : Bool :=
  reliability == reliabilityReliable ||
  reliability == reliabilityReliableOrdered ||
  reliability == reliabilityReliableSequenced ||
  reliability == reliabilityReliableWithAckReceipt ||
  reliability == reliabilityReliableOrderedWithAckReceipt

def isSequenced (reliability : UInt8) : Bool :=
  reliability == reliabilityUnreliableSequenced ||
  reliability == reliabilityReliableSequenced

def isOrdered (reliability : UInt8) : Bool :=
  reliability == reliabilityUnreliableSequenced ||
  reliability == reliabilityReliableOrdered ||
  reliability == reliabilityReliableSequenced ||
  reliability == reliabilityReliableOrderedWithAckReceipt

/-! ## The codec -/

def frameFlags (frame : MiscFrame) : UInt8 :=
  (frame.reliability <<< 5) ||| (if frame.isFragmented != 0 then 0x10 else 0x00)

def putMiscFrame (frame : MiscFrame) : List UInt8 :=
  putUnsignedByte (frameFlags frame) ++
  putUnsignedShortBe (UInt16.ofNat (frame.stream.length <<< 3)) ++
  (if isReliable frame.reliability then putUnsignedTriadLe frame.reliableFrameIndex else []) ++
  (if isSequenced frame.reliability then putUnsignedTriadLe frame.sequencedFrameIndex else []) ++
  (if isOrdered frame.reliability then
    putUnsignedTriadLe frame.orderedFrameIndex ++ putUnsignedByte frame.orderChannel else []) ++
  (if frame.isFragmented != 0 then
    putUnsignedIntBe frame.compoundSize ++ putUnsignedShortBe frame.compoundId ++
      putUnsignedIntBe frame.index else []) ++
  frame.stream

def getOrder : Reader (UInt32 × UInt8) := do
  let orderedFrameIndex ← getUnsignedTriadLe
  let orderChannel ← getUnsignedByte
  pure (orderedFrameIndex, orderChannel)

def getCompound : Reader (UInt32 × UInt16 × UInt32) := do
  let compoundSize ← getUnsignedIntBe
  let compoundId ← getUnsignedShortBe
  let index ← getUnsignedIntBe
  pure (compoundSize, compoundId, index)

def getMiscFrame : Reader MiscFrame := do
  let flags ← getUnsignedByte
  let reliability := (flags &&& 0xe0) >>> 5
  let isFragmented : UInt8 := if flags &&& 0x10 > 0 then 1 else 0
  let bits ← getUnsignedShortBe
  let size := (bits >>> 3).toNat
  let reliableFrameIndex ← readWhen (isReliable reliability) getUnsignedTriadLe 0
  let sequencedFrameIndex ← readWhen (isSequenced reliability) getUnsignedTriadLe 0
  let order ← readWhen (isOrdered reliability) getOrder (0, 0)
  let compound ← readWhen (isFragmented != 0) getCompound (0, 0, 0)
  let stream ← getBytes size
  pure {
    reliability, isFragmented, reliableFrameIndex, sequencedFrameIndex
    orderedFrameIndex := order.1, orderChannel := order.2
    compoundSize := compound.1, compoundId := compound.2.1, index := compound.2.2, stream }

def getFrameSize (frame : MiscFrame) : Nat :=
  3 + frame.stream.length +
  (if isReliable frame.reliability then 3 else 0) +
  (if isSequenced frame.reliability then 3 else 0) +
  (if isOrdered frame.reliability then 4 else 0) +
  (if frame.isFragmented != 0 then 10 else 0)

/-- `get_frame_size` is the number of bytes `put_misc_frame` writes. -/
theorem putMiscFrame_length (frame : MiscFrame) :
    (putMiscFrame frame).length = getFrameSize frame := by
  simp only [putMiscFrame, getFrameSize, List.length_append, apply_ite List.length,
    putUnsignedByte, putUnsignedShortBe_length, putUnsignedTriadLe_length,
    putUnsignedIntBe_length, List.length_cons, List.length_nil, Nat.reduceAdd]
  omega

/-! ## What the wire carries of a frame -/

/-- The frame with the fields that its reliability and its fragment flag leave
off the wire cleared, and the flag as the single bit it is there. -/
def wireFrame (frame : MiscFrame) : MiscFrame where
  reliability := frame.reliability
  isFragmented := if frame.isFragmented != 0 then 1 else 0
  reliableFrameIndex := if isReliable frame.reliability then frame.reliableFrameIndex else 0
  sequencedFrameIndex := if isSequenced frame.reliability then frame.sequencedFrameIndex else 0
  orderedFrameIndex := if isOrdered frame.reliability then frame.orderedFrameIndex else 0
  orderChannel := if isOrdered frame.reliability then frame.orderChannel else 0
  compoundSize := if frame.isFragmented != 0 then frame.compoundSize else 0
  compoundId := if frame.isFragmented != 0 then frame.compoundId else 0
  index := if frame.isFragmented != 0 then frame.index else 0
  stream := frame.stream

/-- The frames the header can carry: three reliability bits, 24-bit indices
and a payload whose length in bits fits 16 bits. -/
structure Encodable (frame : MiscFrame) : Prop where
  reliability : frame.reliability.toNat ≤ 7
  reliableFrameIndex : frame.reliableFrameIndex.toNat < 2 ^ 24
  sequencedFrameIndex : frame.sequencedFrameIndex.toNat < 2 ^ 24
  orderedFrameIndex : frame.orderedFrameIndex.toNat < 2 ^ 24
  stream : frame.stream.length < 8192

theorem reliability_cases {reliability : UInt8} (small : reliability.toNat ≤ 7) :
    reliability ∈ [0, 1, 2, 3, 4, 5, 6, (7 : UInt8)] := by
  have exact : reliability = UInt8.ofNat reliability.toNat := UInt8.ofNat_toNat.symm
  generalize reliability.toNat = number at small exact
  interval_cases number <;> simp [exact]

theorem flags_decode (frame : MiscFrame) (small : frame.reliability.toNat ≤ 7) :
    (frameFlags frame &&& 0xe0) >>> 5 = frame.reliability ∧
      (frameFlags frame &&& 0x10 > 0 ↔ (frame.isFragmented != 0) = true) := by
  have cases := reliability_cases small
  unfold frameFlags
  generalize frame.reliability = reliability at cases
  generalize (frame.isFragmented != 0) = fragmented
  simp only [List.mem_cons, List.not_mem_nil, or_false] at cases
  cases fragmented <;>
    rcases cases with rfl | rfl | rfl | rfl | rfl | rfl | rfl | rfl <;> decide

/-- The payload length comes back from its 16-bit length in bits. -/
theorem size_decode (size : Nat) (fits : size < 8192) :
    (UInt16.ofNat (size <<< 3) >>> 3).toNat = size := by
  rw [UInt16.toNat_shiftRight, UInt16.toNat_ofNat', Nat.shiftLeft_eq, Nat.mod_eq_of_lt (by omega)]
  simp [Nat.shiftRight_eq_div_pow]

theorem reads_order (frame : MiscFrame) (fits : frame.orderedFrameIndex.toNat < 2 ^ 24) :
    Reads getOrder (putUnsignedTriadLe frame.orderedFrameIndex ++ putUnsignedByte frame.orderChannel)
      (frame.orderedFrameIndex, frame.orderChannel) :=
  (reads_unsignedTriadLe _ fits).bind
    ((reads_unsignedByte _).bind_pure (Reads.pure _))

theorem reads_compound (frame : MiscFrame) :
    Reads getCompound
      (putUnsignedIntBe frame.compoundSize ++ putUnsignedShortBe frame.compoundId ++
        putUnsignedIntBe frame.index)
      (frame.compoundSize, frame.compoundId, frame.index) := by
  rw [List.append_assoc]
  exact (reads_unsignedIntBe _).bind
    ((reads_unsignedShortBe _).bind ((reads_unsignedIntBe _).bind_pure (Reads.pure _)))

theorem getOrder_shrinks : Shrinks getOrder :=
  getUnsignedTriadLe_shrinks.bind fun _ =>
    readByte_progress.shrinks.bind fun _ => Shrinks.pure _

theorem getCompound_shrinks : Shrinks getCompound :=
  getUnsignedIntBe_shrinks.bind fun _ =>
    getUnsignedShortBe_shrinks.bind fun _ =>
      getUnsignedIntBe_shrinks.bind fun _ => Shrinks.pure _

theorem reads_miscFrame (frame : MiscFrame) (encodable : Encodable frame) :
    Reads getMiscFrame (putMiscFrame frame) (wireFrame frame) := by
  obtain ⟨reliabilityExact, fragmentExact⟩ := flags_decode frame encodable.reliability
  have sizeExact := size_decode frame.stream.length encodable.stream
  unfold getMiscFrame putMiscFrame
  simp only [List.append_assoc]
  apply (reads_unsignedByte _).bind
  simp only [reliabilityExact, fragmentExact]
  apply (reads_unsignedShortBe _).bind
  rw [sizeExact]
  refine (Reads.readWhen (isReliable frame.reliability) 0 fun _ =>
    reads_unsignedTriadLe _ encodable.reliableFrameIndex).bind ?_
  refine (Reads.readWhen (isSequenced frame.reliability) 0 fun _ =>
    reads_unsignedTriadLe _ encodable.sequencedFrameIndex).bind ?_
  refine (Reads.readWhen (isOrdered frame.reliability) (0, 0) fun _ =>
    reads_order frame encodable.orderedFrameIndex).bind ?_
  have flag : ((if (frame.isFragmented != 0) = true then 1 else 0 : UInt8) != 0) =
      (frame.isFragmented != 0) := by
    cases frame.isFragmented != 0 <;> rfl
  rw [flag]
  refine (Reads.readWhen (frame.isFragmented != 0) (0, 0, 0) fun _ =>
    reads_compound frame).bind ?_
  apply (reads_bytes frame.stream).bind_pure
  simp only [apply_ite Prod.fst, apply_ite Prod.snd]
  exact Reads.pure (wireFrame frame)

theorem getMiscFrame_progress : Progress getMiscFrame := by
  apply readByte_progress.bind
  intro _
  apply getUnsignedShortBe_shrinks.bind
  intro _
  apply (getUnsignedTriadLe_shrinks.readWhen _ 0).bind
  intro _
  apply (getUnsignedTriadLe_shrinks.readWhen _ 0).bind
  intro _
  apply (getOrder_shrinks.readWhen _ (0, 0)).bind
  intro _
  apply (getCompound_shrinks.readWhen _ (0, 0, 0)).bind
  intro _
  exact (readBytes_shrinks _).bind fun _ => Shrinks.pure _

theorem putMiscFrame_ne_nil (frame : MiscFrame) : putMiscFrame frame ≠ [] := by
  simp [putMiscFrame, putUnsignedByte]

end PodrumRakNet.Frame
