import PodrumFormal.RakNet.DatagramReads
import PodrumFormal.Stream.StreamLayout

/-!
# The layout of a datagram

No decoder compares its offset with the size.  A datagram is read inside its
bytes exactly when it is as long as its kind, its records or its frames say,
and so are the payloads.
-/

set_option autoImplicit false

namespace PodrumRakNet.DatagramLayout

open ByteReader ByteLayout PodrumStream.BinaryStream PodrumStream.StreamLayout
open PodrumRakNet.Frame PodrumRakNet.FrameSet PodrumRakNet.Acknowledge PodrumRakNet.Packet
open PodrumRakNet.Connections PodrumRakNet.SendQueue PodrumRakNet.Handler
open PodrumRakNet.Handshake PodrumRakNet.Server PodrumRakNet.DatagramReads

/-! ## Packets of a fixed size -/

theorem sized_unconnectedPing : Sized 33 getPacketUnconnectedPing := by
  have rest (timestamp : UInt64) : Sized 24 (do
      skip 16
      let guid ← getUnsignedLongBe
      pure { timestamp, guid } : Reader PacketUnconnectedPing) :=
    Sized.skip_bind 16 8 (sized_unsignedLongBe.bind fun _ => Sized.pure _) (by decide)
  exact Sized.skip_bind 1 32 (sized_unsignedLongBe.bind rest) (by decide)

theorem sized_connectionRequest : Sized 17 getPacketConnectionRequest :=
  Sized.skip_bind 1 16
    (sized_unsignedLongBe.bind fun _ => sized_unsignedLongBe.bind fun _ => Sized.pure _)
    (by decide)

theorem sized_connectedPing : Sized 9 getPacketConnectedPing :=
  Sized.skip_bind 1 8 (sized_unsignedLongBe.bind fun _ => Sized.pure _) (by decide)

theorem openConnectionRequest1_isSome (stream : List UInt8) :
    (getPacketOpenConnectionRequest1 stream).isSome ↔ 18 ≤ stream.length := by
  have sized : Sized 18 (do skip 17; getUnsignedByte : Reader UInt8) :=
    Sized.skip_bind 17 1 sized_unsignedByte (by decide)
  rw [← sized.isSome_iff stream, getPacketOpenConnectionRequest1]
  cases (do skip 17; getUnsignedByte : Reader UInt8) stream <;> simp

/-- An address behind its version. -/
def addressBody (inetNtop : List UInt8 → List UInt8) (version : UInt8) : Reader MiscAddress :=
  if version = 4 then do
    let part1 ← getUnsignedByte
    let part2 ← getUnsignedByte
    let part3 ← getUnsignedByte
    let part4 ← getUnsignedByte
    let port ← getUnsignedShortBe
    pure { version, port, address := dottedText (~~~part1) (~~~part2) (~~~part3) (~~~part4) }
  else do
    skip 2
    let port ← getUnsignedShortBe
    skip 4
    let bytes ← getBytes 16
    skip 4
    pure { version, port, address := inetNtop bytes }

/-- Request 2 behind the version of its address. -/
def behindVersion (inetNtop : List UInt8 → List UInt8) (version : UInt8) :
    Reader PacketOpenConnectionRequest2 := do
  let address ← addressBody inetNtop version
  let mtuSize ← getUnsignedShortBe
  let guid ← getUnsignedLongBe
  pure { address, mtuSize, guid }

theorem openConnectionRequest2_version (inetNtop : List UInt8 → List UInt8) :
    getPacketOpenConnectionRequest2 inetNtop =
      (do skip 17; let version ← getUnsignedByte; behindVersion inetNtop version) := by
  rw [getPacketOpenConnectionRequest2, getMiscAddress]
  simp only [bind_assoc]
  rfl

def request2Size (version : UInt8) : Nat := if version = 4 then 16 else 38

theorem sized_behindVersion (inetNtop : List UInt8 → List UInt8) (version : UInt8) :
    Sized (request2Size version) (behindVersion inetNtop version) := by
  have last (address : MiscAddress) : Sized 10 (do
      let mtuSize ← getUnsignedShortBe
      let guid ← getUnsignedLongBe
      pure { address, mtuSize, guid } : Reader PacketOpenConnectionRequest2) :=
    sized_unsignedShortBe.bind fun _ => sized_unsignedLongBe.bind fun _ => Sized.pure _
  rw [behindVersion, addressBody, request2Size]
  by_cases four : version = 4
  · simp only [if_pos four, bind_assoc, pure_bind]
    exact sized_unsignedByte.bind fun _ => sized_unsignedByte.bind fun _ =>
      sized_unsignedByte.bind fun _ => sized_unsignedByte.bind fun _ =>
      sized_unsignedShortBe.bind fun _ => last _
  · simp only [if_neg four, bind_assoc, pure_bind]
    have zone (port : UInt16) (bytes : List UInt8) : Sized 14 (do
        skip 4
        let mtuSize ← getUnsignedShortBe
        let guid ← getUnsignedLongBe
        pure { address := { version, port, address := inetNtop bytes }, mtuSize, guid } :
          Reader PacketOpenConnectionRequest2) :=
      Sized.skip_bind 4 10 (last _) (by decide)
    have flow (port : UInt16) : Sized 34 (do
        skip 4
        let bytes ← getBytes 16
        skip 4
        let mtuSize ← getUnsignedShortBe
        let guid ← getUnsignedLongBe
        pure { address := { version, port, address := inetNtop bytes }, mtuSize, guid } :
          Reader PacketOpenConnectionRequest2) :=
      Sized.skip_bind 4 30 ((Sized.readBytes 16).bind (zone port)) (by decide)
    exact Sized.skip_bind 2 36 (sized_unsignedShortBe.bind flow) (by decide)

theorem openConnectionRequest2_isSome (inetNtop : List UInt8 → List UInt8) (stream : List UInt8) :
    (getPacketOpenConnectionRequest2 inetNtop stream).isSome ↔
      ∃ version, stream[17]? = some version ∧ 18 + request2Size version ≤ stream.length := by
  have here : stream[17]? = (stream.drop 17).head? := by rw [List.head?_drop]
  have length : (stream.drop 17).length = stream.length - 17 := List.length_drop
  rw [openConnectionRequest2_version, bind_apply, skip, Option.bind_some, here]
  dsimp only
  cases behind : stream.drop 17 with
  | nil => simp [bind_apply, getUnsignedByte, readByte]
  | cons version rest =>
      rw [behind, List.length_cons] at length
      simp only [bind_apply, getUnsignedByte, readByte, Option.bind_some, List.head?_cons,
        Option.some.injEq, exists_eq_left', (sized_behindVersion inetNtop version).isSome_iff]
      omega

/-! ## Records -/

/-- A single number, or the two ends of a range. -/
def RecordLayout : Layout AckRecord := fun record block =>
  match record with
  | .single index => index.toNat < 2 ^ 24 ∧ ∃ isSingle, isSingle ≠ 0 ∧
      block = putUnsignedByte isSingle ++ putUnsignedTriadLe index
  | .range index endIndex => index.toNat < 2 ^ 24 ∧ endIndex.toNat < 2 ^ 24 ∧
      block = putUnsignedByte 0 ++ (putUnsignedTriadLe index ++ putUnsignedTriadLe endIndex)

theorem describes_record : Describes RecordLayout getRecord := by
  refine ⟨fun record block holds => ?_, fun bytes record rest success => ?_⟩
  · cases record with
    | single index =>
        obtain ⟨small, isSingle, other, rfl⟩ := holds
        refine (reads_unsignedByte isSingle).bind
          ((reads_unsignedTriadLe index small).bind_pure ?_)
        rw [if_pos (bne_iff_ne.mpr other)]
        exact Reads.pure _
    | range index endIndex =>
        obtain ⟨small, endSmall, rfl⟩ := holds
        exact (reads_unsignedByte 0).bind ((reads_unsignedTriadLe index small).bind
          ((reads_unsignedTriadLe endIndex endSmall).bind_pure (Reads.pure _)))
  · obtain ⟨⟨isSingle, afterFlag⟩, flagged, read1⟩ := Option.bind_eq_some_iff.mp success
    obtain ⟨flag, rfl, rfl⟩ := describes_unsignedByte.split _ _ _ flagged
    obtain ⟨⟨index, afterIndex⟩, indexed, read2⟩ := Option.bind_eq_some_iff.mp read1
    obtain ⟨first, ⟨rfl, small⟩, rfl⟩ := describes_unsignedTriadLe.split _ _ _ indexed
    dsimp only at read2
    split at read2
    · rename_i other
      cases read2
      exact ⟨_, ⟨small, isSingle, bne_iff_ne.mp other, rfl⟩, (List.append_assoc ..).symm⟩
    · rename_i zero
      obtain rfl : isSingle = 0 := by simpa using zero
      obtain ⟨⟨endIndex, afterEnd⟩, ended, read3⟩ := Option.bind_eq_some_iff.mp read2
      obtain ⟨last, ⟨rfl, endSmall⟩, rfl⟩ := describes_unsignedTriadLe.split _ _ _ ended
      cases read3
      exact ⟨_, ⟨small, endSmall, rfl⟩, by simp only [List.append_assoc]⟩

/-- As many records as are counted behind the first byte. -/
def RecordsFit (stream : List UInt8) : Prop :=
  ∃ packetId recordCount records block rest,
    records.length = recordCount.toNat ∧ Row RecordLayout records block ∧
      stream = putUnsignedByte packetId ++ (putUnsignedShortBe recordCount ++ (block ++ rest))

theorem getRecordsOnly_isSome (stream : List UInt8) :
    (getRecordsOnly stream).isSome ↔ RecordsFit stream := by
  have atEnd : (do
      let recordCount ← getUnsignedShortBe
      readCount getRecord recordCount.toNat : Reader (List AckRecord)) [] = none := rfl
  have describes := describes_bytes 1 |>.bind fun _ =>
    describes_unsignedShortBe.bind fun recordCount =>
      describes_record.readCount recordCount.toNat
  rw [getRecordsOnly, skip_bind atEnd, ← getBytes, describes.isSome_iff]
  constructor
  · rintro ⟨records, _, rest, ⟨passed, _, _, ⟨rfl, one⟩, ⟨recordCount, _, block, rfl,
      ⟨length, row⟩, rfl⟩, rfl⟩, rfl⟩
    obtain ⟨packetId, rfl⟩ := List.length_eq_one_iff.mp one
    exact ⟨packetId, recordCount, records, block, rest, length, row, by
      simp only [List.append_assoc, putUnsignedByte]⟩
  · rintro ⟨packetId, recordCount, records, block, rest, length, row, rfl⟩
    exact ⟨records, _, rest, ⟨[packetId], _, _, ⟨rfl, rfl⟩, ⟨recordCount, _, block, rfl,
      ⟨length, row⟩, rfl⟩, rfl⟩, by simp only [List.append_assoc, putUnsignedByte]⟩

/-! ## Frames -/

def TriadLayout : Layout UInt32 := fun value block =>
  block = putUnsignedTriadLe value ∧ value.toNat < 2 ^ 24

def OrderLayout : Layout (UInt32 × UInt8) := fun order block =>
  order.1.toNat < 2 ^ 24 ∧ block = putUnsignedTriadLe order.1 ++ putUnsignedByte order.2

def CompoundLayout : Layout (UInt32 × UInt16 × UInt32) := fun compound block =>
  block = putUnsignedIntBe compound.1 ++
    (putUnsignedShortBe compound.2.1 ++ putUnsignedIntBe compound.2.2)

/-- Flags, a size in bits of which the low three do not count, the fields that
the flags call for, and as many payload bytes as the size says. -/
def FrameLayout : Layout MiscFrame := fun frame block =>
  ∃ (flags : UInt8) (bits : UInt16) (reliable sequenced order compound : List UInt8),
    frame.reliability = (flags &&& 0xe0) >>> 5 ∧
    frame.isFragmented = (if flags &&& 0x10 > 0 then 1 else 0) ∧
    frame.stream.length = (bits >>> 3).toNat ∧
    When (isReliable frame.reliability) TriadLayout 0 frame.reliableFrameIndex reliable ∧
    When (isSequenced frame.reliability) TriadLayout 0 frame.sequencedFrameIndex sequenced ∧
    When (isOrdered frame.reliability) OrderLayout (0, 0)
      (frame.orderedFrameIndex, frame.orderChannel) order ∧
    When (frame.isFragmented != 0) CompoundLayout (0, 0, 0)
      (frame.compoundSize, frame.compoundId, frame.index) compound ∧
    block = putUnsignedByte flags ++ (putUnsignedShortBe bits ++
      (reliable ++ (sequenced ++ (order ++ (compound ++ frame.stream)))))

theorem describes_order : Describes OrderLayout getOrder := by
  refine (describes_unsignedTriadLe.bind fun index => describes_unsignedByte.bind fun channel =>
    Describes.pure (index, channel)).congr fun order block => ⟨?_, ?_⟩
  · rintro ⟨small, rfl⟩
    exact ⟨order.1, _, _, ⟨rfl, small⟩, ⟨order.2, _, [], rfl, ⟨rfl, rfl⟩, rfl⟩, by
      rw [List.append_nil]⟩
  · rintro ⟨index, _, _, ⟨rfl, small⟩, ⟨channel, _, _, rfl, ⟨rfl, rfl⟩, rfl⟩, rfl⟩
    exact ⟨small, by rw [List.append_nil]⟩

theorem describes_compound : Describes CompoundLayout getCompound := by
  refine (describes_unsignedIntBe.bind fun size => describes_unsignedShortBe.bind fun id =>
    describes_unsignedIntBe.bind fun index =>
      Describes.pure (size, id, index)).congr fun compound block => ⟨?_, ?_⟩
  · rintro rfl
    exact ⟨compound.1, _, _, rfl, ⟨compound.2.1, _, _, rfl, ⟨compound.2.2, _, [], rfl,
      ⟨rfl, rfl⟩, rfl⟩, rfl⟩, by rw [List.append_nil]⟩
  · rintro ⟨size, _, _, rfl, ⟨id, _, _, rfl, ⟨index, _, _, rfl, ⟨rfl, rfl⟩, rfl⟩, rfl⟩, rfl⟩
    rw [CompoundLayout, List.append_nil]

theorem describes_miscFrame : Describes FrameLayout getMiscFrame := by
  refine ⟨fun frame block holds => ?_, fun bytes frame rest success => ?_⟩
  · obtain ⟨flags, bits, reliable, sequenced, order, compound, reliability, fragmented, size,
      reliableAt, sequencedAt, orderAt, compoundAt, rfl⟩ := holds
    cases frame
    dsimp only at reliability fragmented size reliableAt sequencedAt orderAt compoundAt ⊢
    subst reliability fragmented
    refine (reads_unsignedByte flags).bind ?_
    refine (reads_unsignedShortBe bits).bind ?_
    refine ((describes_unsignedTriadLe.readWhen _ 0).reads _ _ reliableAt).bind ?_
    refine ((describes_unsignedTriadLe.readWhen _ 0).reads _ _ sequencedAt).bind ?_
    refine ((describes_order.readWhen _ (0, 0)).reads _ _ orderAt).bind ?_
    refine ((describes_compound.readWhen _ (0, 0, 0)).reads _ _ compoundAt).bind ?_
    rw [← size]
    exact (reads_bytes _).bind_pure (Reads.pure _)
  · obtain ⟨⟨flags, bytes1⟩, flagged, read1⟩ := Option.bind_eq_some_iff.mp success
    obtain ⟨_, rfl, rfl⟩ := describes_unsignedByte.split _ _ _ flagged
    obtain ⟨⟨bits, bytes2⟩, measured, read2⟩ := Option.bind_eq_some_iff.mp read1
    obtain ⟨_, rfl, rfl⟩ := describes_unsignedShortBe.split _ _ _ measured
    obtain ⟨⟨reliableFrameIndex, bytes3⟩, field3, read3⟩ := Option.bind_eq_some_iff.mp read2
    obtain ⟨reliable, reliableAt, rfl⟩ :=
      (describes_unsignedTriadLe.readWhen _ 0).split _ _ _ field3
    obtain ⟨⟨sequencedFrameIndex, bytes4⟩, field4, read4⟩ := Option.bind_eq_some_iff.mp read3
    obtain ⟨sequenced, sequencedAt, rfl⟩ :=
      (describes_unsignedTriadLe.readWhen _ 0).split _ _ _ field4
    obtain ⟨⟨ordered, bytes5⟩, field5, read5⟩ := Option.bind_eq_some_iff.mp read4
    obtain ⟨order, orderAt, rfl⟩ := (describes_order.readWhen _ (0, 0)).split _ _ _ field5
    obtain ⟨⟨joined, bytes6⟩, field6, read6⟩ := Option.bind_eq_some_iff.mp read5
    obtain ⟨compound, compoundAt, rfl⟩ :=
      (describes_compound.readWhen _ (0, 0, 0)).split _ _ _ field6
    obtain ⟨⟨stream, bytes7⟩, field7, read7⟩ := Option.bind_eq_some_iff.mp read6
    obtain ⟨_, ⟨rfl, size⟩, rfl⟩ := (describes_bytes _).split _ _ _ field7
    cases read7
    exact ⟨_, ⟨flags, bits, reliable, sequenced, order, compound, rfl, rfl, size, reliableAt,
      sequencedAt, orderAt, compoundAt, rfl⟩, by simp only [List.append_assoc]⟩

/-! ## Payloads -/

/-- A first byte, and the fields of the packets that are answered. -/
structure PayloadFits (payload : List UInt8) : Prop where
  first : payload ≠ []
  request : payload.head? = some idConnectionRequest → 17 ≤ payload.length
  ping : payload.head? = some idConnectedPing → 9 ≤ payload.length

theorem payloadReads_iff (payload : List UInt8) :
    payloadReads payload = some () ↔ PayloadFits payload := by
  unfold payloadReads
  cases payload with
  | nil => exact iff_of_false (by simp) fun fits => fits.first rfl
  | cons packetId rest =>
      simp only [List.head?_cons, Option.bind_eq_bind, Option.bind_some]
      by_cases request : packetId = idConnectionRequest
      · rw [if_pos request, readsOf_isSome, sized_connectionRequest.isSome_iff]
        refine ⟨fun enough => ⟨List.cons_ne_nil _ _, fun _ => enough, fun same => ?_⟩, fun fits =>
          fits.request (congrArg some request)⟩
        exact absurd (request.symm.trans (Option.some.inj same)) (by decide)
      · rw [if_neg request]
        by_cases ping : packetId = idConnectedPing
        · rw [if_pos ping, readsOf_isSome, sized_connectedPing.isSome_iff]
          refine ⟨fun enough => ⟨List.cons_ne_nil _ _, fun same => ?_, fun _ => enough⟩,
            fun fits => fits.ping (congrArg some ping)⟩
          exact absurd (Option.some.inj same) request
        · rw [if_neg ping]
          exact iff_of_true rfl ⟨List.cons_ne_nil _ _,
            fun same => absurd (Option.some.inj same) request,
            fun same => absurd (Option.some.inj same) ping⟩

/-- The payloads that `handle_frame` looks into: those of whole frames and the
reassembled ones, up to an answer that divides by zero. -/
def handledPayloads (mtuSize : UInt16) : List MiscFrame → FrameHolder → List (List UInt8)
  | [], _ => []
  | frame :: rest, frameHolder =>
      match wholeFrame frame frameHolder with
      | (held, none) => handledPayloads mtuSize rest held
      | (held, some whole) =>
          whole.stream ::
            if answered whole.stream ∧ maxSize mtuSize = 0 then []
            else handledPayloads mtuSize rest held

theorem framesReads_iff (mtuSize : UInt16) : ∀ (frames : List MiscFrame)
    (frameHolder : FrameHolder), framesReads mtuSize frames frameHolder = some () ↔
      ∀ payload ∈ handledPayloads mtuSize frames frameHolder, PayloadFits payload := by
  intro frames
  induction frames with
  | nil => intro frameHolder; simp [framesReads, handledPayloads]
  | cons frame rest ih =>
      intro frameHolder
      rw [framesReads_cons, handledPayloads, Stops]
      cases wholeFrame frame frameHolder with
      | mk held output =>
          cases output with
          | none => simp [ih]
          | some whole =>
              simp only [Option.some.injEq, forall_eq', exists_eq_left', List.forall_mem_cons,
                payloadReads_iff, ih]
              refine and_congr_right fun _ => ?_
              split
              · rename_i stops
                exact iff_of_true (.inl stops) (List.forall_mem_nil _)
              · rename_i goesOn
                exact or_iff_right goesOn

/-- Whole frames behind the first byte and the number, with payloads that are
long enough. -/
def FramesFit (stream : List UInt8) (connection : Connection) : Prop :=
  ∃ packetId sequenceNumber frames block,
    Row FrameLayout frames block ∧
      (∀ payload ∈ handledPayloads connection.mtuSize frames connection.frameHolder,
        PayloadFits payload) ∧
      sequenceNumber.toNat < 2 ^ 24 ∧
      stream = putUnsignedByte packetId ++ (putUnsignedTriadLe sequenceNumber ++ block)

theorem frameSetReads_iff (stream : List UInt8) (connection : Connection) :
    frameSetReads stream connection = some () ↔ FramesFit stream connection := by
  have atEnd : (do
      let sequenceNumber ← getUnsignedTriadLe
      let frames ← readAll getMiscFrame
      pure { sequenceNumber, frames } : Reader PacketFrameSet) [] = none := rfl
  have loop := describes_miscFrame.readAll_iff getMiscFrame_progress
  rw [frameSetReads, getPacketFrameSet, skip_bind atEnd]
  constructor
  · intro success
    obtain ⟨⟨frameSet, rest⟩, decoded, reads⟩ := Option.bind_eq_some_iff.mp success
    obtain ⟨⟨passed, bytes1⟩, skipped, read1⟩ := Option.bind_eq_some_iff.mp decoded
    obtain ⟨_, ⟨rfl, one⟩, rfl⟩ := (describes_bytes 1).split _ _ _ skipped
    obtain ⟨⟨sequenceNumber, bytes2⟩, numbered, read2⟩ := Option.bind_eq_some_iff.mp read1
    obtain ⟨_, ⟨rfl, small⟩, rfl⟩ := describes_unsignedTriadLe.split _ _ _ numbered
    obtain ⟨⟨frames, bytes3⟩, framed, read3⟩ := Option.bind_eq_some_iff.mp read2
    cases read3
    obtain ⟨packetId, rfl⟩ := List.length_eq_one_iff.mp one
    exact ⟨packetId, sequenceNumber, frames, bytes2, ((loop _ _ _).mp framed).2,
      (framesReads_iff _ _ _).mp reads, small, rfl⟩
  · rintro ⟨packetId, sequenceNumber, frames, block, row, payloads, small, rfl⟩
    have framed := (loop block frames []).mpr ⟨rfl, row⟩
    have decoded : (do
        let _ ← readBytes 1
        let sequenceNumber ← getUnsignedTriadLe
        let frames ← readAll getMiscFrame
        pure { sequenceNumber, frames } : Reader PacketFrameSet)
        (putUnsignedByte packetId ++ (putUnsignedTriadLe sequenceNumber ++ block)) =
        some ({ sequenceNumber, frames }, []) := by
      have header : Reads (readBytes 1) (putUnsignedByte packetId) [packetId] :=
        Reads.bytes [packetId]
      rw [header.run_bind, (reads_unsignedTriadLe sequenceNumber small).run_bind, bind_apply,
        framed]
      rfl
    rw [decoded]
    exact (framesReads_iff _ _ _).mpr payloads

/-! ## Datagrams -/

/-- The datagrams that are read inside their bytes, by their first byte. -/
structure DatagramFits (stream : List UInt8) (connection : Option Connection) : Prop where
  ping : stream.head? = some idUnconnectedPing → 33 ≤ stream.length
  request1 : stream.head? = some idOpenConnectionRequest1 → 18 ≤ stream.length
  request2 : stream.head? = some idOpenConnectionRequest2 →
    ∃ version, stream[17]? = some version ∧ 18 + request2Size version ≤ stream.length
  acknowledge : stream.head? = some idAck ∨ stream.head? = some idNack →
    connection.isSome → RecordsFit stream
  frameSet : ∀ packetId known, stream.head? = some packetId → connection = some known →
    packetId ≠ idAck → packetId ≠ idNack → packetId &&& idFrameSet ≠ 0 → FramesFit stream known

section Datagram

variable {inetNtop : List UInt8 → List UInt8} {stream : List UInt8}
  {connection : Option Connection}

theorem onKnown_iff {reads : Connection → Option Unit} :
    onKnown connection reads = some () ↔
      ∀ known, connection = some known → reads known = some () := by
  cases connection <;> simp [onKnown]

theorem readsOf_sized {α : Type} {size : Nat} {reader : Reader α} (sized : Sized size reader) :
    readsOf reader stream = some () ↔ size ≤ stream.length := by
  rw [readsOf_isSome, sized.isSome_iff]

theorem datagramFits_iff {packetId : UInt8} (first : stream.head? = some packetId) :
    DatagramFits stream connection ↔
      (packetId = idUnconnectedPing → 33 ≤ stream.length) ∧
      (packetId = idOpenConnectionRequest1 → 18 ≤ stream.length) ∧
      (packetId = idOpenConnectionRequest2 →
        ∃ version, stream[17]? = some version ∧ 18 + request2Size version ≤ stream.length) ∧
      (packetId = idAck ∨ packetId = idNack → connection.isSome → RecordsFit stream) ∧
      (packetId ≠ idAck → packetId ≠ idNack → packetId &&& idFrameSet ≠ 0 →
        ∀ known, connection = some known → FramesFit stream known) := by
  constructor
  · intro fits
    refine ⟨fun same => fits.ping (by rw [first, same]),
      fun same => fits.request1 (by rw [first, same]),
      fun same => fits.request2 (by rw [first, same]), fun either known => ?_,
      fun notAck notNack set known found =>
        fits.frameSet packetId known first found notAck notNack set⟩
    refine fits.acknowledge ?_ known
    rw [first, Option.some.injEq, Option.some.injEq]
    exact either
  · rintro ⟨ping, request1, request2, acknowledge, frameSet⟩
    refine ⟨fun same => ping ?_, fun same => request1 ?_, fun same => request2 ?_,
      fun either known => acknowledge ?_ known, fun other known head found notAck notNack set => ?_⟩
    · exact Option.some.inj (first.symm.trans same)
    · exact Option.some.inj (first.symm.trans same)
    · exact Option.some.inj (first.symm.trans same)
    · rwa [first, Option.some.injEq, Option.some.injEq] at either
    · obtain rfl := Option.some.inj (first.symm.trans head)
      exact frameSet notAck notNack set known found

end Datagram

/-- A datagram is read inside its bytes and its payloads if and only if it is
laid out as its first byte says. -/
theorem datagramReads_iff (inetNtop : List UInt8 → List UInt8) (server : RaknetServer)
    (address : MiscAddress) (stream : List UInt8) :
    datagramReads inetNtop stream (getRaknetConnection address server) = some () ↔
      DatagramFits stream (getRaknetConnection address server) := by
  generalize getRaknetConnection address server = connection
  unfold datagramReads
  cases first : stream.head? with
  | none =>
      refine iff_of_true rfl ⟨?_, ?_, ?_, ?_, ?_⟩
      all_goals simp [first]
  | some packetId =>
      rw [datagramFits_iff first]
      dsimp only
      by_cases ping : packetId = idUnconnectedPing
      · subst ping
        rw [if_pos rfl, readsOf_sized sized_unconnectedPing]
        refine ⟨fun enough => ⟨fun _ => enough, ?_, ?_, ?_, ?_⟩, fun fits => fits.1 rfl⟩
        · exact fun same => absurd same (by decide)
        · exact fun same => absurd same (by decide)
        · exact fun either => absurd either (by decide)
        · exact fun _ _ set => absurd set (by decide)
      rw [if_neg ping]
      by_cases request1 : packetId = idOpenConnectionRequest1
      · subst request1
        rw [if_pos rfl, readsOf_isSome, openConnectionRequest1_isSome]
        refine ⟨fun enough => ⟨?_, fun _ => enough, ?_, ?_, ?_⟩, fun fits => fits.2.1 rfl⟩
        · exact fun same => absurd same ping
        · exact fun same => absurd same (by decide)
        · exact fun either => absurd either (by decide)
        · exact fun _ _ set => absurd set (by decide)
      rw [if_neg request1]
      by_cases request2 : packetId = idOpenConnectionRequest2
      · subst request2
        rw [if_pos rfl, readsOf_isSome, openConnectionRequest2_isSome]
        refine ⟨fun enough => ⟨?_, ?_, fun _ => enough, ?_, ?_⟩, fun fits => fits.2.2.1 rfl⟩
        · exact fun same => absurd same ping
        · exact fun same => absurd same request1
        · exact fun either => absurd either (by decide)
        · exact fun _ _ set => absurd set (by decide)
      rw [if_neg request2]
      have records : (onKnown connection fun _ => readsOf getRecordsOnly stream) = some () ↔
          (connection.isSome → RecordsFit stream) := by
        rw [onKnown_iff, readsOf_isSome, getRecordsOnly_isSome]
        cases connection <;> simp
      by_cases ack : packetId = idAck
      · rw [if_pos ack, records]
        refine ⟨fun enough => ⟨?_, ?_, ?_, fun _ => enough, ?_⟩,
          fun fits => fits.2.2.2.1 (.inl ack)⟩
        · exact fun same => absurd same ping
        · exact fun same => absurd same request1
        · exact fun same => absurd same request2
        · exact fun notAck => absurd ack notAck
      rw [if_neg ack]
      by_cases nack : packetId = idNack
      · rw [if_pos nack, records]
        refine ⟨fun enough => ⟨?_, ?_, ?_, fun _ => enough, ?_⟩,
          fun fits => fits.2.2.2.1 (.inr nack)⟩
        · exact fun same => absurd same ping
        · exact fun same => absurd same request1
        · exact fun same => absurd same request2
        · exact fun _ notNack => absurd nack notNack
      rw [if_neg nack]
      by_cases set : packetId &&& idFrameSet ≠ 0
      · rw [if_pos set, onKnown_iff]
        simp only [ping, request1, request2, ack, nack, set, frameSetReads_iff, false_implies,
          true_and, or_self, ne_eq, not_false_eq_true, forall_const]
      · rw [if_neg set]
        simp only [ping, request1, request2, ack, nack, set, false_implies, implies_true, or_self,
          and_true]

/-- The first byte of request 1, and nothing behind it. -/
theorem shortRequest_outside :
    ¬∀ (inetNtop : List UInt8 → List UInt8) (server : RaknetServer) (address : MiscAddress)
      (stream : List UInt8), stream ≠ [] →
      datagramReads inetNtop stream (getRaknetConnection address server) = some () := by
  intro always
  have inside := always id {} ⟨4, [0x31], 19132⟩ [0x05] (by decide)
  revert inside
  decide

end PodrumRakNet.DatagramLayout
