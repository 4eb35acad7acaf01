import PodrumFormal.Minecraft.Misc
import PodrumFormal.Zlib.ZlibHelper

/-!
# The game packet

A game packet is its id and the deflated sub-packets, each behind its length.
Inflated, it comes back as the same sub-packets if a buffer of the decoder
that holds them all is below `2 ^ 31` bytes long.
-/

set_option autoImplicit false

namespace PodrumMinecraft.GamePacket

open ByteReader PodrumStream.BinaryStream PodrumStream.VarInt PodrumZlib.ZlibHelper Misc

def idGame : UInt8 := 0xfe

/-! ## Getter and putter -/

def getEntryStream : Reader (List UInt8) := do
  let size ← getVarInt
  getBytes size.toNat

/-- Where `zlib_decode` finds no deflated data, the packet is not compressed.
After any other failure `out` is not assigned. -/
def gameData (data : List UInt8) (status : MzStatus) (out : Option (List UInt8)) :
    Option (List UInt8) :=
  if status = .dataError then some data else out

def getPacketGame (miniz : Miniz) (fuel : Nat) : List UInt8 → Option (List (List UInt8))
  -- `stream->size - 1` wraps.
  | [] => none
  | _ :: data => do
      let (status, out) ← zlibDecode miniz fuel data zlibRawMode
      let dataStream ← gameData data status out
      let (streams, _) ← readAll getEntryStream dataStream
      some streams

def putEntryStream (stream : List UInt8) : List UInt8 :=
  putVarInt (UInt32.ofNat stream.length) ++ putBytes stream

/-- `none` where the encoder leaves a part of the output unwritten. -/
def putPacketGame (miniz : Miniz) (streams : List (List UInt8)) (iscompress : UInt8) :
    Option (List UInt8) :=
  let tempStream := streams.flatMap putEntryStream
  if iscompress = 1 then
    (zlibEncode miniz tempStream 7 zlibRawMode).2.map fun out => putUnsignedByte idGame ++ out
  else some (putUnsignedByte idGame ++ putBytes tempStream)

/-! ## Sub-packets -/

/-- The bytes that are deflated. -/
def batch (streams : List (List UInt8)) : List UInt8 := streams.flatMap putEntryStream

theorem reads_entryStream {stream : List UInt8} (short : stream.length < 2 ^ 32) :
    Reads getEntryStream (putEntryStream stream) stream :=
  reads_byteArrayVarInt short

theorem getEntryStream_progress : Progress getEntryStream :=
  getVarInt_progress.bind fun size => readBytes_shrinks size.toNat

theorem putEntryStream_ne_nil (stream : List UInt8) : putEntryStream stream ≠ [] := fun empty =>
  putVarInt_ne_nil _ (List.append_eq_nil_iff.mp empty).1

theorem getEntryStream_consumes {bytes rest stream : List UInt8}
    (success : getEntryStream bytes = some (stream, rest)) :
    (putEntryStream stream).length + rest.length ≤ bytes.length := by
  obtain ⟨⟨size, after⟩, first, success⟩ := Option.bind_eq_some_iff.mp success
  have taken := putVarInt_length_le first
  dsimp only [getBytes, readBytes] at success
  split at success
  · rename_i enough
    cases success
    have length : (after.take size.toNat).length = size.toNat :=
      List.length_take_of_le enough
    rw [putEntryStream, List.length_append, length, UInt32.ofNat_toNat, putBytes, length,
      List.length_drop]
    omega
  · cases success

theorem readAll_batch {streams : List (List UInt8)}
    (short : ∀ stream ∈ streams, stream.length < 2 ^ 32) :
    readAll getEntryStream (batch streams) = some (streams, []) := by
  have each : ∀ stream ∈ streams, Reads getEntryStream (putEntryStream stream) (id stream) :=
    fun stream member => reads_entryStream (short stream member)
  have loop := readAll_flatMap getEntryStream_progress streams each
    fun stream _ => putEntryStream_ne_nil stream
  rwa [List.map_id] at loop

/-! ## The round trip -/

/-- The getter returns exactly the list that the putter was given. -/
def RoundTrips (miniz : Miniz) (streams : List (List UInt8)) : Prop :=
  ∃ encoded, putPacketGame miniz streams 1 = some encoded ∧
    ∃ fuel, getPacketGame miniz fuel encoded = some streams

section RoundTrip

variable {miniz : Miniz} {streams : List (List UInt8)}

def deflatedBatch (miniz : Miniz) (streams : List (List UInt8)) : List UInt8 :=
  miniz.deflate (windowBits zlibRawMode) 7 (batch streams)

theorem roundTrips_of_fits (laws : RawLaws miniz 7)
    (short : ∀ stream ∈ streams, stream.length < 2 ^ 32)
    (fits : BufferFits (batch streams).length (deflatedBatch miniz streams).length) :
    RoundTrips miniz streams := by
  have below : (batch streams).length < 2 ^ 31 := by
    obtain ⟨turns, room, small⟩ := fits
    omega
  obtain ⟨fuel, decoded⟩ := zlibDecode_fits laws rfl fits
  refine ⟨idGame :: deflatedBatch miniz streams, ?_, fuel, ?_⟩
  · have encoded := zlibEncode_deflated laws below
    rw [batch] at encoded
    simp only [putPacketGame, encoded, if_true]
    rfl
  · have returned := readAll_batch short
    rw [← deflatedBatch] at decoded
    simp [getPacketGame, gameData, decoded, returned]

theorem fits_of_roundTrips (laws : RawLaws miniz 7) (returned : RoundTrips miniz streams) :
    BufferFits (batch streams).length (deflatedBatch miniz streams).length := by
  obtain ⟨encoded, put, fuel, got⟩ := returned
  obtain ⟨out, written, rfl⟩ := Option.map_eq_some_iff.mp put
  obtain ⟨deflated, small⟩ := zlibEncode_out written
  have shape : putUnsignedByte idGame ++ out = idGame :: out := rfl
  rw [← batch] at deflated
  rw [shape] at got
  obtain ⟨⟨status, result⟩, decoded, got⟩ := Option.bind_eq_some_iff.mp got
  obtain ⟨dataStream, chosen, got⟩ := Option.bind_eq_some_iff.mp got
  obtain ⟨⟨others, final⟩, loop, same⟩ := Option.bind_eq_some_iff.mp got
  cases same
  generalize taken : (batch streams).take (toUInt (batch streams).length) = data at deflated
  have short : data.length < 2 ^ 32 := by
    rw [← taken, List.length_take, toUInt]
    omega
  have fits : BufferFits data.length out.length := by
    by_contra overflow
    have bounded := laws.bounded data short
    rw [deflated] at bounded
    rw [zlibDecode_overflow laws short deflated small bounded overflow fuel] at decoded
    cases decoded
  obtain ⟨turns, complete⟩ := zlibDecode_fits laws deflated fits
  obtain ⟨rfl, rfl⟩ := Prod.mk.inj (zlibDecode_unique decoded complete)
  obtain rfl : data = dataStream := Option.some.inj chosen
  -- A shorter input than the whole batch does not have room for all of it.
  have consumed := readAll_consumes (fun _ _ _ => getEntryStream_consumes) loop
  have whole : data = batch streams := by
    rw [← taken]
    apply List.take_of_length_le
    rw [← taken, List.length_take, batch] at consumed
    rw [batch]
    omega
  rw [deflatedBatch, ← whole, deflated]
  exact fits

/-- A batch comes back exactly when a buffer of the decoder holds it. -/
theorem packetGame_roundTrip_iff (miniz : Miniz) (laws : RawLaws miniz 7)
    (streams : List (List UInt8)) (short : ∀ stream ∈ streams, stream.length < 2 ^ 32) :
    RoundTrips miniz streams ↔
      BufferFits (batch streams).length (deflatedBatch miniz streams).length :=
  ⟨fits_of_roundTrips laws, roundTrips_of_fits laws short⟩

end RoundTrip

/-! ## A stored block -/

/-- A codec that stores its input in one block, as miniz does with a few
bytes that no match shortens, and writes the empty block for none. -/
def storedMiniz : Miniz where
  State := List UInt8
  inflateInit2 _ input := .ok (if input = [0x03, 0x00] then [] else input.drop 5)
  inflate stream availOut :=
    { status := if stream.length ≤ availOut then .streamEnd else .ok
      bytes := stream.take availOut
      next := stream.drop availOut }
  deflateInit2 _ _ := .ok
  deflate _ _ data :=
    if data = [] then [0x03, 0x00]
    else
      0x01 :: (Endian.littleBytes 2 data.length ++
        (Endian.littleBytes 2 (65535 - data.length % 65536) ++ data))

theorem storedMiniz_delivers (pending : List UInt8) : Delivers storedMiniz pending pending := by
  induction size : pending.length using Nat.strongRecOn generalizing pending with
  | ind size ih =>
      have whole (avail : Nat) : pending.take avail = pending ↔ pending.length ≤ avail := by
        rw [← (List.take_prefix avail pending).sublist.length_eq, List.length_take]
        omega
      refine .intro ?_ ?_ ?_ ?_ ?_
      · intro avail _
        exact List.length_take_le avail pending
      · intro avail _
        exact List.take_prefix avail pending
      · intro avail _
        simp only [storedMiniz, whole]
      · intro avail positive silent
        exact (List.take_eq_nil_iff.mp silent).resolve_left (by omega)
      · intro avail positive unread
        have short : ¬pending.length ≤ avail := fun holds => unread ((whole avail).mpr holds)
        have taken : (pending.take avail).length = avail := List.length_take_of_le (by omega)
        show Delivers storedMiniz (pending.drop avail) (pending.drop (pending.take avail).length)
        rw [taken]
        exact ih _ (by rw [List.length_drop]; omega) _ rfl

theorem storedMiniz_laws (level : Int) : RawLaws storedMiniz level where
  ready := rfl
  nonempty data := by
    simp only [storedMiniz]
    split
    · exact Nat.le_refl 2
    · simp only [List.length_cons, List.length_append, Endian.littleBytes_length]
      omega
  bounded data _ := by
    simp only [storedMiniz, compressBound]
    split
    · simp only [List.length_cons, List.length_nil]
      omega
    · simp only [List.length_cons, List.length_append, Endian.littleBytes_length]
      omega
  inflated data _ := by
    refine ⟨data, ?_, storedMiniz_delivers data⟩
    simp only [storedMiniz]
    by_cases empty : data = []
    · simp [empty]
    · simp [empty, Endian.littleBytes]

theorem packetGame_roundTrip_iff_stored :
    RoundTrips storedMiniz [[0xc1], []] ↔
      BufferFits (batch [[0xc1], []]).length (deflatedBatch storedMiniz [[0xc1], []]).length :=
  packetGame_roundTrip_iff storedMiniz (storedMiniz_laws 7) [[0xc1], []] (by decide)

/-- One sub-packet of `2 ^ 31` bytes. -/
def longBatch : List (List UInt8) := [List.replicate (2 ^ 31) 0]

theorem longBatch_lost :
    RawLaws storedMiniz 7 ∧ (∀ stream ∈ longBatch, stream.length < 2 ^ 32) ∧
      ∀ miniz, RawLaws miniz 7 → ¬RoundTrips miniz longBatch := by
  refine ⟨storedMiniz_laws 7, ?_, ?_⟩
  · intro stream member
    rw [List.mem_singleton.mp member, List.length_replicate]
    decide
  · intro miniz laws returned
    obtain ⟨turns, room, small⟩ := fits_of_roundTrips laws returned
    have long : 2 ^ 31 ≤ (batch longBatch).length := by
      rw [batch, longBatch, List.flatMap_singleton, putEntryStream, putBytes, List.length_append,
        List.length_replicate]
      exact Nat.le_add_left _ _
    omega

end PodrumMinecraft.GamePacket
