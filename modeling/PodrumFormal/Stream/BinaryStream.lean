import PodrumFormal.Lib.Endian

/-!
# The binary stream

The fixed-width getters and putters of `cbinarystream`.  A getter reads at the
stream's offset, so it is a reader of the bytes from the offset on; a putter
appends, so it is the list of bytes it appends.
-/

set_option autoImplicit false

namespace PodrumStream.BinaryStream

open ByteReader Endian

/-! ## Getters -/

def getBytes (count : Nat) : Reader (List UInt8) := readBytes count

def getUnsignedByte : Reader UInt8 := readByte

def getByte : Reader Int8 := do
  let raw ← getUnsignedByte
  pure raw.toInt8

def getUnsignedShortLe : Reader UInt16 := do
  let value ← readLittle 2
  pure (UInt16.ofNat value)

def getUnsignedShortBe : Reader UInt16 := do
  let value ← readBig 2
  pure (UInt16.ofNat value)

def getShortLe : Reader Int16 := do
  let raw ← getUnsignedShortLe
  pure raw.toInt16

def getShortBe : Reader Int16 := do
  let raw ← getUnsignedShortBe
  pure raw.toInt16

def getUnsignedTriadLe : Reader UInt32 := do
  let value ← readLittle 3
  pure (UInt32.ofNat value)

def getUnsignedIntLe : Reader UInt32 := do
  let value ← readLittle 4
  pure (UInt32.ofNat value)

def getUnsignedIntBe : Reader UInt32 := do
  let value ← readBig 4
  pure (UInt32.ofNat value)

def getIntLe : Reader Int32 := do
  let raw ← getUnsignedIntLe
  pure raw.toInt32

def getIntBe : Reader Int32 := do
  let raw ← getUnsignedIntBe
  pure raw.toInt32

def getUnsignedLongLe : Reader UInt64 := do
  let value ← readLittle 8
  pure (UInt64.ofNat value)

def getUnsignedLongBe : Reader UInt64 := do
  let value ← readBig 8
  pure (UInt64.ofNat value)

def getLongLe : Reader Int64 := do
  let raw ← getUnsignedLongLe
  pure raw.toInt64

def getLongBe : Reader Int64 := do
  let raw ← getUnsignedLongBe
  pure raw.toInt64

/-- A float is its bit pattern here. -/
def getFloatLe : Reader UInt32 := getUnsignedIntLe

def getFloatBe : Reader UInt32 := getUnsignedIntBe

def getDoubleLe : Reader UInt64 := getUnsignedLongLe

def getDoubleBe : Reader UInt64 := getUnsignedLongBe

/-! ## Putters -/

def putBytes (data : List UInt8) : List UInt8 := data

def putUnsignedByte (value : UInt8) : List UInt8 := [value]

def putByte (value : Int8) : List UInt8 := putUnsignedByte value.toUInt8

def putUnsignedShortLe (value : UInt16) : List UInt8 := littleBytes 2 value.toNat

def putUnsignedShortBe (value : UInt16) : List UInt8 := bigBytes 2 value.toNat

def putShortLe (value : Int16) : List UInt8 := putUnsignedShortLe value.toUInt16

def putShortBe (value : Int16) : List UInt8 := putUnsignedShortBe value.toUInt16

def putUnsignedTriadLe (value : UInt32) : List UInt8 := littleBytes 3 value.toNat

def putUnsignedIntLe (value : UInt32) : List UInt8 := littleBytes 4 value.toNat

def putUnsignedIntBe (value : UInt32) : List UInt8 := bigBytes 4 value.toNat

def putIntLe (value : Int32) : List UInt8 := putUnsignedIntLe value.toUInt32

def putIntBe (value : Int32) : List UInt8 := putUnsignedIntBe value.toUInt32

def putUnsignedLongLe (value : UInt64) : List UInt8 := littleBytes 8 value.toNat

def putUnsignedLongBe (value : UInt64) : List UInt8 := bigBytes 8 value.toNat

def putLongLe (value : Int64) : List UInt8 := putUnsignedLongLe value.toUInt64

def putLongBe (value : Int64) : List UInt8 := putUnsignedLongBe value.toUInt64

def putFloatLe (bits : UInt32) : List UInt8 := putUnsignedIntLe bits

def putFloatBe (bits : UInt32) : List UInt8 := putUnsignedIntBe bits

def putDoubleLe (bits : UInt64) : List UInt8 := putUnsignedLongLe bits

def putDoubleBe (bits : UInt64) : List UInt8 := putUnsignedLongBe bits

/-! ## Lengths -/

@[simp] theorem putUnsignedShortBe_length (value : UInt16) :
    (putUnsignedShortBe value).length = 2 := bigBytes_length 2 _

@[simp] theorem putUnsignedTriadLe_length (value : UInt32) :
    (putUnsignedTriadLe value).length = 3 := littleBytes_length 3 _

@[simp] theorem putUnsignedIntBe_length (value : UInt32) :
    (putUnsignedIntBe value).length = 4 := bigBytes_length 4 _

/-! ## Each getter reads what its putter wrote -/

theorem reads_unsignedByte (value : UInt8) :
    Reads getUnsignedByte (putUnsignedByte value) value := Reads.byte value

theorem reads_bytes (data : List UInt8) : Reads (getBytes data.length) (putBytes data) data :=
  Reads.bytes data

/-- A string is read byte by byte. -/
theorem reads_characters (text : List UInt8) :
    Reads (readCount getUnsignedByte text.length) text text := by
  have each : Reads (readCount getUnsignedByte text.length) (text.flatMap putUnsignedByte)
      (text.map id) := Reads.count text fun byte _ => reads_unsignedByte byte
  have bytes : text.flatMap putUnsignedByte = text := List.flatMap_singleton' text
  rwa [bytes, List.map_id] at each

theorem reads_byte (value : Int8) : Reads getByte (putByte value) value :=
  (reads_unsignedByte value.toUInt8).map (Int8.toInt8_toUInt8 value)

theorem reads_unsignedShortLe (value : UInt16) :
    Reads getUnsignedShortLe (putUnsignedShortLe value) value :=
  (reads_little 2 value.toNat value.toNat_lt).map UInt16.ofNat_toNat

theorem reads_unsignedShortBe (value : UInt16) :
    Reads getUnsignedShortBe (putUnsignedShortBe value) value :=
  (reads_big 2 value.toNat value.toNat_lt).map UInt16.ofNat_toNat

theorem reads_shortLe (value : Int16) : Reads getShortLe (putShortLe value) value :=
  (reads_unsignedShortLe value.toUInt16).map (Int16.toInt16_toUInt16 value)

theorem reads_shortBe (value : Int16) : Reads getShortBe (putShortBe value) value :=
  (reads_unsignedShortBe value.toUInt16).map (Int16.toInt16_toUInt16 value)

/-- Three bytes hold a value below `2 ^ 24` only. -/
theorem reads_unsignedTriadLe (value : UInt32) (fits : value.toNat < 2 ^ 24) :
    Reads getUnsignedTriadLe (putUnsignedTriadLe value) value :=
  (reads_little 3 value.toNat fits).map UInt32.ofNat_toNat

theorem reads_unsignedIntLe (value : UInt32) :
    Reads getUnsignedIntLe (putUnsignedIntLe value) value :=
  (reads_little 4 value.toNat value.toNat_lt).map UInt32.ofNat_toNat

theorem reads_unsignedIntBe (value : UInt32) :
    Reads getUnsignedIntBe (putUnsignedIntBe value) value :=
  (reads_big 4 value.toNat value.toNat_lt).map UInt32.ofNat_toNat

theorem reads_intLe (value : Int32) : Reads getIntLe (putIntLe value) value :=
  (reads_unsignedIntLe value.toUInt32).map (Int32.toInt32_toUInt32 value)

theorem reads_intBe (value : Int32) : Reads getIntBe (putIntBe value) value :=
  (reads_unsignedIntBe value.toUInt32).map (Int32.toInt32_toUInt32 value)

theorem reads_unsignedLongLe (value : UInt64) :
    Reads getUnsignedLongLe (putUnsignedLongLe value) value :=
  (reads_little 8 value.toNat value.toNat_lt).map UInt64.ofNat_toNat

theorem reads_unsignedLongBe (value : UInt64) :
    Reads getUnsignedLongBe (putUnsignedLongBe value) value :=
  (reads_big 8 value.toNat value.toNat_lt).map UInt64.ofNat_toNat

theorem reads_longLe (value : Int64) : Reads getLongLe (putLongLe value) value :=
  (reads_unsignedLongLe value.toUInt64).map (Int64.toInt64_toUInt64 value)

theorem reads_longBe (value : Int64) : Reads getLongBe (putLongBe value) value :=
  (reads_unsignedLongBe value.toUInt64).map (Int64.toInt64_toUInt64 value)

theorem getUnsignedTriadLe_lt {bytes rest : List UInt8} {value : UInt32}
    (success : getUnsignedTriadLe bytes = some (value, rest)) : value.toNat < 2 ^ 24 := by
  simp only [getUnsignedTriadLe, readLittle, readBytes, bind_apply, pure_apply] at success
  split at success
  · rename_i enough
    obtain ⟨rfl, _⟩ := Prod.mk.inj (Option.some.inj success)
    have below := littleValue_lt (bytes.take 3)
    rw [List.length_take, Nat.min_eq_left enough] at below
    rw [UInt32.toNat_ofNat_of_lt' (by simp only [UInt32.size]; omega)]
    exact below
  · simp at success

/-! ## Progress -/

theorem getUnsignedShortBe_shrinks : Shrinks getUnsignedShortBe :=
  (readBig_shrinks 2).bind fun _ => Shrinks.pure _

theorem getUnsignedTriadLe_shrinks : Shrinks getUnsignedTriadLe :=
  (readLittle_shrinks 3).bind fun _ => Shrinks.pure _

theorem getUnsignedIntBe_shrinks : Shrinks getUnsignedIntBe :=
  (readBig_shrinks 4).bind fun _ => Shrinks.pure _

end PodrumStream.BinaryStream
