import PodrumFormal.Lib.Cursor
import PodrumFormal.Stream.VarInt

/-!
# The loops of the variable-length integers

The getters and putters over the stream itself: its buffer, its offset, the
shift that counts up by seven and the accumulator of the value's width, where a
bit shifted out is lost.  They follow the readers and append the lists of bytes
that the other modules are about.
-/

set_option autoImplicit false

namespace PodrumStream.VarIntLoops

open ByteReader Cursor Base128 ZigZag

abbrev BinaryStream := Cursor

/-! ## Getters -/

section Loops

variable {width : Nat}

def getUnsignedByte : Scan UInt8 := next

/-- The loop of the getters; 0 behind the last round. -/
def getLoop : Nat → Nat → BitVec width → Scan (BitVec width)
  | 0, _, _ => pure 0
  | rounds + 1, i, value => do
      let toRead ← getUnsignedByte
      let value := value ||| ((toRead &&& 0x7f).toBitVec.setWidth width <<< i)
      if toRead &&& 0x80 = 0 then pure value else getLoop rounds (i + 7) value

/-- The loop of the putters. -/
def putLoop : Nat → BitVec width → BinaryStream → BinaryStream
  | 0, _, stream => stream
  | rounds + 1, value, stream =>
      let toWrite := UInt8.ofBitVec ((value &&& 0x7f).setWidth 8)
      let value := value >>> 7
      if value ≠ 0 then putLoop rounds value (stream.push (toWrite ||| 0x80))
      else stream.push toWrite

end Loops

def getVarInt : Scan UInt32 := do
  let value ← getLoop 5 0 0
  pure (UInt32.ofBitVec value)

def getSignedVarInt : Scan Int32 := do
  let raw ← getVarInt
  pure ((raw >>> 1) ^^^ (-1 * (raw &&& 1))).toInt32

def getVarLong : Scan UInt64 := do
  let value ← getLoop 10 0 0
  pure (UInt64.ofBitVec value)

def getSignedVarLong : Scan Int64 := do
  let raw ← getVarLong
  pure ((raw >>> 1).toInt64 ^^^ (-1 * (raw &&& 1).toInt64))

/-! ## Putters -/

def putVarInt (value : UInt32) : BinaryStream → BinaryStream :=
  putLoop 5 (value &&& 0xffffffff).toBitVec

def putSignedVarInt (value : Int32) : BinaryStream → BinaryStream :=
  putVarInt (if 0 ≤ value then value.toUInt32 <<< 1 else ((-1 - value).toUInt32 <<< 1) ||| 1)

def putVarLong (value : UInt64) : BinaryStream → BinaryStream :=
  putLoop 10 (value &&& 0xffffffffffffffff).toBitVec

def putSignedVarLong (value : Int64) : BinaryStream → BinaryStream :=
  putVarLong (if 0 ≤ value then value.toUInt64 <<< 1 else ((-1 - value).toUInt64 <<< 1) ||| 1)

/-! ## The loops -/

section Refinement

variable {width : Nat}

theorem ofNat_shiftLeft (value shift : Nat) :
    BitVec.ofNat width (value <<< shift) = BitVec.ofNat width value <<< shift := by
  apply BitVec.eq_of_toNat_eq
  simp [Nat.shiftLeft_eq]

/-- The first group and the groups behind it, in one accumulator or in two. -/
theorem joined_groups (value : BitVec width) (byte : UInt8) (i high : Nat) :
    value ||| (byte.toBitVec.setWidth width <<< i) ||| (BitVec.ofNat width high <<< (i + 7)) =
      value ||| (BitVec.ofNat width (byte.toNat ||| (high <<< 7)) <<< i) := by
  have low : byte.toBitVec.setWidth width = BitVec.ofNat width byte.toNat :=
    (BitVec.ofNat_toNat width byte.toBitVec).symm
  rw [BitVec.ofNat_or, ofNat_shiftLeft, BitVec.shiftLeft_or_distrib, low, BitVec.or_assoc,
    Nat.add_comm i 7, BitVec.shiftLeft_add]

/-- What the accumulator ends with, for what the groups still to be read give. -/
def accumulated (i : Nat) (value : BitVec width) : Option Nat → BitVec width
  | some high => value ||| (BitVec.ofNat width high <<< i)
  | none => 0

theorem accumulated_last (i : Nat) (value : BitVec width) (byte : UInt8) :
    accumulated i value (some byte.toNat) = value ||| (byte.toBitVec.setWidth width <<< i) := by
  rw [accumulated, ← BitVec.ofNat_toNat]
  rfl

theorem accumulated_more (i : Nat) (value : BitVec width) (byte : UInt8) (high : Option Nat) :
    accumulated i value (high.map fun high => byte.toNat ||| (high <<< 7)) =
      accumulated (i + 7) (value ||| (byte.toBitVec.setWidth width <<< i)) high := by
  cases high with
  | none => rfl
  | some high => rw [Option.map_some, accumulated, accumulated, joined_groups]

/-- The accumulator takes each group in front of those that are still to be read. -/
theorem getLoop_follows (rounds : Nat) : ∀ (i : Nat) (value : BitVec width),
    Follows (getLoop rounds i value)
      (readGroups rounds >>= fun high => pure (accumulated i value high)) := by
  induction rounds with
  | zero => exact fun i value => Follows.pure 0
  | succ rounds ih =>
      intro i value
      rw [getLoop, readGroups, bind_assoc]
      refine Follows.next.bind fun toRead => ?_
      by_cases last : toRead &&& 0x80 = 0
      · rw [if_pos last, if_pos last, pure_bind, accumulated_last]
        exact Follows.pure _
      · rw [if_neg last, if_neg last, bind_assoc]
        simp only [pure_bind, accumulated_more]
        exact ih (i + 7) _

theorem putLoop_eq (wide : 7 < width) (rounds : Nat) :
    ∀ (value : BitVec width) (stream : BinaryStream),
      putLoop rounds value stream =
        { stream with buffer := stream.buffer ++ putGroups rounds value.toNat } := by
  induction rounds with
  | zero =>
      intro value stream
      rw [putLoop, putGroups, List.append_nil]
  | succ rounds ih =>
      intro value stream
      have group : UInt8.ofBitVec ((value &&& 0x7f).setWidth 8) =
          UInt8.ofNat (value.toNat &&& 0x7f) := by
        have mask : ((0x7f : BitVec width)).toNat = 0x7f :=
          Nat.mod_eq_of_lt (Nat.lt_of_lt_of_le (by decide) (Nat.pow_le_pow_right (by decide) wide))
        rw [← BitVec.ofNat_toNat, BitVec.toNat_and, mask]
        rfl
      have rest : (value >>> 7).toNat = value.toNat >>> 7 := BitVec.toNat_ushiftRight value 7
      have more : value >>> 7 ≠ 0 ↔ value.toNat >>> 7 ≠ 0 := by
        rw [← rest, ne_eq, ne_eq, BitVec.toNat_eq]
        rfl
      rw [putLoop, putGroups]
      by_cases another : value >>> 7 ≠ 0
      · simp only [if_pos another, if_pos (more.mp another), group, ih, rest, push,
          List.append_assoc, List.singleton_append]
      · simp only [if_neg another, if_neg (fun other => another (more.mpr other)), group, push]

end Refinement

/-! ## Each getter follows its reader -/

theorem accumulated_start {width : Nat} (value : Option Nat) :
    accumulated 0 (0 : BitVec width) value = BitVec.ofNat width (value.getD 0) := by
  cases value with
  | none => rfl
  | some value =>
      rw [accumulated, BitVec.shiftLeft_zero, show (0 : BitVec width) = BitVec.ofNat width 0 by rfl,
        BitVec.zero_or]
      rfl

theorem getValue_follows {width : Nat} {α : Type} (rounds : Nat) (convert : BitVec width → α) :
    Follows (getLoop rounds 0 0 >>= fun value => pure (convert value))
      (readGroups rounds >>= fun value => pure (convert (BitVec.ofNat width (value.getD 0)))) := by
  have follows := (getLoop_follows rounds 0 (0 : BitVec width)).map convert
  simpa only [bind_assoc, pure_bind, accumulated_start] using follows

theorem getVarInt_follows : Follows getVarInt VarInt.getVarInt := getValue_follows 5 _

theorem getVarLong_follows : Follows getVarLong VarInt.getVarLong := getValue_follows 10 _

theorem getSignedVarInt_follows : Follows getSignedVarInt VarInt.getSignedVarInt :=
  getVarInt_follows.map _

theorem getSignedVarLong_follows : Follows getSignedVarLong VarInt.getSignedVarLong :=
  getVarLong_follows.map _

/-! ## Each putter appends its bytes -/

theorem putVarInt_eq (value : UInt32) (stream : BinaryStream) :
    putVarInt value stream =
      { stream with buffer := stream.buffer ++ VarInt.putVarInt value } := by
  have whole : value &&& 0xffffffff = value := UInt32.and_neg_one
  rw [putVarInt, whole, putLoop_eq (by decide)]
  rfl

theorem putVarLong_eq (value : UInt64) (stream : BinaryStream) :
    putVarLong value stream =
      { stream with buffer := stream.buffer ++ VarInt.putVarLong value } := by
  have whole : value &&& 0xffffffffffffffff = value := UInt64.and_neg_one
  rw [putVarLong, whole, putLoop_eq (by decide)]
  rfl

theorem putSignedVarInt_eq (value : Int32) (stream : BinaryStream) :
    putSignedVarInt value stream =
      { stream with buffer := stream.buffer ++ VarInt.putSignedVarInt value } :=
  putVarInt_eq _ stream

theorem putSignedVarLong_eq (value : Int64) (stream : BinaryStream) :
    putSignedVarLong value stream =
      { stream with buffer := stream.buffer ++ VarInt.putSignedVarLong value } :=
  putVarLong_eq _ stream

/-! ## One value of any kind -/

inductive VarValue
  | varInt (value : UInt32)
  | signedVarInt (value : Int32)
  | varLong (value : UInt64)
  | signedVarLong (value : Int64)
  deriving DecidableEq

def put : VarValue → BinaryStream → BinaryStream
  | .varInt value => putVarInt value
  | .signedVarInt value => putSignedVarInt value
  | .varLong value => putVarLong value
  | .signedVarLong value => putSignedVarLong value

inductive VarKind
  | varInt
  | signedVarInt
  | varLong
  | signedVarLong
  deriving DecidableEq

def VarValue.kind : VarValue → VarKind
  | .varInt _ => .varInt
  | .signedVarInt _ => .signedVarInt
  | .varLong _ => .varLong
  | .signedVarLong _ => .signedVarLong

/-- The getter of a kind. -/
def get : VarKind → Scan VarValue
  | .varInt => .varInt <$> getVarInt
  | .signedVarInt => .signedVarInt <$> getSignedVarInt
  | .varLong => .varLong <$> getVarLong
  | .signedVarLong => .signedVarLong <$> getSignedVarLong

/-- What the groups hold. -/
def number : VarValue → Nat
  | .varInt value => value.toNat
  | .signedVarInt value => zigzag value.toInt
  | .varLong value => value.toNat
  | .signedVarLong value => zigzag value.toInt

/-- From where a putter wrote, the getter gives the value back and stops behind
what was written, whatever stands around it, and no fewer groups hold the
value. -/
theorem varValue_roundTrip (value : VarValue) (stream : BinaryStream) (after : List UInt8) :
    ∃ bytes, put value stream = { stream with buffer := stream.buffer ++ bytes } ∧
      get value.kind ⟨stream.buffer ++ bytes ++ after, stream.buffer.length⟩ =
        some (value, ⟨stream.buffer ++ bytes ++ after, stream.buffer.length + bytes.length⟩) ∧
      IsLeast {groups | Holds groups (number value)} bytes.length := by
  cases value with
  | varInt value =>
      refine ⟨_, putVarInt_eq value stream, ?_, VarInt.isLeast_varInt value⟩
      exact (getVarInt_follows.map _).block ((VarInt.reads_varInt value).functor _) _ after
  | signedVarInt value =>
      refine ⟨_, putSignedVarInt_eq value stream, ?_, VarInt.isLeast_signedVarInt value⟩
      exact (getSignedVarInt_follows.map _).block ((VarInt.reads_signedVarInt value).functor _) _
        after
  | varLong value =>
      refine ⟨_, putVarLong_eq value stream, ?_, VarInt.isLeast_varLong value⟩
      exact (getVarLong_follows.map _).block ((VarInt.reads_varLong value).functor _) _ after
  | signedVarLong value =>
      refine ⟨_, putSignedVarLong_eq value stream, ?_, VarInt.isLeast_signedVarLong value⟩
      exact (getSignedVarLong_follows.map _).block ((VarInt.reads_signedVarLong value).functor _) _
        after

/-- The most negative number takes all ten groups, the last of them of one bit. -/
example : (put (.signedVarLong Int64.minValue) ⟨[], 0⟩).buffer =
    [0xff, 0xff, 0xff, 0xff, 0xff, 0xff, 0xff, 0xff, 0xff, 0x01] := by
  decide

end PodrumStream.VarIntLoops
