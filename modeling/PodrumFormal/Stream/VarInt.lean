import PodrumFormal.Lib.Base128
import PodrumFormal.Lib.ZigZag
import PodrumFormal.Stream.BinaryStream

/-!
# Variable-length integers

`put_var_int` and its siblings write groups of seven bits, at most five for 32
bits and ten for 64.  The shifts of the getters are taken modulo the width; a
getter that finds no last group gives 0.
-/

set_option autoImplicit false

namespace PodrumStream.VarInt

open ByteReader Base128 ZigZag

def getVarInt : Reader UInt32 := do
  let value ← readGroups 5
  pure (UInt32.ofNat (value.getD 0))

def getSignedVarInt : Reader Int32 := do
  let raw ← getVarInt
  pure ((raw >>> 1) ^^^ (-1 * (raw &&& 1))).toInt32

def getVarLong : Reader UInt64 := do
  let value ← readGroups 10
  pure (UInt64.ofNat (value.getD 0))

def getSignedVarLong : Reader Int64 := do
  let raw ← getVarLong
  pure ((raw >>> 1) ^^^ (-1 * (raw &&& 1))).toInt64

def putVarInt (value : UInt32) : List UInt8 := putGroups 5 value.toNat

def putSignedVarInt (value : Int32) : List UInt8 :=
  putVarInt (if 0 ≤ value then value.toUInt32 <<< 1 else ((-1 - value).toUInt32 <<< 1) ||| 1)

def putVarLong (value : UInt64) : List UInt8 := putGroups 10 value.toNat

def putSignedVarLong (value : Int64) : List UInt8 :=
  putVarLong (if 0 ≤ value then value.toUInt64 <<< 1 else ((-1 - value).toUInt64 <<< 1) ||| 1)

/-! ## Zig-zag -/

/-- What is put for a signed number. -/
theorem raw_int (value : Int32) :
    (if 0 ≤ value then value.toUInt32 <<< 1
      else ((-1 - value).toUInt32 <<< 1) ||| 1).toBitVec = encoded value.toBitVec := by
  have sign : 0 ≤ value ↔ 0 ≤ value.toBitVec.toInt := by
    rw [Int32.le_iff_toInt_le, Int32.toInt_zero, Int32.toInt_toBitVec]
  rw [encoded]
  by_cases positive : 0 ≤ value
  · rw [if_pos positive, if_pos (sign.mp positive)]
    rfl
  · rw [if_neg positive, if_neg fun holds => positive (sign.mpr holds)]
    rfl

theorem raw_long (value : Int64) :
    (if 0 ≤ value then value.toUInt64 <<< 1
      else ((-1 - value).toUInt64 <<< 1) ||| 1).toBitVec = encoded value.toBitVec := by
  have sign : 0 ≤ value ↔ 0 ≤ value.toBitVec.toInt := by
    rw [Int64.le_iff_toInt_le, Int64.toInt_zero, Int64.toInt_toBitVec]
  rw [encoded]
  by_cases positive : 0 ≤ value
  · rw [if_pos positive, if_pos (sign.mp positive)]
    rfl
  · rw [if_neg positive, if_neg fun holds => positive (sign.mpr holds)]
    rfl

theorem unzigzag_int (value : Int32) :
    let raw := if 0 ≤ value then value.toUInt32 <<< 1 else ((-1 - value).toUInt32 <<< 1) ||| 1
    ((raw >>> 1) ^^^ (-1 * (raw &&& 1))).toInt32 = value := by
  have decoded := decoded_encoded value.toBitVec
  rw [← raw_int] at decoded
  exact Int32.toBitVec_inj.mp decoded

theorem unzigzag_long (value : Int64) :
    let raw := if 0 ≤ value then value.toUInt64 <<< 1 else ((-1 - value).toUInt64 <<< 1) ||| 1
    ((raw >>> 1) ^^^ (-1 * (raw &&& 1))).toInt64 = value := by
  have decoded := decoded_encoded value.toBitVec
  rw [← raw_long] at decoded
  exact Int64.toBitVec_inj.mp decoded

/-! ## Each getter reads what its putter wrote -/

/-- Five groups hold 32 bits. -/
theorem fits_varInt (value : UInt32) : value.toNat < 128 ^ 5 :=
  Nat.lt_trans value.toNat_lt (by decide)

/-- Ten groups hold 64 bits. -/
theorem fits_varLong (value : UInt64) : value.toNat < 128 ^ 10 :=
  Nat.lt_trans value.toNat_lt (by decide)

theorem reads_varInt (value : UInt32) : Reads getVarInt (putVarInt value) value :=
  (reads_groups 5 value.toNat (fits_varInt value) (by decide)).map UInt32.ofNat_toNat

theorem reads_signedVarInt (value : Int32) :
    Reads getSignedVarInt (putSignedVarInt value) value :=
  (reads_varInt _).map (unzigzag_int value)

theorem reads_varLong (value : UInt64) : Reads getVarLong (putVarLong value) value :=
  (reads_groups 10 value.toNat (fits_varLong value) (by decide)).map UInt64.ofNat_toNat

theorem reads_signedVarLong (value : Int64) :
    Reads getSignedVarLong (putSignedVarLong value) value :=
  (reads_varLong _).map (unzigzag_long value)

/-! ## Lengths -/

theorem isLeast_varInt (value : UInt32) :
    IsLeast {groups | Holds groups value.toNat} (putVarInt value).length :=
  isLeast_putGroups_length (fits_varInt value) (by decide)

theorem isLeast_signedVarInt (value : Int32) :
    IsLeast {groups | Holds groups (zigzag value.toInt)} (putSignedVarInt value).length := by
  rw [← Int32.toInt_toBitVec, ← toNat_encoded, ← raw_int]
  exact isLeast_varInt _

theorem isLeast_varLong (value : UInt64) :
    IsLeast {groups | Holds groups value.toNat} (putVarLong value).length :=
  isLeast_putGroups_length (fits_varLong value) (by decide)

theorem isLeast_signedVarLong (value : Int64) :
    IsLeast {groups | Holds groups (zigzag value.toInt)} (putSignedVarLong value).length := by
  rw [← Int64.toInt_toBitVec, ← toNat_encoded, ← raw_long]
  exact isLeast_varLong _

theorem putVarInt_ne_nil (value : UInt32) : putVarInt value ≠ [] :=
  putGroups_ne_nil (by decide) value.toNat

theorem getVarInt_progress : Progress getVarInt :=
  (readGroups_progress (by decide)).bind fun _ => Shrinks.pure _

/-- A value read from fewer bytes could not have been written in more. -/
theorem putVarInt_length_le {bytes rest : List UInt8} {value : UInt32}
    (success : getVarInt bytes = some (value, rest)) :
    (putVarInt value).length + rest.length ≤ bytes.length := by
  obtain ⟨⟨result, after⟩, read, success⟩ := Option.bind_eq_some_iff.mp success
  cases success
  obtain ⟨taken, lengths, positive, bound⟩ := readGroups_taken (by decide) read
  have below : (UInt32.ofNat (result.getD 0)).toNat < 128 ^ taken := by
    rw [UInt32.toNat_ofNat']
    refine Nat.lt_of_le_of_lt (Nat.mod_le _ _) ?_
    cases result with
    | none => exact Nat.pow_pos (by decide)
    | some value => exact bound value rfl
  have short := putGroups_length_le 5 below positive
  rw [putVarInt]
  omega

end PodrumStream.VarInt
