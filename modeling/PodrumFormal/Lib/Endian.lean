import Mathlib.Algebra.Group.Nat.Defs
import Mathlib.Data.List.Basic
import PodrumFormal.Lib.ByteReader

/-!
# Fixed-width integers as bytes

`littleBytes width value` are the `width` low bytes of `value`, least
significant first, and `littleValue` puts shifted bytes together again; the big
endian forms are their mirror images.
-/

set_option autoImplicit false

namespace Endian

open ByteReader

def littleBytes : Nat → Nat → List UInt8
  | 0, _ => []
  | width + 1, value => UInt8.ofNat (value &&& 0xff) :: littleBytes width (value >>> 8)

def littleValue : List UInt8 → Nat
  | [] => 0
  | byte :: rest => byte.toNat ||| littleValue rest <<< 8

def bigBytes (width value : Nat) : List UInt8 := (littleBytes width value).reverse

def bigValue (bytes : List UInt8) : Nat := littleValue bytes.reverse

@[simp] theorem littleBytes_length (width value : Nat) :
    (littleBytes width value).length = width := by
  induction width generalizing value with
  | zero => rfl
  | succ width ih => simp [littleBytes, ih]

@[simp] theorem bigBytes_length (width value : Nat) : (bigBytes width value).length = width := by
  simp [bigBytes]

theorem littleValue_cons (byte : UInt8) (rest : List UInt8) :
    littleValue (byte :: rest) = byte.toNat + 256 * littleValue rest := by
  have small : byte.toNat < 2 ^ 8 := byte.toNat_lt
  rw [littleValue, Nat.or_comm, ← Nat.shiftLeft_add_eq_or_of_lt small, Nat.shiftLeft_eq]
  omega

theorem littleValue_lt (bytes : List UInt8) : littleValue bytes < 256 ^ bytes.length := by
  induction bytes with
  | nil => simp [littleValue]
  | cons byte rest ih =>
      have small : byte.toNat < 256 := byte.toNat_lt
      rw [littleValue_cons, List.length_cons, Nat.pow_succ]
      omega

/-- Reading back what was written keeps the low `8 * width` bits. -/
theorem littleValue_littleBytes (width value : Nat) :
    littleValue (littleBytes width value) = value % 256 ^ width := by
  induction width generalizing value with
  | zero => simp [littleBytes, littleValue, Nat.mod_one]
  | succ width ih =>
      have low : (UInt8.ofNat (value &&& 0xff)).toNat = value % 256 := by
        rw [show (0xff : Nat) = 2 ^ 8 - 1 by rfl, Nat.and_two_pow_sub_one_eq_mod]
        simp
      rw [littleBytes, littleValue_cons, low, ih, Nat.shiftRight_eq_div_pow,
        show 256 ^ (width + 1) = 256 * 256 ^ width by rw [Nat.pow_succ, Nat.mul_comm],
        Nat.mod_mul]

/-- Writing what was read gives the same bytes. -/
theorem littleBytes_littleValue (bytes : List UInt8) :
    littleBytes bytes.length (littleValue bytes) = bytes := by
  induction bytes with
  | nil => rfl
  | cons byte rest ih =>
      have small : byte.toNat < 256 := byte.toNat_lt
      have low : UInt8.ofNat (littleValue (byte :: rest) &&& 0xff) = byte := by
        apply UInt8.toNat_inj.mp
        rw [show (0xff : Nat) = 2 ^ 8 - 1 by rfl, Nat.and_two_pow_sub_one_eq_mod,
          UInt8.toNat_ofNat', littleValue_cons]
        omega
      have high : littleValue (byte :: rest) >>> 8 = littleValue rest := by
        rw [Nat.shiftRight_eq_div_pow, littleValue_cons]
        omega
      rw [List.length_cons, littleBytes, low, high, ih]

theorem bigValue_bigBytes (width value : Nat) :
    bigValue (bigBytes width value) = value % 256 ^ width := by
  simp [bigValue, bigBytes, littleValue_littleBytes]

/-- A `width`-byte little endian field. -/
def readLittle (width : Nat) : Reader Nat := do
  let bytes ← readBytes width
  pure (littleValue bytes)

def readBig (width : Nat) : Reader Nat := do
  let bytes ← readBytes width
  pure (bigValue bytes)

/-- What a field too narrow for the value gives back. -/
theorem reads_little_mod (width value : Nat) :
    Reads (readLittle width) (littleBytes width value) (value % 256 ^ width) := by
  have bytes := Reads.bytes (littleBytes width value)
  rw [littleBytes_length] at bytes
  apply bytes.bind_pure
  rw [littleValue_littleBytes]
  exact Reads.pure _

theorem reads_little (width value : Nat) (fits : value < 256 ^ width) :
    Reads (readLittle width) (littleBytes width value) value := by
  have truncated := reads_little_mod width value
  rwa [Nat.mod_eq_of_lt fits] at truncated

theorem reads_big (width value : Nat) (fits : value < 256 ^ width) :
    Reads (readBig width) (bigBytes width value) value := by
  have bytes := Reads.bytes (bigBytes width value)
  rw [bigBytes_length] at bytes
  apply bytes.bind_pure
  rw [bigValue_bigBytes, Nat.mod_eq_of_lt fits]
  exact Reads.pure value

theorem readLittle_shrinks (width : Nat) : Shrinks (readLittle width) :=
  (readBytes_shrinks width).bind fun _ => Shrinks.pure _

theorem readBig_shrinks (width : Nat) : Shrinks (readBig width) :=
  (readBytes_shrinks width).bind fun _ => Shrinks.pure _

end Endian
