import PodrumFormal.Lib.Sextets
import PodrumFormal.Misc.Base64

/-!
# Base64 encoders

The block-wise encoders of keys and signatures with their precomputed size, and
the group-wise encoder of the parts of a token.  All of them write the same
text, but for the alphabet and the padding.
-/

set_option autoImplicit false

namespace PodrumMisc.Base64

open CString Sextets

/-! ## Block by block -/

/-- An entry of a table.  Behind its characters stands the terminator. -/
def tableChar (table : List UInt8) (index : UInt8) : UInt8 := table.getD index.toNat 0

/-- `pad` is what is written for a byte that the last block lacks. -/
def charEncodeLoop (table pad : List UInt8) : List UInt8 → List UInt8
  | b1 :: b2 :: b3 :: src =>
      tableChar table (b1 >>> 2) ::
      tableChar table (((b1 &&& 0x03) <<< 4) ||| (b2 >>> 4)) ::
      tableChar table (((b2 &&& 0x0f) <<< 2) ||| (b3 >>> 6)) ::
      tableChar table (b3 &&& 0x3f) :: charEncodeLoop table pad src
  | [b1, b2] =>
      [tableChar table (b1 >>> 2), tableChar table (((b1 &&& 0x03) <<< 4) ||| (b2 >>> 4)),
        tableChar table ((b2 &&& 0x0f) <<< 2)] ++ pad
  | [b1] => [tableChar table (b1 >>> 2), tableChar table ((b1 &&& 0x03) <<< 4)] ++ pad ++ pad
  | [] => []

/-- The size of the output, computed in a `size_t`. -/
def outputSize (len : Nat) : Nat :=
  let olen := len * 4 % 2 ^ 64 / 3 + 4
  olen + olen / 72 + 1

/-- `none` is `NULL`.  The text is followed by the terminator. -/
def charEncode (table pad src : List UInt8) : Except Fault (Option (List UInt8)) :=
  if outputSize src.length < src.length then .ok none
  else
    let text := charEncodeLoop table pad src
    if text.length + 1 ≤ outputSize src.length then .ok (some text)
    else .error .outOfBounds

def charBase64Encode (src : List UInt8) : Except Fault (Option (List UInt8)) :=
  charEncode base64Table [padding] src

def charBase64UrlEncode (src : List UInt8) : Except Fault (Option (List UInt8)) :=
  charEncode base64UrlTable [] src

/-! ## Group by group -/

/-- One round of the loop of `base64_encode`; the padding is carried on. -/
def base64EncodeRound (b1 : UInt8) (b2 b3 : Option UInt8) (pad : Nat) : List UInt8 × Nat :=
  let pad := pad + [b2, b3].countP Option.isNone
  let bitArray : UInt32 :=
    (b1.toUInt32 <<< 16) ||| ((b2.getD 0).toUInt32 <<< 8) ||| (b3.getD 0).toUInt32
  let char (shift : UInt32) : UInt8 :=
    tableChar base64Table ((bitArray >>> shift) &&& 0x3f).toUInt8
  ([char 18, char 12, if pad < 2 then char 6 else padding, if pad < 1 then char 0 else padding],
    pad)

def base64EncodeLoop : List UInt8 → Nat → List UInt8
  | b1 :: b2 :: b3 :: buffer, pad =>
      let (out, pad) := base64EncodeRound b1 (some b2) (some b3) pad
      out ++ base64EncodeLoop buffer pad
  | [b1, b2], pad => (base64EncodeRound b1 (some b2) none pad).1
  | [b1], pad => (base64EncodeRound b1 none none pad).1
  | [], _ => []

def base64Encode (stream : List UInt8) : List UInt8 := base64EncodeLoop stream 0 ++ [0]

def urlChar (char : UInt8) : UInt8 :=
  if char = '+'.toUInt8 then '-'.toUInt8
  else if char = '/'.toUInt8 then '_'.toUInt8
  else char

/-- The characters before the terminator are rewritten in place. -/
def base64UrlEncode (stream : List UInt8) : List UInt8 :=
  (cString (base64Encode stream)).map urlChar ++ [0]

/-! ## The size -/

theorem charEncodeLoop_length (table pad : List UInt8) : ∀ src,
    (charEncodeLoop table pad src).length =
      (src.length * 4 + 2) / 3 + (3 - src.length % 3) % 3 * pad.length
  | b1 :: b2 :: b3 :: src => by
      have rest := charEncodeLoop_length table pad src
      have group : (src.length + 1 + 1 + 1) % 3 = src.length % 3 := Nat.add_mod_right _ 3
      rw [charEncodeLoop]
      simp only [List.length_cons]
      rw [rest, group]
      omega
  | [b1, b2] => by
      simp [charEncodeLoop]
      omega
  | [b1] => by
      simp [charEncodeLoop]
      omega
  | [] => by simp [charEncodeLoop]

/-- Up to `2 ^ 62` bytes the product does not wrap, and from there on the
wrapped size is less than the input's. -/
theorem outputSize_small {len : Nat} : outputSize len < len ↔ 2 ^ 62 ≤ len := by
  simp only [outputSize]
  omega

theorem charEncode_eq (table pad src : List UInt8) (single : pad.length ≤ 1) :
    charEncode table pad src =
      .ok (if src.length < 2 ^ 62 then some (charEncodeLoop table pad src) else none) := by
  have padded : (3 - src.length % 3) % 3 * pad.length ≤ (3 - src.length % 3) % 3 :=
    (Nat.mul_le_mul_left _ single).trans (Nat.mul_one _).le
  rw [charEncode]
  by_cases small : src.length < 2 ^ 62
  · have room : (charEncodeLoop table pad src).length + 1 ≤ outputSize src.length := by
      rw [charEncodeLoop_length, outputSize]
      omega
    rw [if_neg (mt outputSize_small.mp (Nat.not_le.mpr small)), if_pos small, if_pos room]
  · rw [if_pos (outputSize_small.mpr (Nat.not_lt.mp small)), if_neg small]

end PodrumMisc.Base64
