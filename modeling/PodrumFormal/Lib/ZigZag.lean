import Mathlib.Data.Nat.Notation

/-!
# Zig-zag numbers

Signed numbers in the order 0, -1, 1, -2, 2, and so on, and the shifts that
compute a number's place and take it back.
-/

set_option autoImplicit false

namespace ZigZag

/-- The place of a number in the order. -/
def zigzag : Int → Nat
  | .ofNat value => 2 * value
  | .negSucc value => 2 * value + 1

variable {width : Nat} (value : BitVec width)

theorem shifted_back (clear : value.msb = false) : (value <<< 1) >>> 1 = value := by
  ext i bound
  by_cases inside : 1 + i < width
  · simp [inside]
  · have last : i = width - 1 := by omega
    subst last
    rw [BitVec.msb_eq_getLsbD_last, BitVec.getLsbD_eq_getElem bound] at clear
    simp [inside, clear]

theorem unzigzag_even (positive : value.msb = false) :
    ((value <<< 1) >>> 1) ^^^
      (-BitVec.ofNat width 1 * ((value <<< 1) &&& BitVec.ofNat width 1)) = value := by
  have low : (value <<< 1) &&& BitVec.ofNat width 1 = BitVec.ofNat width 0 := by
    ext i bound
    simp
    omega
  rw [low, shifted_back value positive]
  simp

theorem unzigzag_odd (negative : value.msb = true) :
    (((~~~value <<< 1) ||| BitVec.ofNat width 1) >>> 1) ^^^
      (-BitVec.ofNat width 1 *
        (((~~~value <<< 1) ||| BitVec.ofNat width 1) &&& BitVec.ofNat width 1)) = value := by
  have low : ((~~~value <<< 1) ||| BitVec.ofNat width 1) &&& BitVec.ofNat width 1 =
      BitVec.ofNat width 1 := by
    ext i bound
    simp
    omega
  have back : ((~~~value <<< 1) ||| BitVec.ofNat width 1) >>> 1 = ~~~value := by
    have clear : (~~~value).msb = false := by
      rw [BitVec.msb_not, negative]
      simp
    have gone : BitVec.ofNat width 1 >>> 1 = BitVec.ofNat width 0 := by
      ext i bound
      simp
    rw [BitVec.ushiftRight_or_distrib, shifted_back _ clear, gone]
    simp
  rw [low, back, BitVec.mul_one, BitVec.neg_one_eq_allOnes, BitVec.xor_allOnes, BitVec.not_not]

theorem msb_eq_false_iff : value.msb = false ↔ 0 ≤ value.toInt := by
  rw [BitVec.msb_eq_toInt, decide_eq_false_iff_not, Int.not_lt]

/-! ## The places -/

theorem zigzag_even (positive : value.msb = false) :
    (value <<< 1).toNat = zigzag value.toInt := by
  have small := BitVec.msb_eq_false_iff_two_mul_lt.mp positive
  have place : zigzag value.toInt = 2 * value.toNat := by
    rw [BitVec.toInt_eq_toNat_of_msb positive]
    rfl
  rw [place, BitVec.toNat_shiftLeft, Nat.shiftLeft_eq, Nat.pow_one, Nat.mul_comm,
    Nat.mod_eq_of_lt small]

theorem zigzag_odd (negative : value.msb = true) :
    ((~~~value <<< 1) ||| BitVec.ofNat width 1).toNat = zigzag value.toInt := by
  have large := BitVec.msb_eq_true_iff_two_mul_ge.mp negative
  have bound := value.isLt
  have complement : (~~~value).toNat = 2 ^ width - 1 - value.toNat := BitVec.toNat_not
  have place : zigzag value.toInt = 2 * (~~~value).toNat + 1 := by
    have negSucc : value.toInt = Int.negSucc (~~~value).toNat := by
      rw [BitVec.toInt_eq_msb_cond, if_pos negative, complement, Int.negSucc_eq]
      omega
    rw [negSucc]
    rfl
  have shifted : (~~~value <<< 1).toNat = 2 ^ 1 * (~~~value).toNat := by
    rw [BitVec.toNat_shiftLeft, Nat.shiftLeft_eq, Nat.mul_comm, Nat.mod_eq_of_lt (by omega)]
  have one : (BitVec.ofNat width 1).toNat = 1 := by
    rw [BitVec.toNat_ofNat, Nat.mod_eq_of_lt (by omega)]
  rw [place, BitVec.toNat_or, shifted, one, ← Nat.two_pow_add_eq_or_of_lt (by decide)]

/-! ## The encoding -/

/-- The place, as it is computed from the bits. -/
def encoded : BitVec width :=
  if 0 ≤ value.toInt then value <<< 1
  else ((-BitVec.ofNat width 1 - value) <<< 1) ||| BitVec.ofNat width 1

theorem encoded_cases :
    (value.msb = false ∧ encoded value = value <<< 1) ∨
      (value.msb = true ∧ encoded value = (~~~value <<< 1) ||| BitVec.ofNat width 1) := by
  unfold encoded
  cases sign : value.msb with
  | false => exact .inl ⟨rfl, if_pos ((msb_eq_false_iff value).mp sign)⟩
  | true =>
      have negative : ¬0 ≤ value.toInt := fun positive => by
        rw [(msb_eq_false_iff value).mpr positive] at sign
        cases sign
      rw [if_neg negative, BitVec.neg_one_eq_allOnes, BitVec.allOnes_sub_eq_not]
      exact .inr ⟨rfl, rfl⟩

theorem toNat_encoded : (encoded value).toNat = zigzag value.toInt := by
  rcases encoded_cases value with ⟨positive, same⟩ | ⟨negative, same⟩
  · rw [same]
    exact zigzag_even value positive
  · rw [same]
    exact zigzag_odd value negative

theorem decoded_encoded :
    (encoded value >>> 1) ^^^
      (-BitVec.ofNat width 1 * (encoded value &&& BitVec.ofNat width 1)) = value := by
  rcases encoded_cases value with ⟨positive, same⟩ | ⟨negative, same⟩
  · rw [same]
    exact unzigzag_even value positive
  · rw [same]
    exact unzigzag_odd value negative

end ZigZag
