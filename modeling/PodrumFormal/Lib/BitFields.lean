import Mathlib.Algebra.Group.Nat.Defs

/-!
# Fields of bits in a word

Values of one width side by side, the first in the lowest bits.  A word that is
assembled by shifts and ORs is that number, and a shift and a remainder take a
field out of it.
-/

set_option autoImplicit false

namespace BitFields

/-! ## Two numbers side by side -/

theorem joined_mod (high : Nat) {low shift width : Nat} (inside : shift ≤ width)
    (below : low < 2 ^ shift) :
    (high <<< shift % 2 ^ width) ||| low = high * 2 ^ shift % 2 ^ width + low := by
  have split : 2 ^ width = 2 ^ (width - shift) * 2 ^ shift := by
    rw [← Nat.pow_add, Nat.sub_add_cancel inside]
  rw [Nat.shiftLeft_eq, split, Nat.mul_mod_mul_right, ← Nat.shiftLeft_eq,
    Nat.shiftLeft_add_eq_or_of_lt below]

/-- In a byte the upper bits may be lost. -/
theorem joinedByte_toNat (shift : Nat) (high low : UInt8) {amount : UInt8}
    (count : amount.toNat = shift) (small : shift < 8) (below : low.toNat < 2 ^ shift) :
    ((high <<< amount) ||| low).toNat = high.toNat * 2 ^ shift % 2 ^ 8 + low.toNat := by
  rw [UInt8.toNat_or, UInt8.toNat_shiftLeft, count, Nat.mod_eq_of_lt small,
    joined_mod _ (Nat.le_of_lt small) below]

/-- In a word that has room for both they are all kept. -/
theorem joinedWord_toNat (shift : Nat) (high low : UInt32) {amount : UInt32}
    (count : amount.toNat = shift) (small : shift < 32) (fits : high.toNat * 2 ^ shift < 2 ^ 32)
    (below : low.toNat < 2 ^ shift) :
    ((high <<< amount) ||| low).toNat = high.toNat * 2 ^ shift + low.toNat := by
  rw [UInt32.toNat_or, UInt32.toNat_shiftLeft, count, Nat.mod_eq_of_lt small,
    joined_mod _ (Nat.le_of_lt small) below, Nat.mod_eq_of_lt fits]

/-! ## Many fields -/

def packed (width : Nat) : List Nat → Nat
  | [] => 0
  | value :: rest => value + 2 ^ width * packed width rest

/-- The value fits in a field. -/
def Fits (width : Nat) (values : List Nat) : Prop := ∀ value ∈ values, value < 2 ^ width

section

variable {width : Nat}

theorem Fits.tail {value : Nat} {rest : List Nat} (fits : Fits width (value :: rest)) :
    Fits width rest := fun other member => fits other (List.mem_cons_of_mem _ member)

theorem packed_append (front back : List Nat) :
    packed width (front ++ back) =
      packed width front + 2 ^ (width * front.length) * packed width back := by
  induction front with
  | nil => simp [packed]
  | cons value rest ih =>
    rw [List.cons_append, packed, packed, ih, List.length_cons, Nat.mul_succ, Nat.pow_add,
      Nat.mul_add, Nat.add_assoc, ← Nat.mul_assoc, Nat.mul_comm (2 ^ width) (2 ^ _)]

theorem packed_lt {values : List Nat} (fits : Fits width values) :
    packed width values < 2 ^ (width * values.length) := by
  induction values with
  | nil => simp [packed]
  | cons value rest ih =>
    have below := ih fits.tail
    have head := fits value List.mem_cons_self
    have scaled : 2 ^ width * (packed width rest + 1) ≤ 2 ^ width * 2 ^ (width * rest.length) :=
      Nat.mul_le_mul_left _ below
    rw [packed, List.length_cons, Nat.mul_succ, Nat.pow_add, Nat.mul_comm (2 ^ (_ * _))]
    rw [Nat.mul_add, Nat.mul_one] at scaled
    omega

/-- A value shifted above the fields that are there joins them by an OR. -/
theorem packed_snoc {values : List Nat} (fits : Fits width values) (value : Nat) :
    packed width values ||| value <<< (width * values.length) =
      packed width (values ++ [value]) := by
  have below := packed_lt fits
  rw [Nat.or_comm, ← Nat.shiftLeft_add_eq_or_of_lt below, packed_append, Nat.shiftLeft_eq,
    Nat.add_comm, Nat.mul_comm value]
  simp [packed]

theorem field_packed {values : List Nat} (fits : Fits width values) {position : Nat}
    (inside : position < values.length) :
    packed width values >>> (width * position) % 2 ^ width = values[position] := by
  induction values generalizing position with
  | nil => cases inside
  | cons value rest ih =>
    have head := fits value List.mem_cons_self
    have positive : 0 < 2 ^ width := Nat.two_pow_pos width
    cases position with
    | zero =>
      rw [Nat.mul_zero, Nat.shiftRight_zero, packed, Nat.add_mul_mod_self_left,
        Nat.mod_eq_of_lt head, List.getElem_cons_zero]
    | succ position =>
      have further : position < rest.length := Nat.lt_of_succ_lt_succ inside
      have dropped : (value + 2 ^ width * packed width rest) >>> width = packed width rest := by
        rw [Nat.shiftRight_eq_div_pow, Nat.add_mul_div_left _ _ positive,
          Nat.div_eq_of_lt head, Nat.zero_add]
      rw [Nat.mul_succ, Nat.add_comm, Nat.shiftRight_add, packed, dropped, ih fits.tail further,
        List.getElem_cons_succ]

end

end BitFields
