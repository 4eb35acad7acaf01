import Mathlib.Data.Nat.Digits.Defs

/-!
# Decimal text

A number as ASCII digits without leading zeros, and the positional value of
any row of digits.
-/

set_option autoImplicit false

namespace Decimal

def digitByte (digit : Nat) : UInt8 := 48 + UInt8.ofNat digit

def decimal (value : Nat) : List UInt8 :=
  if value = 0 then [48] else (Nat.digits 10 value).reverse.map digitByte

def evaluate (digits : List UInt8) : Nat :=
  digits.foldl (fun total digit => total * 10 + (digit - 48).toNat) 0

theorem digitByte_value {digit : Nat} (small : digit < 10) :
    (digitByte digit - 48).toNat = digit := by
  rw [digitByte, UInt8.add_comm, UInt8.add_sub_cancel, UInt8.toNat_ofNat']
  omega

theorem digitByte_range {digit : Nat} (small : digit < 10) :
    48 ≤ digitByte digit ∧ digitByte digit ≤ 57 := by
  have value : (digitByte digit).toNat = 48 + digit := by
    rw [digitByte, UInt8.toNat_add, UInt8.toNat_ofNat', show (48 : UInt8).toNat = 48 by rfl]
    omega
  rw [UInt8.le_iff_toNat_le, UInt8.le_iff_toNat_le, value]
  exact ⟨Nat.le_add_right 48 digit, Nat.add_le_add_left (Nat.le_of_lt_succ small) 48⟩

theorem evaluate_digits {digits : List Nat} (small : ∀ digit ∈ digits, digit < 10) :
    evaluate (digits.reverse.map digitByte) = Nat.ofDigits 10 digits := by
  rw [evaluate, List.foldl_map, List.foldl_reverse]
  induction digits with
  | nil => rfl
  | cons digit digits ih =>
      obtain ⟨first, others⟩ := List.forall_mem_cons.mp small
      rw [List.foldr_cons, ih others, digitByte_value first, Nat.ofDigits_cons]
      omega

theorem evaluate_decimal (value : Nat) : evaluate (decimal value) = value := by
  rw [decimal]
  split
  · rename_i zero
    rw [zero]
    rfl
  · rw [evaluate_digits fun digit member => Nat.digits_lt_base (by decide) member,
      Nat.ofDigits_digits]

theorem decimal_range {value : Nat} : ∀ byte ∈ decimal value, 48 ≤ byte ∧ byte ≤ 57 := by
  intro byte member
  rw [decimal] at member
  split at member
  · rw [List.mem_singleton.mp member]
    decide
  · obtain ⟨digit, digitMember, rfl⟩ := List.mem_map.mp member
    exact digitByte_range (Nat.digits_lt_base (by decide) (List.mem_reverse.mp digitMember))

theorem decimal_ne_nil (value : Nat) : decimal value ≠ [] := by
  rw [decimal]
  split
  · exact List.cons_ne_nil _ _
  · rename_i positive
    rw [ne_eq, List.map_eq_nil_iff, List.reverse_eq_nil_iff, Nat.digits_eq_nil_iff_eq_zero]
    exact positive

end Decimal
