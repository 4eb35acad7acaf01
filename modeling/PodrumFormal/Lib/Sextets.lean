import PodrumFormal.Lib.BitFields

/-!
# Sextets

Three bytes as four numbers of six bits.  The numbers are shifts of neighbouring
bytes or of one word of 24 bits, and so are the bytes that come back.
-/

set_option autoImplicit false

namespace Sextets

open BitFields

/-! ## Of neighbouring bytes -/

section Bytes

theorem mask_toNat (width : Nat) {byte mask : UInt8} (bits : mask.toNat = 2 ^ width - 1) :
    (byte &&& mask).toNat = byte.toNat % 2 ^ width := by
  rw [UInt8.toNat_and, bits, Nat.and_two_pow_sub_one_eq_mod]

theorem shifted_toNat (shift : Nat) {byte amount : UInt8} (count : amount.toNat = shift)
    (small : shift < 8) : (byte >>> amount).toNat = byte.toNat / 2 ^ shift := by
  rw [UInt8.toNat_shiftRight, count, Nat.mod_eq_of_lt small, Nat.shiftRight_eq_div_pow]

variable (first second third : UInt8)

theorem sextet1_toNat : (first >>> 2).toNat = first.toNat / 4 :=
  shifted_toNat 2 rfl (by decide)

theorem sextet2_toNat : (((first &&& 0x03) <<< 4) ||| (second >>> 4)).toNat =
    first.toNat % 4 * 16 + second.toNat / 16 := by
  have high : (first &&& 0x03).toNat = first.toNat % 4 := mask_toNat 2 rfl
  have low : (second >>> 4).toNat = second.toNat / 16 := shifted_toNat 4 rfl (by decide)
  have bound := second.toNat_lt
  rw [joinedByte_toNat 4 _ _ rfl (by decide) (by rw [low]; omega), high, low]
  omega

theorem sextet3_toNat : (((second &&& 0x0f) <<< 2) ||| (third >>> 6)).toNat =
    second.toNat % 16 * 4 + third.toNat / 64 := by
  have high : (second &&& 0x0f).toNat = second.toNat % 16 := mask_toNat 4 rfl
  have low : (third >>> 6).toNat = third.toNat / 64 := shifted_toNat 6 rfl (by decide)
  have bound := third.toNat_lt
  rw [joinedByte_toNat 2 _ _ rfl (by decide) (by rw [low]; omega), high, low]
  omega

/-- The last numbers of a group that lacks bytes are those of a group with zeros. -/
theorem sextet2_alone :
    ((first &&& 0x03) <<< 4) ||| ((0 : UInt8) >>> 4) = (first &&& 0x03) <<< 4 := UInt8.or_zero

theorem sextet3_alone :
    ((second &&& 0x0f) <<< 2) ||| ((0 : UInt8) >>> 6) = (second &&& 0x0f) <<< 2 := UInt8.or_zero

theorem sextet4_toNat : (third &&& 0x3f).toNat = third.toNat % 64 := mask_toNat 6 rfl

variable {fourth : UInt8}

theorem octet1_toNat (small : second.toNat < 64) : ((first <<< 2) ||| (second >>> 4)).toNat =
    first.toNat * 4 % 256 + second.toNat / 16 := by
  have low : (second >>> 4).toNat = second.toNat / 16 := shifted_toNat 4 rfl (by decide)
  exact (joinedByte_toNat 2 _ _ rfl (by decide) (by rw [low]; omega)).trans (by rw [low]; rfl)

theorem octet2_toNat (small : third.toNat < 64) : ((second <<< 4) ||| (third >>> 2)).toNat =
    second.toNat * 16 % 256 + third.toNat / 4 := by
  have low : (third >>> 2).toNat = third.toNat / 4 := shifted_toNat 2 rfl (by decide)
  exact (joinedByte_toNat 4 _ _ rfl (by decide) (by rw [low]; omega)).trans (by rw [low]; rfl)

theorem octet3_toNat (small : fourth.toNat < 64) : ((third <<< 6) ||| fourth).toNat =
    third.toNat * 64 % 256 + fourth.toNat :=
  joinedByte_toNat 6 _ _ rfl (by decide) small

end Bytes

/-! ## Of a word -/

section Word

variable {first second third fourth : UInt32}

theorem shiftedWord_toNat (shift : Nat) {word amount : UInt32} (count : amount.toNat = shift)
    (small : shift < 32) : (word >>> amount).toNat = word.toNat / 2 ^ shift := by
  rw [UInt32.toNat_shiftRight, count, Nat.mod_eq_of_lt small, Nat.shiftRight_eq_div_pow]

/-- The lowest eight bits of a word behind a shift. -/
theorem octetOfWord_toNat (shift : Nat) {word amount : UInt32} (count : amount.toNat = shift)
    (small : shift < 32) : (word >>> amount).toUInt8.toNat = word.toNat / 2 ^ shift % 256 := by
  rw [UInt32.toNat_toUInt8, shiftedWord_toNat shift count small]

/-- Its lowest six. -/
theorem sextetOfWord_toNat (shift : Nat) {word amount : UInt32} (count : amount.toNat = shift)
    (small : shift < 32) :
    ((word >>> amount) &&& 0x3f).toUInt8.toNat = word.toNat / 2 ^ shift % 64 := by
  have mask : (0x3f : UInt32).toNat = 2 ^ 6 - 1 := rfl
  rw [UInt32.toNat_toUInt8, UInt32.toNat_and, mask, Nat.and_two_pow_sub_one_eq_mod,
    shiftedWord_toNat shift count small]
  omega

theorem octetWord_toNat (small1 : first.toNat < 256) (small2 : second.toNat < 256)
    (small3 : third.toNat < 256) : ((first <<< 16) ||| (second <<< 8) ||| third).toNat =
      first.toNat * 65536 + second.toNat * 256 + third.toNat := by
  have low : ((second <<< 8) ||| third).toNat = second.toNat * 256 + third.toNat :=
    joinedWord_toNat 8 second third rfl (by decide) (by omega) small3
  rw [UInt32.or_assoc, joinedWord_toNat 16 _ _ rfl (by decide) (by omega)
    (by rw [low]; omega), low]
  omega

theorem sextetWord_toNat (small1 : first.toNat < 64) (small2 : second.toNat < 64)
    (small3 : third.toNat < 64) (small4 : fourth.toNat < 64) :
    ((first <<< 18) ||| (second <<< 12) ||| (third <<< 6) ||| fourth).toNat =
      first.toNat * 262144 + second.toNat * 4096 + third.toNat * 64 + fourth.toNat := by
  have low : ((third <<< 6) ||| fourth).toNat = third.toNat * 64 + fourth.toNat :=
    joinedWord_toNat 6 third fourth rfl (by decide) (by omega) small4
  have middle : ((second <<< 12) ||| ((third <<< 6) ||| fourth)).toNat =
      second.toNat * 4096 + (third.toNat * 64 + fourth.toNat) :=
    (joinedWord_toNat 12 _ _ rfl (by decide) (by omega) (by rw [low]; omega)).trans
      (by rw [low]; rfl)
  rw [UInt32.or_assoc, UInt32.or_assoc, joinedWord_toNat 18 _ _ rfl (by decide)
    (by omega) (by rw [middle]; omega), middle]
  omega

end Word

end Sextets
