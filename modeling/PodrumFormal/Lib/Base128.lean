import Mathlib.Algebra.Order.Group.Nat
import Mathlib.Order.Bounds.Defs
import PodrumFormal.Lib.ByteLayout

/-!
# Numbers in groups of seven bits

`putGroups rounds value` writes at most `rounds` groups, least significant
first, with the high bit set in every byte that another one follows.
`readGroups` puts at most as many together again; the groups are all read and
there is no value when none of them was the last.
-/

set_option autoImplicit false

namespace Base128

open ByteReader ByteLayout

def putGroups : Nat → Nat → List UInt8
  | 0, _ => []
  | rounds + 1, value =>
      let toWrite := UInt8.ofNat (value &&& 0x7f)
      if value >>> 7 ≠ 0 then (toWrite ||| 0x80) :: putGroups rounds (value >>> 7)
      else [toWrite]

def readGroups : Nat → Reader (Option Nat)
  | 0 => pure none
  | rounds + 1 => do
      let toRead ← readByte
      if toRead &&& 0x80 = 0 then pure (some (toRead &&& 0x7f).toNat)
      else do
        let high ← readGroups rounds
        pure (high.map fun high => (toRead &&& 0x7f).toNat ||| (high <<< 7))

/-! ## One group -/

theorem group_toNat (value : Nat) : (UInt8.ofNat (value &&& 0x7f)).toNat = value % 128 := by
  rw [show (0x7f : Nat) = 2 ^ 7 - 1 by rfl, Nat.and_two_pow_sub_one_eq_mod, UInt8.toNat_ofNat']
  omega

theorem payload_toNat (byte : UInt8) : (byte &&& 0x7f).toNat = byte.toNat % 128 := by
  rw [UInt8.toNat_and, show (0x7f : UInt8).toNat = 2 ^ 7 - 1 by rfl,
    Nat.and_two_pow_sub_one_eq_mod]

theorem last_iff (byte : UInt8) : byte &&& 0x80 = 0 ↔ byte.toNat < 128 := by
  have each : ∀ value : Fin 256, UInt8.ofNat value &&& 0x80 = 0 ↔ value.val < 128 := by
    decide +kernel
  simpa using each ⟨byte.toNat, byte.toNat_lt⟩

theorem marked_toNat {byte : UInt8} (small : byte.toNat < 128) :
    (byte ||| 0x80).toNat = byte.toNat + 128 := by
  rw [UInt8.toNat_or, show (0x80 : UInt8).toNat = 2 ^ 7 * 1 by rfl, Nat.or_comm,
    ← Nat.two_pow_add_eq_or_of_lt small]
  omega

theorem joined_value {low : Nat} (small : low < 128) (high : Nat) :
    low ||| (high <<< 7) = low + 128 * high := by
  rw [Nat.or_comm, ← Nat.shiftLeft_add_eq_or_of_lt (i := 7) small, Nat.shiftLeft_eq]
  omega

theorem putGroups_succ (rounds value : Nat) :
    putGroups (rounds + 1) value =
      if value / 128 ≠ 0 then
        (UInt8.ofNat (value &&& 0x7f) ||| 0x80) :: putGroups rounds (value / 128)
      else [UInt8.ofNat (value &&& 0x7f)] := by
  simp only [putGroups, Nat.shiftRight_eq_div_pow, show 2 ^ 7 = 128 by rfl]

/-! ## What was written is read -/

theorem reads_groups (rounds value : Nat) (fits : value < 128 ^ rounds) (positive : 0 < rounds) :
    Reads (readGroups rounds) (putGroups rounds value) (some value) := by
  induction rounds generalizing value with
  | zero => exact absurd positive (Nat.lt_irrefl 0)
  | succ rounds ih =>
      have group := group_toNat value
      rw [putGroups_succ, readGroups]
      by_cases more : value / 128 ≠ 0
      · rw [if_pos more]
        have low := Nat.mod_lt value (show 128 > 0 by decide)
        have small : (UInt8.ofNat (value &&& 0x7f)).toNat < 128 := by omega
        have byte := marked_toNat small
        have below : value / 128 < 128 ^ rounds := by
          rw [Nat.pow_succ] at fits
          omega
        have another : 0 < rounds := by
          rcases Nat.eq_zero_or_pos rounds with rfl | holds
          · rw [Nat.pow_zero] at below
            omega
          · exact holds
        refine (Reads.byte _).bind (show Reads _ (putGroups rounds (value / 128)) _ from ?_)
        have notLast : ¬(UInt8.ofNat (value &&& 0x7f) ||| 0x80) &&& 0x80 = 0 := by
          rw [last_iff]
          omega
        rw [if_neg notLast]
        refine (ih (value / 128) below another).bind_pure ?_
        have payload : ((UInt8.ofNat (value &&& 0x7f) ||| 0x80) &&& 0x7f).toNat = value % 128 := by
          rw [payload_toNat]
          omega
        rw [Option.map_some, payload, joined_value low, Nat.mod_add_div]
        exact Reads.pure _
      · rw [if_neg more]
        have small : value < 128 := by omega
        refine (Reads.byte _).bind_pure ?_
        have last : UInt8.ofNat (value &&& 0x7f) &&& 0x80 = 0 := by
          rw [last_iff]
          omega
        rw [if_pos last, payload_toNat, group, Nat.mod_mod, Nat.mod_eq_of_lt small]
        exact Reads.pure _

/-! ## All that is read -/

/-- The groups that a read takes: up to the first without the high bit, or as
many as it may take. -/
inductive Groups : Nat → Layout (Option Nat)
  | spent : Groups 0 none []
  | last {rounds : Nat} {byte : UInt8} (low : byte.toNat < 128) :
      Groups (rounds + 1) (some byte.toNat) [byte]
  | more {rounds : Nat} {byte : UInt8} {high : Option Nat} {block : List UInt8}
      (marked : 128 ≤ byte.toNat) (rest : Groups rounds high block) :
      Groups (rounds + 1) (high.map fun high => byte.toNat % 128 + 128 * high) (byte :: block)

theorem describes_groups (rounds : Nat) : Describes (Groups rounds) (readGroups rounds) := by
  refine ⟨fun value block holds => ?_, fun bytes value rest success => ?_⟩
  · induction holds with
    | spent => exact Reads.pure none
    | @last rounds byte low =>
        refine (Reads.byte byte).bind_pure ?_
        rw [if_pos ((last_iff byte).mpr low), payload_toNat, Nat.mod_eq_of_lt low]
        exact Reads.pure _
    | @more rounds byte high block marked rest ih =>
        refine (Reads.byte byte).bind (show Reads _ block _ from ?_)
        rw [if_neg fun low => absurd ((last_iff byte).mp low) (Nat.not_lt.mpr marked)]
        refine ih.bind_pure ?_
        simp only [payload_toNat, joined_value (Nat.mod_lt _ (by decide : 128 > 0))]
        exact Reads.pure _
  · induction rounds generalizing bytes value with
    | zero =>
        cases success
        exact ⟨[], .spent, rfl⟩
    | succ rounds ih =>
        obtain ⟨⟨byte, tail⟩, first, later⟩ := Option.bind_eq_some_iff.mp success
        obtain ⟨_, rfl, rfl⟩ := Describes.readByte.split bytes byte tail first
        dsimp only at later
        split at later
        · rename_i low
          cases later
          have small := (last_iff byte).mp low
          rw [payload_toNat, Nat.mod_eq_of_lt small]
          exact ⟨[byte], .last small, rfl⟩
        · rename_i marked
          obtain ⟨⟨high, final⟩, others, later⟩ := Option.bind_eq_some_iff.mp later
          cases later
          obtain ⟨block, groups, rfl⟩ := ih tail high others
          have large := Nat.not_lt.mp fun low => marked ((last_iff byte).mpr low)
          refine ⟨byte :: block, ?_, rfl⟩
          simp only [payload_toNat, joined_value (Nat.mod_lt _ (by decide : 128 > 0))]
          exact .more large groups

/-! ## Lengths -/

theorem putGroups_ne_nil {rounds : Nat} (positive : 0 < rounds) (value : Nat) :
    putGroups rounds value ≠ [] := by
  cases rounds with
  | zero => exact absurd positive (Nat.lt_irrefl 0)
  | succ rounds =>
      rw [putGroups_succ]
      split <;> simp

/-- No other bytes for a number are fewer than those written for it. -/
theorem putGroups_length_le (rounds : Nat) {count value : Nat} (fits : value < 128 ^ count)
    (positive : 0 < count) : (putGroups rounds value).length ≤ count := by
  induction rounds generalizing count value with
  | zero => exact Nat.zero_le count
  | succ rounds ih =>
      rw [putGroups_succ]
      split
      · rename_i more
        obtain ⟨less, rfl⟩ := Nat.exists_eq_succ_of_ne_zero (Nat.ne_of_gt positive)
        have below : value / 128 < 128 ^ less := by
          rw [Nat.pow_succ] at fits
          omega
        have another : 0 < less := by
          rcases Nat.eq_zero_or_pos less with rfl | holds
          · rw [Nat.pow_zero] at below
            omega
          · exact holds
        have shorter := ih below another
        rw [List.length_cons]
        omega
      · exact positive

/-- The groups that are written hold the number. -/
theorem lt_putGroups_length {rounds value : Nat} (fits : value < 128 ^ rounds) :
    value < 128 ^ (putGroups rounds value).length := by
  induction rounds generalizing value with
  | zero => exact fits
  | succ rounds ih =>
      rw [putGroups_succ]
      by_cases more : value / 128 ≠ 0
      · rw [if_pos more, List.length_cons, Nat.pow_succ]
        have below : value / 128 < 128 ^ rounds := by
          rw [Nat.pow_succ] at fits
          omega
        have held := ih below
        omega
      · rw [if_neg more, List.length_singleton]
        omega

/-- A number takes at least one group. -/
def Holds (groups value : Nat) : Prop := 0 < groups ∧ value < 128 ^ groups

/-- No fewer groups hold a number than those written for it. -/
theorem isLeast_putGroups_length {rounds value : Nat} (fits : value < 128 ^ rounds)
    (positive : 0 < rounds) :
    IsLeast {groups | Holds groups value} (putGroups rounds value).length := by
  constructor
  · exact ⟨List.length_pos_of_ne_nil (putGroups_ne_nil positive value), lt_putGroups_length fits⟩
  · rintro groups ⟨some', held⟩
    exact putGroups_length_le rounds held some'

/-- How many bytes a read takes, and what they can hold. -/
theorem readGroups_taken {rounds : Nat} {bytes rest : List UInt8} {result : Option Nat}
    (positive : 0 < rounds) (success : readGroups rounds bytes = some (result, rest)) :
    ∃ taken, bytes.length = taken + rest.length ∧ 0 < taken ∧
      ∀ value, result = some value → value < 128 ^ taken := by
  induction rounds generalizing bytes rest result with
  | zero => exact absurd positive (Nat.lt_irrefl 0)
  | succ rounds ih =>
      rw [readGroups, bind_apply] at success
      cases bytes with
      | nil => simp [readByte] at success
      | cons toRead tail =>
          simp only [readByte, Option.bind_some] at success
          split at success
          · cases success
            refine ⟨1, by rw [List.length_cons, Nat.add_comm], Nat.one_pos, ?_⟩
            intro value same
            obtain rfl := Option.some.inj same
            rw [payload_toNat]
            omega
          · rw [bind_apply] at success
            obtain ⟨⟨high, middle⟩, others, success⟩ := Option.bind_eq_some_iff.mp success
            cases success
            rcases Nat.eq_zero_or_pos rounds with rfl | another
            · cases others
              exact ⟨1, by rw [List.length_cons, Nat.add_comm], Nat.one_pos, by simp⟩
            · obtain ⟨taken, lengths, some', bound⟩ := ih another others
              refine ⟨taken + 1, ?_, Nat.succ_pos taken, ?_⟩
              · dsimp only at lengths ⊢
                rw [List.length_cons]
                omega
              · intro value same
                obtain ⟨high, rfl, rfl⟩ := Option.map_eq_some_iff.mp same
                have below := bound high rfl
                rw [joined_value (by rw [payload_toNat]; omega), payload_toNat, Nat.pow_succ]
                omega

theorem readGroups_progress {rounds : Nat} (positive : 0 < rounds) :
    Progress (readGroups rounds) := by
  intro bytes result rest success
  obtain ⟨taken, lengths, some', -⟩ := readGroups_taken positive success
  omega

end Base128
