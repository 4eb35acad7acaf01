import PodrumFormal.Misc.Base64RoundTrip

/-!
# Signatures

The decoder of signatures sizes its output by the characters it knows and then
reads all of them, and its encoder writes no padding.
-/

set_option autoImplicit false

namespace PodrumMisc.Base64

open CString Sextets

/-! ## Any token -/

/-- The characters a signature is made of. -/
def signatureChar (char : UInt8) : Bool := char = padding ∨ char ∈ base64UrlTable

theorem dtable_known (char : UInt8) :
    dtable base64UrlTable char ≠ 0x80 ↔ signatureChar char = true := by
  rw [signatureChar, decide_eq_true_iff, dtable]
  by_cases padded : char = padding
  · rw [if_pos padded]
    exact iff_of_true (by decide) (.inl padded)
  · rw [if_neg padded, or_iff_right padded, ← List.isSome_idxOf?]
    cases found : base64UrlTable.idxOf? char with
    | none => exact iff_of_false (not_not_intro rfl) Bool.false_ne_true
    | some index =>
        obtain ⟨inside, -⟩ := List.idxOf?_eq_some_iff.mp found
        have small : index < 64 := inside
        refine iff_of_true (fun foreign => ?_) rfl
        have value := congrArg UInt8.toNat foreign
        rw [UInt8.toNat_ofNat', Nat.mod_eq_of_lt (small.trans (by decide))] at value
        exact absurd (value ▸ small) (by decide)

theorem validCount_signature (src : List UInt8) :
    validCount base64UrlTable src = src.countP signatureChar :=
  List.countP_congr fun char _ => by
    rw [decide_eq_true_iff]
    exact dtable_known char

theorem charBase64UrlDecodeLoop_length :
    ∀ src, (charBase64UrlDecodeLoop src).length = src.length / 4 * 3
  | first :: second :: third :: fourth :: src => by
      rw [charBase64UrlDecodeLoop, List.length_append, charBase64UrlDecodeLoop_length src]
      simp only [block, List.length_cons, List.length_nil]
      omega
  | [_, _, _] => by rw [charBase64UrlDecodeLoop] <;> simp
  | [_, _] => by rw [charBase64UrlDecodeLoop] <;> simp
  | [_] => by rw [charBase64UrlDecodeLoop] <;> simp
  | [] => by rw [charBase64UrlDecodeLoop] <;> simp

/-- The output overflows exactly when whole groups of known characters come with
four or more that the first pass leaves out. -/
theorem charBase64UrlDecode_inside (src : List UInt8) :
    charBase64UrlDecode src ≠ .error .outOfBounds ↔
      src.countP signatureChar = 0 ∨ src.countP signatureChar % 4 ≠ 0 ∨
      src.countP (fun char => ¬ signatureChar char) < 4 := by
  have total := List.length_eq_countP_add_countP signatureChar (l := src)
  simp only [charBase64UrlDecode, validCount_signature, charBase64UrlDecodeLoop_length]
  by_cases none : src.countP signatureChar = 0 ∨ src.countP signatureChar % 4 ≠ 0
  · rw [if_pos none]
    exact iff_of_true (fun impossible => by cases impossible) (none.imp id .inl)
  · rw [if_neg none]
    by_cases room : src.length / 4 * 3 ≤ src.countP signatureChar / 4 * 3
    · rw [if_pos room]
      refine iff_of_true (fun impossible => by cases impossible) ?_
      omega
    · rw [if_neg room]
      refine iff_of_false (not_not_intro rfl) ?_
      omega

/-- `AAAA!!!!` is given three bytes and writes six. -/
theorem charBase64UrlDecode_foreign :
    charBase64UrlDecode [65, 65, 65, 65, 33, 33, 33, 33] = .error .outOfBounds := by
  decide

/-! ## Decoding what was encoded -/

theorem charBase64UrlDecodeLoop_encode : ∀ src : List UInt8, src.length % 3 = 0 →
    charBase64UrlDecodeLoop (charEncodeLoop base64UrlTable [] src) = src
  | b1 :: b2 :: b3 :: src, whole => by
      rw [charEncodeLoop, charBase64UrlDecodeLoop,
        alphabet_base64Url.index _ (sextet1_small b1),
        alphabet_base64Url.index _ (sextet2_small b1 b2),
        alphabet_base64Url.index _ (sextet3_small b2 b3),
        alphabet_base64Url.index _ (sextet4_small b3), block_sextets,
        charBase64UrlDecodeLoop_encode src ((Nat.add_mod_right _ 3).symm.trans whole)]
      rfl
  | [b1, b2], whole => absurd whole (Nat.succ_ne_zero 1)
  | [b1], whole => absurd whole (Nat.succ_ne_zero 0)
  | [], _ => rfl

/-- A signature comes back from its text. -/
def Restored (src : List UInt8) : Prop :=
  ∃ text decoded, charBase64UrlEncode src = .ok (some text) ∧
    charBase64UrlDecode text = .ok (some decoded) ∧ decoded.bytes = src ∧
    decoded.outLen = src.length

theorem charBase64UrlEncode_eq (src : List UInt8) :
    charBase64UrlEncode src =
      .ok (if src.length < 2 ^ 62 then some (charEncodeLoop base64UrlTable [] src) else none) :=
  charEncode_eq base64UrlTable [] src (Nat.zero_le 1)

/-- Without padding only whole groups are decoded again. -/
theorem restored_iff (src : List UInt8) (nonempty : src ≠ []) :
    Restored src ↔ src.length % 3 = 0 ∧ src.length < 2 ^ 62 := by
  have positive := List.length_pos_of_ne_nil nonempty
  have counted : validCount base64UrlTable (charEncodeLoop base64UrlTable [] src) = _ :=
    validCount_charEncodeLoop alphabet_base64Url (List.forall_mem_nil _) src
  rw [charEncodeLoop_length, List.length_nil, Nat.mul_zero, Nat.add_zero] at counted
  constructor
  · rintro ⟨text, decoded, encoded, result, -, -⟩
    rw [charBase64UrlEncode_eq] at encoded
    by_cases small : src.length < 2 ^ 62
    · rw [if_pos small] at encoded
      cases encoded
      by_cases refused : (src.length * 4 + 2) / 3 = 0 ∨ (src.length * 4 + 2) / 3 % 4 ≠ 0
      · rw [charBase64UrlDecode, counted, if_pos refused] at result
        cases result
      · exact ⟨by omega, small⟩
    · rw [if_neg small] at encoded
      cases encoded
  · rintro ⟨whole, small⟩
    have accepted : ¬ ((src.length * 4 + 2) / 3 = 0 ∨ (src.length * 4 + 2) / 3 % 4 ≠ 0) := by
      omega
    have room : src.length ≤ (src.length * 4 + 2) / 3 / 4 * 3 := by omega
    refine ⟨charEncodeLoop base64UrlTable [] src, ⟨src, src.length⟩, ?_, ?_,
      List.take_length, rfl⟩
    · rw [charBase64UrlEncode_eq, if_pos small]
    · rw [charBase64UrlDecode, counted, if_neg accepted, charBase64UrlDecodeLoop_encode src whole,
        if_pos room]

theorem restored_three : ([1, 2, 3] : List UInt8) ≠ [] ∧
    (Restored [1, 2, 3] ↔ ([1, 2, 3] : List UInt8).length % 3 = 0 ∧
      ([1, 2, 3] : List UInt8).length < 2 ^ 62) :=
  ⟨by decide, restored_iff [1, 2, 3] (by decide)⟩

/-- The two characters of one byte are no group of four. -/
theorem not_restored_one : ¬ Restored [1] := by
  rintro ⟨text, decoded, encoded, result, -, -⟩
  have two : charBase64UrlEncode [1] = .ok (some [65, 81]) := by decide
  rw [two] at encoded
  cases encoded
  have refused : charBase64UrlDecode [65, 81] = .ok none := by decide
  rw [refused] at result
  cases result

end PodrumMisc.Base64
