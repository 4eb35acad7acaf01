import PodrumFormal.Lib.JsonSyntax
import PodrumFormal.Misc.JsonParses

/-!
# Standard texts

What the parser takes of the standard: no exponents, and no question mark as it
is.  Left out as well are the quote behind a backslash, a tab right behind a
number, and the escape of a first surrogate half at the end of its string.
-/

set_option autoImplicit false

namespace PodrumMisc.JsonStandard

open CString Json JsonGrammar JsonStrings JsonParses
open JsonSyntax (IsHex IsBlank IsUnescaped IsEscape DigitRow FracText IntText Spaces Follows
  RootKind Dialect standard)

def IsHighEscape (p0 p1 p2 p3 : UInt8) : Prop :=
  ∃ code, hexValue p0 p1 p2 p3 = some code ∧ IsHigh code

def readable : Dialect where
  plain := fun byte => IsUnescaped byte ∧ byte ≠ '?'.toUInt8
  escape := fun letter => IsEscape letter ∧ letter ≠ '"'.toUInt8
  code := fun p0 p1 p2 p3 rest =>
    IsHighEscape p0 p1 p2 p3 → rest.head? = some '"'.toUInt8 → rest.length ≤ 5
  exponent := False
  number := fun after => after.head? ≠ some '\t'.toUInt8

theorem readable_within : JsonSyntax.Within readable standard where
  plain := fun _ plain => plain.1
  escape := fun _ escape => escape.1
  code := fun _ _ _ _ _ _ => trivial
  exponent := False.elim
  number := fun _ _ => trivial

/-! ## Strings -/

theorem isDigit_iff {byte : UInt8} : isDigit byte = true ↔ JsonSyntax.IsDigit byte := by
  rw [isDigit, Bool.and_eq_true, decide_eq_true_eq, decide_eq_true_eq]
  rfl

theorem hextobin_hex {byte : UInt8} (hex : IsHex byte) :
    ∃ value, hextobin byte = some value ∧ value.toNat < 16 := by
  unfold hextobin
  by_cases digit : isDigit byte = true
  · rw [if_pos digit]
    refine ⟨_, rfl, ?_⟩
    obtain ⟨low, high⟩ := isDigit_iff.mp digit
    rw [UInt8.toNat_toUInt32, UInt8.toNat_sub_of_le _ _ low]
    have bound : byte.toNat ≤ 57 := UInt8.le_iff_toNat_le.mp high
    have zero : '0'.toUInt8.toNat = 48 := rfl
    omega
  · rw [if_neg digit]
    rcases hex with found | ⟨low, high⟩ | ⟨low, high⟩
    · exact absurd (isDigit_iff.mpr found) digit
    · rw [if_pos ⟨low, high⟩]
      refine ⟨_, rfl, ?_⟩
      have above : 65 ≤ byte.toNat := UInt8.le_iff_toNat_le.mp low
      have bound : byte.toNat ≤ 70 := UInt8.le_iff_toNat_le.mp high
      rw [UInt8.toNat_toUInt32, UInt8.toNat_add, UInt8.toNat_sub_of_le _ _ low]
      have letter : 'A'.toUInt8.toNat = 65 := rfl
      have ten : (10 : UInt8).toNat = 10 := rfl
      omega
    · have above : 97 ≤ byte.toNat := UInt8.le_iff_toNat_le.mp low
      have bound : byte.toNat ≤ 102 := UInt8.le_iff_toNat_le.mp high
      have notUpper : ¬('A'.toUInt8 ≤ byte ∧ byte ≤ 'F'.toUInt8) := by
        rintro ⟨-, upper⟩
        have small : byte.toNat ≤ 70 := UInt8.le_iff_toNat_le.mp upper
        omega
      rw [if_neg notUpper, if_pos ⟨low, high⟩]
      refine ⟨_, rfl, ?_⟩
      rw [UInt8.toNat_toUInt32, UInt8.toNat_add, UInt8.toNat_sub_of_le _ _ low]
      have letter : 'a'.toUInt8.toNat = 97 := rfl
      have ten : (10 : UInt8).toNat = 10 := rfl
      omega

/-- Two numbers side by side. -/
theorem joined_bits {high low amount : UInt32} {shift width : Nat} (count : amount.toNat = shift)
    (small : shift < 32) (fits : high.toNat * 2 ^ shift < 2 ^ width)
    (within : low.toNat < 2 ^ width) : ((high <<< amount) ||| low).toNat < 2 ^ width := by
  rw [UInt32.toNat_or, UInt32.toNat_shiftLeft, count, Nat.mod_eq_of_lt small, Nat.shiftLeft_eq]
  exact Nat.or_lt_two_pow (Nat.lt_of_le_of_lt (Nat.mod_le _ _) fits) within

theorem hexValue_hex {p0 p1 p2 p3 : UInt8} (first : IsHex p0) (second : IsHex p1)
    (third : IsHex p2) (fourth : IsHex p3) :
    ∃ code, hexValue p0 p1 p2 p3 = some code ∧ code.toNat < 2 ^ 16 := by
  obtain ⟨v0, read0, small0⟩ := hextobin_hex first
  obtain ⟨v1, read1, small1⟩ := hextobin_hex second
  obtain ⟨v2, read2, small2⟩ := hextobin_hex third
  obtain ⟨v3, read3, small3⟩ := hextobin_hex fourth
  refine ⟨_, by rw [hexValue, read0, read1, read2, read3], ?_⟩
  have four : (4 : UInt32).toNat = 4 := rfl
  have eight : (8 : UInt32).toNat = 8 := rfl
  have left : ((v0 <<< 4) ||| v1).toNat < 2 ^ 8 :=
    joined_bits four (by decide) (by omega) (by omega)
  have right : ((v2 <<< 4) ||| v3).toNat < 2 ^ 8 :=
    joined_bits four (by decide) (by omega) (by omega)
  exact joined_bits eight (by decide) (by omega) (by omega)

theorem utf8_scalar {code : UInt32} (bound : code.toNat ≤ 0x10FFFF) :
    ∃ encoded, utf8 code = .ok encoded := by
  unfold utf8
  split
  · exact ⟨_, rfl⟩
  split
  · exact ⟨_, rfl⟩
  split
  · exact ⟨_, rfl⟩
  · rw [if_pos (UInt32.le_iff_toNat_le.mpr bound)]
    exact ⟨_, rfl⟩

theorem joined_scalar {high low : UInt32} (first : IsHigh high) (second : low.toNat < 2 ^ 16) :
    (joined high low).toNat ≤ 0x10FFFF := by
  have above : 0xd800 ≤ high.toNat := UInt32.le_iff_toNat_le.mp first.1
  have below : high.toNat ≤ 0xdbff := UInt32.le_iff_toNat_le.mp first.2
  unfold joined
  split
  · rename_i half
    have base : high.toNat - 0xd800 = (high - 0xd800).toNat :=
      (UInt32.toNat_sub_of_le _ _ first.1).symm
    have offset : (low - 0xdc00).toNat = low.toNat - 0xdc00 :=
      UInt32.toNat_sub_of_le _ _ half.1
    have ten : (10 : UInt32).toNat = 10 := rfl
    have bits : (((high - 0xd800) <<< 10) ||| (low - 0xdc00)).toNat < 2 ^ 20 :=
      joined_bits ten (by decide) (by omega) (by omega)
    rw [UInt32.toNat_add]
    have plane : (0x10000 : UInt32).toNat = 0x10000 := rfl
    omega
  · omega

theorem escaped_escape {letter : UInt8} (escape : readable.escape letter) :
    ∃ plain, escaped letter = some plain := by
  obtain ⟨known, other⟩ := escape
  simp only [IsEscape, List.map_cons, List.map_nil, List.mem_cons, List.not_mem_nil,
    or_false] at known
  rcases known with rfl | rfl | rfl | rfl | rfl | rfl | rfl | rfl
  · exact absurd rfl other
  all_goals exact ⟨_, rfl⟩

theorem escape_ne_code {letter : UInt8} (escape : readable.escape letter) :
    letter ≠ 'u'.toUInt8 := by
  rintro rfl
  exact absurd escape.1 (by unfold IsEscape; decide)

theorem isForbidden_plain {byte : UInt8} (plain : readable.plain byte) :
    isForbidden byte = false := by
  obtain ⟨⟨low, -, -⟩, other⟩ := plain
  have above : ¬byte ≤ 13 := fun below => by
    have first : 32 ≤ byte.toNat := UInt8.le_iff_toNat_le.mp low
    have last : byte.toNat ≤ 13 := UInt8.le_iff_toNat_le.mp below
    omega
  rw [isForbidden, decide_eq_false above, decide_eq_false other, Bool.and_false, Bool.or_false]

/-- Behind a first surrogate half the parser passes one unit of the string. -/
theorem string_accepted {after : List UInt8} (bound : Nat) : ∀ {text : List UInt8},
    text.length ≤ bound → JsonSyntax.StringRest readable after text →
    ∃ out, StringRest text out after := by
  induction bound with
  | zero =>
      intro text short holds
      cases holds <;> exact absurd short (Nat.not_succ_le_zero _)
  | succ bound ih =>
      intro text short holds
      cases holds with
      | close => exact ⟨[], .close⟩
      | @plain byte rest plain others =>
          obtain ⟨out, later⟩ := ih (Nat.le_of_succ_le_succ short) others
          exact ⟨_, .plain plain.1.2.1 (isForbidden_plain plain) plain.1.2.2 later⟩
      | escape escape others =>
          obtain ⟨char, known⟩ := escaped_escape escape
          obtain ⟨out, later⟩ := ih (by simp only [List.length_cons] at short; omega) others
          exact ⟨_, .escape known later⟩
      | @code p0 p1 p2 p3 rest first second third fourth allowed others =>
          simp only [List.length_cons] at short
          obtain ⟨code, digits, small⟩ := hexValue_hex first second third fourth
          have scalar : code.toNat ≤ 0x10FFFF := by omega
          obtain ⟨encoded, encodes⟩ := utf8_scalar scalar
          by_cases pair : IsHigh code ∧ 5 < rest.length
          · obtain ⟨high, room⟩ := pair
            cases others with
            | close =>
                exact absurd (allowed ⟨code, digits, high⟩ rfl) (Nat.not_le.mpr room)
            | plain plain others =>
                simp only [List.length_cons] at short
                obtain ⟨out, later⟩ := ih (by omega) others
                exact ⟨_, .unicode digits (.passed high room plain.1.2.2) encodes later⟩
            | escape escape others =>
                simp only [List.length_cons] at short
                obtain ⟨out, later⟩ := ih (by omega) others
                exact ⟨_, .unicode digits (.passedEscape high room (escape_ne_code escape))
                  encodes later⟩
            | code first second third fourth _ others =>
                simp only [List.length_cons] at short
                obtain ⟨low, lowDigits, lowSmall⟩ := hexValue_hex first second third fourth
                obtain ⟨encoded, encodes⟩ := utf8_scalar (joined_scalar high lowSmall)
                obtain ⟨out, later⟩ := ih (by omega) others
                exact ⟨_, .unicode digits (.pair high lowDigits) encodes later⟩
          · obtain ⟨out, later⟩ := ih (by omega) others
            exact ⟨_, .unicode digits (.single pair) encodes later⟩

/-! ## Numbers -/

/-- What may follow a value inside an object or an array. -/
def closers : List UInt8 := [','.toUInt8, ']'.toUInt8, '\x7d'.toUInt8]

theorem endsNumber_follows {after : List UInt8} (follows : Follows closers after)
    (allowed : readable.number after) :
    ∃ char rest, after = char :: rest ∧ endsNumber char = true := by
  obtain ⟨char, rest, rfl, blank | closer⟩ := follows
  · refine ⟨char, rest, rfl, ?_⟩
    rcases blank with rfl | rfl | rfl | rfl
    · rfl
    · exact absurd rfl allowed
    all_goals rfl
  · refine ⟨char, rest, rfl, ?_⟩
    simp only [closers, List.mem_cons, List.not_mem_nil, or_false] at closer
    rcases closer with rfl | rfl | rfl <;> rfl

/-- The loop of a number that expects no digit takes this text. -/
def Tail (once : Bool) (text after : List UInt8) : Prop :=
  ∀ srNumber, ∃ number, NumberRest false once srNumber text number after

theorem tail_row {once : Bool} {text middle after : List UInt8} (row : DigitRow middle text)
    (tail : Tail once middle after) : Tail once text after := by
  induction row with
  | done => exact tail
  | digit digit _ ih =>
      intro srNumber
      obtain ⟨number, later⟩ := ih (srNumber ++ [_])
      exact ⟨number, .digit (isDigit_iff.mpr digit) later⟩

theorem tail_fraction {text after : List UInt8} (frac : FracText after text)
    (follows : Follows closers after) (allowed : readable.number after) :
    Tail false text after := by
  obtain ⟨char, rest, rfl, ends⟩ := endsNumber_follows follows allowed
  cases frac with
  | none => exact fun srNumber => ⟨_, .ends ends⟩
  | @point byte digits digit others =>
      intro srNumber
      have last : Tail true (char :: rest) (char :: rest) := fun _ => ⟨_, .ends ends⟩
      obtain ⟨number, later⟩ := tail_row others last (srNumber ++ ['.'.toUInt8] ++ [byte])
      exact ⟨number, .point (.digit (isDigit_iff.mpr digit) later)⟩

theorem int_first {whole fraction : List UInt8} (int : IntText fraction whole) :
    ∃ digit rest, whole = digit :: rest ∧ isDigit digit = true ∧ DigitRow fraction rest := by
  cases int with
  | zero => exact ⟨_, _, rfl, rfl, .done⟩
  | row digit _ others => exact ⟨_, _, rfl, isDigit_iff.mpr digit, others⟩

theorem number_accepted {text after : List UInt8}
    (holds : JsonSyntax.NumberText readable text after) (follows : Follows closers after) :
    ∃ number, NumberText text number after := by
  obtain ⟨⟨whole, fraction, exponent, negative, int, frac, exp⟩, allowed⟩ := holds
  have same : exponent = after := by
    cases exp with
    | none => rfl
    | exp allowed _ _ _ _ => cases allowed
  subst same
  obtain ⟨digit, rest, rfl, isDigit, row⟩ := int_first int
  have tail : Tail false rest exponent := tail_row row (tail_fraction frac follows allowed)
  cases negative with
  | none =>
      have other : decide (digit = '-'.toUInt8) = false := by
        rw [decide_eq_false_iff_not]
        rintro rfl
        cases isDigit
      obtain ⟨number, later⟩ := tail [digit]
      refine ⟨number, digit, rest, rfl, ?_, ?_⟩
      · rw [startsNumber, isDigit, Bool.true_or]
      · rw [other]
        exact later
  | minus =>
      obtain ⟨number, later⟩ := tail ['-'.toUInt8, digit]
      exact ⟨number, '-'.toUInt8, digit :: rest, rfl, rfl, .digit isDigit later⟩

/-! ## Values -/

theorem isSpace_blank {byte : UInt8} (blank : IsBlank byte) : isSpace byte = true := by
  rcases blank with rfl | rfl | rfl | rfl <;> rfl

theorem array_spaces {expectMember : Bool} {members : List JsonMulti}
    {text rest after : List UInt8} {array : JsonMulti} (spaces : Spaces rest text)
    (others : ArrayRest expectMember members rest array after) :
    ArrayRest expectMember members text array after := by
  induction spaces with
  | done => exact others
  | blank blank _ ih => exact .space (isSpace_blank blank) ih

theorem object_spaces {expect : Expect} {keys : List (List UInt8)} {members : List JsonMulti}
    {text rest after : List UInt8} {object : JsonMulti} (spaces : Spaces rest text)
    (others : ObjectRest expect keys members rest object after) :
    ObjectRest expect keys members text object after := by
  induction spaces with
  | done => exact others
  | blank blank _ ih => exact .space (isSpace_blank blank) ih

theorem follows_comma {rest text : List UInt8} (spaces : Spaces (','.toUInt8 :: rest) text) :
    Follows closers text := spaces.follows (by decide)

theorem follows_bracket {rest text : List UInt8} (spaces : Spaces (']'.toUInt8 :: rest) text) :
    Follows closers text := spaces.follows (by decide)

theorem follows_brace {rest text : List UInt8} (spaces : Spaces ('\x7d'.toUInt8 :: rest) text) :
    Follows closers text := spaces.follows (by decide)

theorem key_accepted {name rest : List UInt8}
    (key : JsonSyntax.StringRest readable name rest) :
    ∃ out, StringText ('"'.toUInt8 :: rest) out name := by
  obtain ⟨out, holds⟩ := string_accepted rest.length (Nat.le_refl _) key
  exact ⟨out, rest, rfl, holds⟩

mutual

theorem value_accepted {text after : List UInt8} :
    JsonSyntax.Value readable text after → Follows closers after →
      ∃ member, Member text member after
  | .isFalse, _ => ⟨_, .scalar .isFalse⟩
  | .isTrue, _ => ⟨_, .scalar .isTrue⟩
  | .null, _ => ⟨_, .scalar .null⟩
  | .number number, follows =>
      have ⟨_, holds⟩ := number_accepted number follows
      ⟨_, .scalar (.number holds)⟩
  | .string string, _ =>
      have ⟨_, holds⟩ := key_accepted string
      ⟨_, .scalar (.string holds)⟩
  | .array array, _ =>
      have ⟨_, loop⟩ := array_accepted array
      ⟨_, .array loop⟩
  | .object object, _ =>
      have ⟨_, loop⟩ := object_accepted object
      ⟨_, .object loop⟩

theorem array_accepted {text after : List UInt8} :
    JsonSyntax.ArrayText readable text after → ∃ array, ArrayRest true [] text array after
  | .empty spaces => ⟨_, array_spaces spaces .close⟩
  | .elements elements => elements_accepted elements []

theorem elements_accepted {text after : List UInt8} :
    JsonSyntax.Elements readable text after → ∀ members, ∃ array,
      ArrayRest true members text array after
  | .last spaces value closes, _ =>
      have ⟨_, head⟩ := value_accepted value (follows_bracket closes)
      ⟨_, array_spaces spaces (.member head (array_spaces closes .close))⟩
  | .more spaces value separates others, members =>
      have ⟨member, head⟩ := value_accepted value (follows_comma separates)
      have ⟨_, loop⟩ := elements_accepted others (members ++ [member])
      ⟨_, array_spaces spaces (.member head (array_spaces separates (.seporator loop)))⟩

theorem object_accepted {text after : List UInt8} :
    JsonSyntax.ObjectText readable text after → ∃ object, ObjectRest .key [] [] text object after
  | .empty spaces => ⟨_, object_spaces spaces .close⟩
  | .members members => members_accepted members [] []

theorem members_accepted {text after : List UInt8} :
    JsonSyntax.Members readable text after → ∀ keys members, ∃ object,
      ObjectRest .key keys members text object after
  | .last spaces key names gap value closes, _, _ =>
      have ⟨_, first⟩ := key_accepted key
      have ⟨_, head⟩ := value_accepted value (follows_brace closes)
      have loop := object_spaces gap (.member head (object_spaces closes .close))
      ⟨_, object_spaces spaces (.key first (object_spaces names (.colon loop)))⟩
  | .more spaces key names gap value separates others, keys, members =>
      have ⟨name, first⟩ := key_accepted key
      have ⟨member, head⟩ := value_accepted value (follows_comma separates)
      have ⟨_, later⟩ := members_accepted others (keys ++ [name]) (members ++ [member])
      have loop := object_spaces gap (.member head (object_spaces separates (.seporator later)))
      ⟨_, object_spaces spaces (.key first (object_spaces names (.colon loop)))⟩

end

/-! ## The root -/

theorem readable_standard {kind : RootKind} {text : List UInt8}
    (holds : JsonSyntax.RootText readable kind text) : JsonSyntax.RootText standard kind text :=
  holds.mono readable_within

end PodrumMisc.JsonStandard
