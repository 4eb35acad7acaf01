import PodrumFormal.Misc.Json

/-!
# The texts that the JSON parser takes

Each parser as a relation between the text in front of it, the value and the
text behind it.  A loop closes wherever its character stands; an object may
close behind a key.  What follows a number belongs to its syntax, and so does
the number of characters behind the first half of a surrogate pair.
-/

set_option autoImplicit false

namespace PodrumMisc.JsonGrammar

open CString Json

/-! ## Strings -/

/-- The code of four hexadecimal digits. -/
def hexValue (p0 p1 p2 p3 : UInt8) : Option UInt32 :=
  match hextobin p0, hextobin p1, hextobin p2, hextobin p3 with
  | some p0, some p1, some p2, some p3 =>
      some ((((p0 <<< 4) ||| p1) <<< 8) ||| ((p2 <<< 4) ||| p3))
  | _, _, _, _ => none

def IsHigh (code : UInt32) : Prop := 0xd800 ≤ code ∧ code ≤ 0xdbff

def joined (high low : UInt32) : UInt32 :=
  if 0xdc00 ≤ low ∧ low ≤ 0xdfff then
    (0x10000 : UInt32) + (((high - 0xd800) <<< 10) ||| (low - 0xdc00))
  else high

/-- What follows a first code: where it is a high surrogate with more than five
characters behind it, the look for the second half passes a character, and
another one behind a backslash. -/
inductive PairRest (code : UInt32) : List UInt8 → UInt32 → List UInt8 → Prop
  | single {rest : List UInt8} (other : ¬(IsHigh code ∧ 5 < rest.length)) :
      PairRest code rest code rest
  | passed {char : UInt8} {rest : List UInt8} (high : IsHigh code)
      (room : 5 < (char :: rest).length) (notBackslash : char ≠ '\\'.toUInt8) :
      PairRest code (char :: rest) code rest
  | passedEscape {char : UInt8} {rest : List UInt8} (high : IsHigh code)
      (room : 5 < ('\\'.toUInt8 :: char :: rest).length) (notLetter : char ≠ 'u'.toUInt8) :
      PairRest code ('\\'.toUInt8 :: char :: rest) code rest
  | pair {q0 q1 q2 q3 : UInt8} {low : UInt32} {rest : List UInt8} (high : IsHigh code)
      (digits : hexValue q0 q1 q2 q3 = some low) :
      PairRest code ('\\'.toUInt8 :: 'u'.toUInt8 :: q0 :: q1 :: q2 :: q3 :: rest)
        (joined code low) rest

theorem PairRest.length_le {first code : UInt32} {rest after : List UInt8}
    (holds : PairRest first rest code after) : after.length ≤ rest.length := by
  cases holds with
  | single _ => exact Nat.le_refl _
  | passed _ _ _ => exact Nat.le_succ _
  | passedEscape _ _ _ => exact Nat.le_add_right _ 2
  | pair _ _ => exact Nat.le_add_right _ 6

/-- The text behind a quote, up to the next one. -/
inductive StringRest : List UInt8 → List UInt8 → List UInt8 → Prop
  | close {after : List UInt8} : StringRest ('"'.toUInt8 :: after) [] after
  | escapeClose {after : List UInt8} :
      StringRest ('\\'.toUInt8 :: '"'.toUInt8 :: after) [] after
  | plain {char : UInt8} {rest out after : List UInt8} (notQuote : char ≠ '"'.toUInt8)
      (allowed : isForbidden char = false) (notBackslash : char ≠ '\\'.toUInt8)
      (others : StringRest rest out after) : StringRest (char :: rest) (char :: out) after
  | escape {char plain : UInt8} {rest out after : List UInt8} (known : escaped char = some plain)
      (others : StringRest rest out after) :
      StringRest ('\\'.toUInt8 :: char :: rest) (plain :: out) after
  | unicode {p0 p1 p2 p3 : UInt8} {first code : UInt32} {rest middle encoded out after : List UInt8}
      (digits : hexValue p0 p1 p2 p3 = some first) (second : PairRest first rest code middle)
      (encodes : utf8 code = .ok encoded) (others : StringRest middle out after) :
      StringRest ('\\'.toUInt8 :: 'u'.toUInt8 :: p0 :: p1 :: p2 :: p3 :: rest) (encoded ++ out)
        after

theorem StringRest.length_lt {text out after : List UInt8} (holds : StringRest text out after) :
    after.length < text.length := by
  induction holds with
  | close => exact Nat.lt_succ_self _
  | escapeClose => exact Nat.lt_add_of_pos_right (by decide : 0 < 2)
  | plain _ _ _ _ ih => exact Nat.lt_succ_of_lt ih
  | escape _ _ ih => exact Nat.lt_succ_of_lt (Nat.lt_succ_of_lt ih)
  | unicode _ second _ _ ih =>
      have short := second.length_le
      simp only [List.length_cons]
      omega

def StringText (text out after : List UInt8) : Prop :=
  ∃ rest, text = '"'.toUInt8 :: rest ∧ StringRest rest out after

theorem StringText.length_lt {text out after : List UInt8} (holds : StringText text out after) :
    after.length < text.length := by
  obtain ⟨rest, rfl, others⟩ := holds
  exact Nat.lt_succ_of_lt others.length_lt

/-! ## Scalars -/

/-- The text behind the first character of a number, up to a character that may
end it. -/
inductive NumberRest : Bool → Bool → List UInt8 → List UInt8 → JsonNumber → List UInt8 → Prop
  | digit {expectDigit once : Bool} {srNumber rest after : List UInt8} {char : UInt8}
      {number : JsonNumber} (digit : isDigit char = true)
      (others : NumberRest false once (srNumber ++ [char]) rest number after) :
      NumberRest expectDigit once srNumber (char :: rest) number after
  | point {srNumber rest after : List UInt8} {number : JsonNumber}
      (others : NumberRest true true (srNumber ++ ['.'.toUInt8]) rest number after) :
      NumberRest false false srNumber ('.'.toUInt8 :: rest) number after
  | ends {once : Bool} {srNumber rest : List UInt8} {char : UInt8}
      (ends : endsNumber char = true) :
      NumberRest false once srNumber (char :: rest)
        (if once then .float srNumber else .int (atoll srNumber)) (char :: rest)

def startsNumber (char : UInt8) : Bool := isDigit char || char = '-'.toUInt8

def NumberText (text : List UInt8) (number : JsonNumber) (after : List UInt8) : Prop :=
  ∃ char rest, text = char :: rest ∧ startsNumber char = true ∧
    NumberRest (char = '-'.toUInt8) false [char] rest number after

inductive Scalar : List UInt8 → JsonMulti → List UInt8 → Prop
  | string {text out after : List UInt8} (holds : StringText text out after) :
      Scalar text (.string out) after
  | null {after : List UInt8} : Scalar (bytes "null" ++ after) .null after
  | isTrue {after : List UInt8} : Scalar (bytes "true" ++ after) (.bool true) after
  | isFalse {after : List UInt8} : Scalar (bytes "false" ++ after) (.bool false) after
  | number {text after : List UInt8} {number : JsonNumber} (holds : NumberText text number after) :
      Scalar text (.number number) after

theorem NumberRest.length_le {expectDigit once : Bool} {srNumber text after : List UInt8}
    {number : JsonNumber} (holds : NumberRest expectDigit once srNumber text number after) :
    after.length ≤ text.length := by
  induction holds with
  | digit _ _ ih => exact Nat.le_succ_of_le ih
  | point _ ih => exact Nat.le_succ_of_le ih
  | ends _ => exact Nat.le_refl _

theorem Scalar.length_lt {text after : List UInt8} {member : JsonMulti}
    (holds : Scalar text member after) : after.length < text.length := by
  cases holds with
  | string holds => exact holds.length_lt
  | null => exact Nat.lt_add_of_pos_right (by decide : 0 < 4)
  | isTrue => exact Nat.lt_add_of_pos_right (by decide : 0 < 4)
  | isFalse => exact Nat.lt_add_of_pos_right (by decide : 0 < 5)
  | number holds =>
      obtain ⟨char, rest, rfl, -, others⟩ := holds
      exact Nat.lt_succ_of_le others.length_le

/-- Where a loop closes or goes on before it looks at what it expects. -/
def passes (char : UInt8) : Bool :=
  char = ']'.toUInt8 || char = '\x7d'.toUInt8 || isSpace char

theorem not_passes {char : UInt8} (other : passes char = false) :
    char ≠ ']'.toUInt8 ∧ char ≠ '\x7d'.toUInt8 ∧ isSpace char = false := by
  simpa only [passes, Bool.or_eq_false_iff, decide_eq_false_iff_not, and_assoc] using other

theorem startsNumber_other {char : UInt8} (starts : startsNumber char = true) :
    passes char = false := by
  rw [Bool.eq_false_iff]
  intro found
  simp only [passes, isSpace, Bool.or_eq_true, decide_eq_true_eq] at found
  rcases found with (rfl | rfl) | ((rfl | rfl) | rfl) | rfl <;> cases starts

theorem Scalar.head {text after : List UInt8} {member : JsonMulti}
    (holds : Scalar text member after) :
    ∃ char rest, text = char :: rest ∧ passes char = false := by
  cases holds with
  | string holds =>
      obtain ⟨rest, rfl, -⟩ := holds
      exact ⟨_, rest, rfl, by decide⟩
  | null => exact ⟨'n'.toUInt8, bytes "ull" ++ after, rfl, by decide⟩
  | isTrue => exact ⟨'t'.toUInt8, bytes "rue" ++ after, rfl, by decide⟩
  | isFalse => exact ⟨'f'.toUInt8, bytes "alse" ++ after, rfl, by decide⟩
  | number holds =>
      obtain ⟨char, rest, rfl, starts, -⟩ := holds
      exact ⟨char, rest, rfl, startsNumber_other starts⟩

/-! ## Objects and arrays -/

mutual

inductive Member : List UInt8 → JsonMulti → List UInt8 → Prop
  | scalar {text after : List UInt8} {member : JsonMulti} (holds : Scalar text member after) :
      Member text member after
  | object {rest after : List UInt8} {object : JsonMulti}
      (loop : ObjectRest .key [] [] rest object after) :
      Member ('\x7b'.toUInt8 :: rest) object after
  | array {rest after : List UInt8} {array : JsonMulti}
      (loop : ArrayRest true [] rest array after) : Member ('['.toUInt8 :: rest) array after

/-- The text behind a bracket, with whether a member is expected and the
members so far. -/
inductive ArrayRest : Bool → List JsonMulti → List UInt8 → JsonMulti → List UInt8 → Prop
  | close {expectMember : Bool} {members : List JsonMulti} {after : List UInt8} :
      ArrayRest expectMember members (']'.toUInt8 :: after) (.array members) after
  | space {expectMember : Bool} {members : List JsonMulti} {rest after : List UInt8}
      {char : UInt8} {array : JsonMulti} (space : isSpace char = true)
      (others : ArrayRest expectMember members rest array after) :
      ArrayRest expectMember members (char :: rest) array after
  | member {members : List JsonMulti} {text middle after : List UInt8} {member array : JsonMulti}
      (head : Member text member middle)
      (others : ArrayRest false (members ++ [member]) middle array after) :
      ArrayRest true members text array after
  | seporator {members : List JsonMulti} {rest after : List UInt8} {array : JsonMulti}
      (others : ArrayRest true members rest array after) :
      ArrayRest false members (','.toUInt8 :: rest) array after

/-- The text behind a brace, with what is expected and the keys and members so
far. -/
inductive ObjectRest :
    Expect → List (List UInt8) → List JsonMulti → List UInt8 → JsonMulti → List UInt8 → Prop
  | close {expect : Expect} {keys : List (List UInt8)} {members : List JsonMulti}
      {after : List UInt8} :
      ObjectRest expect keys members ('\x7d'.toUInt8 :: after) (.object keys members) after
  | space {expect : Expect} {keys : List (List UInt8)} {members : List JsonMulti}
      {rest after : List UInt8} {char : UInt8} {object : JsonMulti} (space : isSpace char = true)
      (others : ObjectRest expect keys members rest object after) :
      ObjectRest expect keys members (char :: rest) object after
  | key {keys : List (List UInt8)} {members : List JsonMulti} {text key middle after : List UInt8}
      {object : JsonMulti} (head : StringText text key middle)
      (others : ObjectRest .colon (keys ++ [key]) members middle object after) :
      ObjectRest .key keys members text object after
  | colon {keys : List (List UInt8)} {members : List JsonMulti} {rest after : List UInt8}
      {object : JsonMulti} (others : ObjectRest .member keys members rest object after) :
      ObjectRest .colon keys members (':'.toUInt8 :: rest) object after
  | member {keys : List (List UInt8)} {members : List JsonMulti} {text middle after : List UInt8}
      {member object : JsonMulti} (head : Member text member middle)
      (others : ObjectRest .seporator keys (members ++ [member]) middle object after) :
      ObjectRest .member keys members text object after
  | seporator {keys : List (List UInt8)} {members : List JsonMulti} {rest after : List UInt8}
      {object : JsonMulti} (others : ObjectRest .key keys members rest object after) :
      ObjectRest .seporator keys members (','.toUInt8 :: rest) object after

end

mutual

theorem Member.length_lt {text after : List UInt8} {member : JsonMulti} :
    Member text member after → after.length < text.length
  | .scalar holds => holds.length_lt
  | .object loop => Nat.lt_succ_of_lt loop.length_lt
  | .array loop => Nat.lt_succ_of_lt loop.length_lt

theorem ArrayRest.length_lt {expectMember : Bool} {members : List JsonMulti}
    {text after : List UInt8} {array : JsonMulti} :
    ArrayRest expectMember members text array after → after.length < text.length
  | .close => Nat.lt_succ_self _
  | .space _ others => Nat.lt_succ_of_lt others.length_lt
  | .member head others => Nat.lt_trans others.length_lt head.length_lt
  | .seporator others => Nat.lt_succ_of_lt others.length_lt

theorem ObjectRest.length_lt {expect : Expect} {keys : List (List UInt8)}
    {members : List JsonMulti} {text after : List UInt8} {object : JsonMulti} :
    ObjectRest expect keys members text object after → after.length < text.length
  | .close => Nat.lt_succ_self _
  | .space _ others => Nat.lt_succ_of_lt others.length_lt
  | .key head others => Nat.lt_trans others.length_lt head.length_lt
  | .colon others => Nat.lt_succ_of_lt others.length_lt
  | .member head others => Nat.lt_trans others.length_lt head.length_lt
  | .seporator others => Nat.lt_succ_of_lt others.length_lt

end

theorem Member.head {text after : List UInt8} {member : JsonMulti}
    (holds : Member text member after) :
    ∃ char rest, text = char :: rest ∧ passes char = false := by
  cases holds with
  | scalar holds => exact holds.head
  | object loop => exact ⟨_, _, rfl, by decide⟩
  | array loop => exact ⟨_, _, rfl, by decide⟩

/-- A whole text: an object or an array behind white space, or something else,
at which the root is empty. -/
inductive RootText : List UInt8 → JsonRoot → List UInt8 → Prop
  | empty : RootText [] none []
  | space {char : UInt8} {rest after : List UInt8} {root : JsonRoot} (space : isSpace char = true)
      (others : RootText rest root after) : RootText (char :: rest) root after
  | object {rest after : List UInt8} {object : JsonMulti}
      (loop : ObjectRest .key [] [] rest object after) :
      RootText ('\x7b'.toUInt8 :: rest) (some object) after
  | array {rest after : List UInt8} {array : JsonMulti}
      (loop : ArrayRest true [] rest array after) :
      RootText ('['.toUInt8 :: rest) (some array) after
  | other {char : UInt8} {rest : List UInt8} (notSpace : isSpace char = false)
      (notBrace : char ≠ '\x7b'.toUInt8) (notBracket : char ≠ '['.toUInt8) :
      RootText (char :: rest) none (char :: rest)

theorem RootText.length_le {text after : List UInt8} {root : JsonRoot}
    (holds : RootText text root after) : after.length ≤ text.length := by
  induction holds with
  | empty => exact Nat.le_refl _
  | space _ _ ih => exact Nat.le_succ_of_le ih
  | object loop => exact Nat.le_succ_of_le (Nat.le_of_lt loop.length_lt)
  | array loop => exact Nat.le_succ_of_le (Nat.le_of_lt loop.length_lt)
  | other _ _ _ => exact Nat.le_refl _

end PodrumMisc.JsonGrammar
