import Mathlib.Data.List.Basic

/-!
# JSON syntax

The grammar of JSON texts as bytes, between the text in front of a production
and the text behind it.  A dialect may allow less than the standard does.
-/

set_option autoImplicit false

namespace JsonSyntax

/-- What a dialect leaves of the standard: bytes of a string as they are, the
letters of its short escapes, its code escapes with the text behind them,
exponents, and the text behind a number. -/
structure Dialect where
  plain : UInt8 → Prop
  escape : UInt8 → Prop
  code : UInt8 → UInt8 → UInt8 → UInt8 → List UInt8 → Prop
  exponent : Prop
  number : List UInt8 → Prop

def IsBlank (byte : UInt8) : Prop :=
  byte = ' '.toUInt8 ∨ byte = '\t'.toUInt8 ∨ byte = '\n'.toUInt8 ∨ byte = '\r'.toUInt8

def IsDigit (byte : UInt8) : Prop := '0'.toUInt8 ≤ byte ∧ byte ≤ '9'.toUInt8

def IsHex (byte : UInt8) : Prop :=
  IsDigit byte ∨ ('A'.toUInt8 ≤ byte ∧ byte ≤ 'F'.toUInt8) ∨
    ('a'.toUInt8 ≤ byte ∧ byte ≤ 'f'.toUInt8)

/-- Bytes above 0x7F are those of longer UTF-8 characters. -/
def IsUnescaped (byte : UInt8) : Prop :=
  0x20 ≤ byte ∧ byte ≠ '"'.toUInt8 ∧ byte ≠ '\\'.toUInt8

def IsEscape (byte : UInt8) : Prop :=
  byte ∈ ['"', '\\', '/', 'b', 'f', 'n', 'r', 't'].map Char.toUInt8

def word (letters : List Char) : List UInt8 := letters.map Char.toUInt8

/-- RFC 8259. -/
def standard : Dialect where
  plain := IsUnescaped
  escape := IsEscape
  code := fun _ _ _ _ _ => True
  exponent := True
  number := fun _ => True

/-! ## Tokens -/

/-- White space. -/
inductive Spaces (after : List UInt8) : List UInt8 → Prop
  | done : Spaces after after
  | blank {byte : UInt8} {rest : List UInt8} (blank : IsBlank byte)
      (others : Spaces after rest) : Spaces after (byte :: rest)

/-- Any number of digits. -/
inductive DigitRow (after : List UInt8) : List UInt8 → Prop
  | done : DigitRow after after
  | digit {byte : UInt8} {rest : List UInt8} (digit : IsDigit byte)
      (others : DigitRow after rest) : DigitRow after (byte :: rest)

inductive IntText (after : List UInt8) : List UInt8 → Prop
  | zero : IntText after ('0'.toUInt8 :: after)
  | row {byte : UInt8} {rest : List UInt8} (digit : IsDigit byte) (nonzero : byte ≠ '0'.toUInt8)
      (others : DigitRow after rest) : IntText after (byte :: rest)

inductive FracText (after : List UInt8) : List UInt8 → Prop
  | none : FracText after after
  | point {byte : UInt8} {rest : List UInt8} (digit : IsDigit byte)
      (others : DigitRow after rest) : FracText after ('.'.toUInt8 :: byte :: rest)

inductive SignText (after : List UInt8) : List UInt8 → Prop
  | none : SignText after after
  | sign {byte : UInt8} (sign : byte = '+'.toUInt8 ∨ byte = '-'.toUInt8) :
      SignText after (byte :: after)

inductive ExpText (dialect : Dialect) (after : List UInt8) : List UInt8 → Prop
  | none : ExpText dialect after after
  | exp {letter byte : UInt8} {text rest : List UInt8} (allowed : dialect.exponent)
      (exp : letter = 'e'.toUInt8 ∨ letter = 'E'.toUInt8)
      (sign : SignText (byte :: rest) text) (digit : IsDigit byte)
      (others : DigitRow after rest) : ExpText dialect after (letter :: text)

inductive MinusText (after : List UInt8) : List UInt8 → Prop
  | none : MinusText after after
  | minus : MinusText after ('-'.toUInt8 :: after)

structure NumberText (dialect : Dialect) (text after : List UInt8) : Prop where
  parts : ∃ whole fraction exponent, MinusText whole text ∧ IntText fraction whole ∧
    FracText exponent fraction ∧ ExpText dialect after exponent
  allowed : dialect.number after

/-- The text behind a quote, up to the next one that ends the string. -/
inductive StringRest (dialect : Dialect) (after : List UInt8) : List UInt8 → Prop
  | close : StringRest dialect after ('"'.toUInt8 :: after)
  | plain {byte : UInt8} {rest : List UInt8} (plain : dialect.plain byte)
      (others : StringRest dialect after rest) : StringRest dialect after (byte :: rest)
  | escape {letter : UInt8} {rest : List UInt8} (escape : dialect.escape letter)
      (others : StringRest dialect after rest) :
      StringRest dialect after ('\\'.toUInt8 :: letter :: rest)
  | code {p0 p1 p2 p3 : UInt8} {rest : List UInt8} (first : IsHex p0) (second : IsHex p1)
      (third : IsHex p2) (fourth : IsHex p3) (allowed : dialect.code p0 p1 p2 p3 rest)
      (others : StringRest dialect after rest) :
      StringRest dialect after ('\\'.toUInt8 :: 'u'.toUInt8 :: p0 :: p1 :: p2 :: p3 :: rest)

/-! ## Values -/

mutual

inductive Value (dialect : Dialect) : List UInt8 → List UInt8 → Prop
  | isFalse {after : List UInt8} : Value dialect (word ['f', 'a', 'l', 's', 'e'] ++ after) after
  | isTrue {after : List UInt8} : Value dialect (word ['t', 'r', 'u', 'e'] ++ after) after
  | null {after : List UInt8} : Value dialect (word ['n', 'u', 'l', 'l'] ++ after) after
  | number {text after : List UInt8} (number : NumberText dialect text after) :
      Value dialect text after
  | string {rest after : List UInt8} (string : StringRest dialect after rest) :
      Value dialect ('"'.toUInt8 :: rest) after
  | array {rest after : List UInt8} (array : ArrayText dialect rest after) :
      Value dialect ('['.toUInt8 :: rest) after
  | object {rest after : List UInt8} (object : ObjectText dialect rest after) :
      Value dialect ('\x7b'.toUInt8 :: rest) after

/-- The text behind a bracket. -/
inductive ArrayText (dialect : Dialect) : List UInt8 → List UInt8 → Prop
  | empty {text after : List UInt8} (spaces : Spaces (']'.toUInt8 :: after) text) :
      ArrayText dialect text after
  | elements {text after : List UInt8} (elements : Elements dialect text after) :
      ArrayText dialect text after

inductive Elements (dialect : Dialect) : List UInt8 → List UInt8 → Prop
  | last {text start middle after : List UInt8} (spaces : Spaces start text)
      (value : Value dialect start middle) (closes : Spaces (']'.toUInt8 :: after) middle) :
      Elements dialect text after
  | more {text start middle rest after : List UInt8} (spaces : Spaces start text)
      (value : Value dialect start middle) (separates : Spaces (','.toUInt8 :: rest) middle)
      (others : Elements dialect rest after) : Elements dialect text after

/-- The text behind a brace. -/
inductive ObjectText (dialect : Dialect) : List UInt8 → List UInt8 → Prop
  | empty {text after : List UInt8} (spaces : Spaces ('\x7d'.toUInt8 :: after) text) :
      ObjectText dialect text after
  | members {text after : List UInt8} (members : Members dialect text after) :
      ObjectText dialect text after

inductive Members (dialect : Dialect) : List UInt8 → List UInt8 → Prop
  | last {text rest name start middle named after : List UInt8}
      (spaces : Spaces ('"'.toUInt8 :: rest) text) (key : StringRest dialect name rest)
      (names : Spaces (':'.toUInt8 :: named) name) (gap : Spaces start named)
      (value : Value dialect start middle) (closes : Spaces ('\x7d'.toUInt8 :: after) middle) :
      Members dialect text after
  | more {text rest name start middle named further after : List UInt8}
      (spaces : Spaces ('"'.toUInt8 :: rest) text) (key : StringRest dialect name rest)
      (names : Spaces (':'.toUInt8 :: named) name) (gap : Spaces start named)
      (value : Value dialect start middle) (separates : Spaces (','.toUInt8 :: further) middle)
      (others : Members dialect further after) : Members dialect text after

end

inductive RootKind
  | object
  | array
  deriving DecidableEq, Repr

/-- A whole text with an object or an array as its root. -/
inductive RootText (dialect : Dialect) : RootKind → List UInt8 → Prop
  | object {text rest after : List UInt8} (spaces : Spaces ('\x7b'.toUInt8 :: rest) text)
      (object : ObjectText dialect rest after) (closes : Spaces [] after) :
      RootText dialect .object text
  | array {text rest after : List UInt8} (spaces : Spaces ('['.toUInt8 :: rest) text)
      (array : ArrayText dialect rest after) (closes : Spaces [] after) :
      RootText dialect .array text

/-! ## Smaller dialects -/

structure Within (small large : Dialect) : Prop where
  plain : ∀ byte, small.plain byte → large.plain byte
  escape : ∀ letter, small.escape letter → large.escape letter
  code : ∀ p0 p1 p2 p3 rest, small.code p0 p1 p2 p3 rest → large.code p0 p1 p2 p3 rest
  exponent : small.exponent → large.exponent
  number : ∀ after, small.number after → large.number after

section Within

variable {small large : Dialect}

theorem NumberText.mono (within : Within small large) {text after : List UInt8}
    (holds : NumberText small text after) : NumberText large text after := by
  obtain ⟨⟨whole, fraction, exponent, negative, int, frac, exp⟩, allowed⟩ := holds
  refine ⟨⟨whole, fraction, exponent, negative, int, frac, ?_⟩, within.number _ allowed⟩
  cases exp with
  | none => exact .none
  | exp allowed letter sign digit others =>
      exact .exp (within.exponent allowed) letter sign digit others

theorem StringRest.mono (within : Within small large) {text after : List UInt8}
    (holds : StringRest small after text) : StringRest large after text := by
  induction holds with
  | close => exact .close
  | plain plain _ ih => exact .plain (within.plain _ plain) ih
  | escape escape _ ih => exact .escape (within.escape _ escape) ih
  | code first second third fourth allowed _ ih =>
      exact .code first second third fourth (within.code _ _ _ _ _ allowed) ih

mutual

theorem Value.mono (within : Within small large) {text after : List UInt8} :
    Value small text after → Value large text after
  | .isFalse => .isFalse
  | .isTrue => .isTrue
  | .null => .null
  | .number number => .number (number.mono within)
  | .string string => .string (string.mono within)
  | .array array => .array (array.mono within)
  | .object object => .object (object.mono within)

theorem ArrayText.mono (within : Within small large) {text after : List UInt8} :
    ArrayText small text after → ArrayText large text after
  | .empty spaces => .empty spaces
  | .elements elements => .elements (elements.mono within)

theorem Elements.mono (within : Within small large) {text after : List UInt8} :
    Elements small text after → Elements large text after
  | .last spaces value closes => .last spaces (value.mono within) closes
  | .more spaces value separates others =>
      .more spaces (value.mono within) separates (others.mono within)

theorem ObjectText.mono (within : Within small large) {text after : List UInt8} :
    ObjectText small text after → ObjectText large text after
  | .empty spaces => .empty spaces
  | .members members => .members (members.mono within)

theorem Members.mono (within : Within small large) {text after : List UInt8} :
    Members small text after → Members large text after
  | .last spaces key names gap value closes =>
      .last spaces (key.mono within) names gap (value.mono within) closes
  | .more spaces key names gap value separates others =>
      .more spaces (key.mono within) names gap (value.mono within) separates (others.mono within)

end

theorem RootText.mono (within : Within small large) {kind : RootKind} {text : List UInt8}
    (holds : RootText small kind text) : RootText large kind text := by
  cases holds with
  | object spaces object closes => exact .object spaces (object.mono within) closes
  | array spaces array closes => exact .array spaces (array.mono within) closes

end Within

/-! ## What follows a value -/

/-- The text goes on with a blank or one of these bytes. -/
def Follows (bytes text : List UInt8) : Prop :=
  ∃ byte rest, text = byte :: rest ∧ (IsBlank byte ∨ byte ∈ bytes)

theorem Spaces.follows {byte : UInt8} {rest text bytes : List UInt8}
    (spaces : Spaces (byte :: rest) text) (member : byte ∈ bytes) : Follows bytes text := by
  cases spaces with
  | done => exact ⟨byte, rest, rfl, .inr member⟩
  | blank blank others => exact ⟨_, _, rfl, .inl blank⟩

end JsonSyntax
