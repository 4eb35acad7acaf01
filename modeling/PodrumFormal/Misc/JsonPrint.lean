import PodrumFormal.Lib.Decimal
import PodrumFormal.Misc.JsonObjects

/-!
# Printed values

Values as text, with blanks between the tokens, and what the parser makes of
them.  A quote inside a string ends it, with a backslash in front or not.
-/

set_option autoImplicit false

namespace PodrumMisc.JsonPrint

open CString Json JsonGrammar JsonStrings JsonScalars JsonParses JsonObjects Decimal

/-! ## The printer -/

def isBlank (char : UInt8) : Bool :=
  char = ' '.toUInt8 || char = '\n'.toUInt8 || char = '\r'.toUInt8

def isPlain (byte : UInt8) : Bool := byte ≠ 0 && !isForbidden byte

def escapeByte (byte : UInt8) : List UInt8 :=
  if byte = '"'.toUInt8 ∨ byte = '\\'.toUInt8 then ['\\'.toUInt8, byte] else [byte]

def printString (text : List UInt8) : List UInt8 :=
  '"'.toUInt8 :: (text.flatMap escapeByte ++ ['"'.toUInt8])

def printInt (value : Int) : List UInt8 :=
  if value < 0 then '-'.toUInt8 :: decimal value.natAbs else decimal value.natAbs

/-- What stands in front of a place in an array or an object. -/
inductive Place
  | opened
  | comma
  | key
  | colon
  | member
  deriving DecidableEq, Repr

def startsEntry : Place → Bool
  | .opened => true
  | .comma => true
  | _ => false

def closes : Place → Bool
  | .opened => true
  | .member => true
  | _ => false

mutual

/-- A value, a text that begins with it, and the text behind it. -/
inductive Printed : JsonMulti → List UInt8 → List UInt8 → Prop
  | string {text after : List UInt8} (plain : ∀ byte ∈ text, isPlain byte = true) :
      Printed (.string text) (printString text ++ after) after
  | int {value : Int} {after : List UInt8} (low : -2 ^ 63 ≤ value) (high : value < 2 ^ 63) :
      Printed (.number (.int value)) (printInt value ++ after) after
  | isTrue {after : List UInt8} : Printed (.bool true) (bytes "true" ++ after) after
  | isFalse {after : List UInt8} : Printed (.bool false) (bytes "false" ++ after) after
  | null {after : List UInt8} : Printed .null (bytes "null" ++ after) after
  | array {members : List JsonMulti} {rest after : List UInt8}
      (loop : PrintedMembers .opened members rest after) :
      Printed (.array members) ('['.toUInt8 :: rest) after
  | object {keys : List (List UInt8)} {members : List JsonMulti} {rest after : List UInt8}
      (loop : PrintedEntries .opened keys members rest after) :
      Printed (.object keys members) ('\x7b'.toUInt8 :: rest) after

inductive PrintedMembers : Place → List JsonMulti → List UInt8 → List UInt8 → Prop
  | blank {place : Place} {members : List JsonMulti} {char : UInt8} {rest after : List UInt8}
      (blank : isBlank char = true) (others : PrintedMembers place members rest after) :
      PrintedMembers place members (char :: rest) after
  | close {place : Place} {after : List UInt8} (closes : closes place = true) :
      PrintedMembers place [] (']'.toUInt8 :: after) after
  | member {place : Place} {member : JsonMulti} {members : List JsonMulti}
      {text middle after : List UInt8} (starts : startsEntry place = true)
      (head : Printed member text middle)
      (others : PrintedMembers .member members middle after) :
      PrintedMembers place (member :: members) text after
  | comma {members : List JsonMulti} {rest after : List UInt8}
      (others : PrintedMembers .comma members rest after) :
      PrintedMembers .member members (','.toUInt8 :: rest) after

inductive PrintedEntries :
    Place → List (List UInt8) → List JsonMulti → List UInt8 → List UInt8 → Prop
  | blank {place : Place} {keys : List (List UInt8)} {members : List JsonMulti} {char : UInt8}
      {rest after : List UInt8} (blank : isBlank char = true)
      (others : PrintedEntries place keys members rest after) :
      PrintedEntries place keys members (char :: rest) after
  | close {place : Place} {after : List UInt8} (closes : closes place = true) :
      PrintedEntries place [] [] ('\x7d'.toUInt8 :: after) after
  | key {place : Place} {key : List UInt8} {keys : List (List UInt8)} {members : List JsonMulti}
      {middle after : List UInt8} (starts : startsEntry place = true)
      (plain : ∀ byte ∈ key, isPlain byte = true)
      (others : PrintedEntries .key keys members middle after) :
      PrintedEntries place (key :: keys) members (printString key ++ middle) after
  | colon {keys : List (List UInt8)} {members : List JsonMulti} {rest after : List UInt8}
      (others : PrintedEntries .colon keys members rest after) :
      PrintedEntries .key keys members (':'.toUInt8 :: rest) after
  | member {keys : List (List UInt8)} {member : JsonMulti} {members : List JsonMulti}
      {text middle after : List UInt8} (head : Printed member text middle)
      (others : PrintedEntries .member keys members middle after) :
      PrintedEntries .colon keys (member :: members) text after
  | comma {keys : List (List UInt8)} {members : List JsonMulti} {rest after : List UInt8}
      (others : PrintedEntries .comma keys members rest after) :
      PrintedEntries .member keys members (','.toUInt8 :: rest) after

end

inductive QuoteFree : JsonMulti → Prop
  | string {text : List UInt8} (free : '"'.toUInt8 ∉ text) : QuoteFree (.string text)
  | number {value : JsonNumber} : QuoteFree (.number value)
  | bool {value : Bool} : QuoteFree (.bool value)
  | null : QuoteFree .null
  | array {members : List JsonMulti} (each : ∀ member ∈ members, QuoteFree member) :
      QuoteFree (.array members)
  | object {keys : List (List UInt8)} {members : List JsonMulti}
      (names : ∀ key ∈ keys, '"'.toUInt8 ∉ key) (each : ∀ member ∈ members, QuoteFree member) :
      QuoteFree (.object keys members)

/-! ## Tokens that are read back -/

theorem stringRest_printed {text after : List UInt8} (plain : ∀ byte ∈ text, isPlain byte = true)
    (free : '"'.toUInt8 ∉ text) :
    StringRest (text.flatMap escapeByte ++ '"'.toUInt8 :: after) text after := by
  induction text with
  | nil => exact .close
  | cons byte text ih =>
      obtain ⟨first, others⟩ := List.forall_mem_cons.mp plain
      have other : byte ≠ '"'.toUInt8 := fun same => free (same ▸ List.mem_cons_self)
      have rest := ih others fun member => free (List.mem_cons_of_mem _ member)
      rw [List.flatMap_cons, List.append_assoc, escapeByte]
      by_cases backslash : byte = '\\'.toUInt8
      · subst backslash
        rw [if_pos (.inr rfl)]
        exact .escape rfl rest
      · rw [if_neg (not_or_intro other backslash)]
        have allowed : isForbidden byte = false := by
          simp only [isPlain, Bool.and_eq_true, Bool.not_eq_true'] at first
          exact first.2
        exact .plain other allowed backslash rest

theorem stringText_printed {text after : List UInt8} (plain : ∀ byte ∈ text, isPlain byte = true)
    (free : '"'.toUInt8 ∉ text) : StringText (printString text ++ after) text after := by
  refine ⟨text.flatMap escapeByte ++ '"'.toUInt8 :: after, ?_, stringRest_printed plain free⟩
  rw [printString, List.cons_append, List.append_assoc]
  rfl

/-- The text goes on with a character that may follow a number. -/
def Ends (after : List UInt8) : Prop := ∃ char rest, after = char :: rest ∧ endsNumber char = true

theorem numberRest_digits {digits after : List UInt8} (srNumber : List UInt8)
    {expectDigit : Bool} (each : ∀ byte ∈ digits, isDigit byte = true)
    (some' : expectDigit = true → digits ≠ []) (ends : Ends after) :
    NumberRest expectDigit false srNumber (digits ++ after) (.int (atoll (srNumber ++ digits)))
      after := by
  induction digits generalizing srNumber expectDigit with
  | nil =>
      obtain ⟨char, rest, rfl, terminator⟩ := ends
      have unexpected : expectDigit = false :=
        Bool.eq_false_iff.mpr fun expected => some' expected rfl
      subst unexpected
      rw [List.append_nil]
      exact .ends terminator
  | cons digit digits ih =>
      obtain ⟨first, others⟩ := List.forall_mem_cons.mp each
      have rest := ih (srNumber ++ [digit]) others
        (fun expected : false = true => by cases expected)
      rw [List.append_assoc, List.singleton_append] at rest
      exact .digit first rest

theorem isDigit_decimal {value : Nat} : ∀ byte ∈ decimal value, isDigit byte = true := by
  intro byte member
  obtain ⟨low, high⟩ := decimal_range byte member
  have both : (decide ('0'.toUInt8 ≤ byte) && decide (byte ≤ '9'.toUInt8)) = true := by
    rw [Bool.and_eq_true, decide_eq_true_eq, decide_eq_true_eq]
    exact ⟨low, high⟩
  exact both

theorem atoll_negative (digits : List UInt8) :
    atoll ('-'.toUInt8 :: digits) = max (-2 ^ 63) (-(evaluate digits : Int)) := rfl

theorem atoll_digits {first : UInt8} {digits : List UInt8} (digit : isDigit first = true) :
    atoll (first :: digits) = min (2 ^ 63 - 1) (evaluate (first :: digits) : Int) := by
  have other : first ≠ '-'.toUInt8 := by
    rintro rfl
    cases digit
  exact if_neg other

theorem numberText_printed {value : Int} {after : List UInt8} (low : -2 ^ 63 ≤ value)
    (high : value < 2 ^ 63) (ends : Ends after) :
    NumberText (printInt value ++ after) (.int value) after := by
  have evaluated := evaluate_decimal value.natAbs
  have each : ∀ byte ∈ decimal value.natAbs, isDigit byte = true := isDigit_decimal
  rw [printInt]
  split
  · rename_i negative
    have number : atoll (['-'.toUInt8] ++ decimal value.natAbs) = value := by
      rw [List.singleton_append, atoll_negative, evaluated]
      omega
    have digits := numberRest_digits ['-'.toUInt8] each
      (fun _ : true = true => decimal_ne_nil _) ends
    rw [number] at digits
    exact ⟨_, _, List.cons_append .., rfl, digits⟩
  · rename_i positive
    cases spelled : decimal value.natAbs with
    | nil => exact absurd spelled (decimal_ne_nil _)
    | cons first others =>
        rw [spelled] at each evaluated
        obtain ⟨digit, rest⟩ := List.forall_mem_cons.mp each
        have other : decide (first = '-'.toUInt8) = false := by
          rw [decide_eq_false_iff_not]
          rintro rfl
          cases digit
        have number : atoll ([first] ++ others) = value := by
          rw [List.singleton_append, atoll_digits digit, evaluated]
          omega
        have digits := numberRest_digits [first] rest
          (fun expected : false = true => by cases expected) ends
        rw [number] at digits
        have starts : startsNumber first = true := by rw [startsNumber, digit, Bool.true_or]
        refine ⟨first, _, List.cons_append .., starts, ?_⟩
        rw [other]
        exact digits

/-! ## Values without quotes are read back -/

theorem isSpace_blank {char : UInt8} (blank : isBlank char = true) : isSpace char = true := by
  simp only [isBlank, Bool.or_eq_true, decide_eq_true_eq] at blank
  rcases blank with (rfl | rfl) | rfl <;> rfl

theorem endsNumber_blank {char : UInt8} (blank : isBlank char = true) : endsNumber char = true := by
  simp only [isBlank, Bool.or_eq_true, decide_eq_true_eq] at blank
  rcases blank with (rfl | rfl) | rfl <;> rfl

theorem members_end {members : List JsonMulti} {text after : List UInt8}
    (printed : PrintedMembers .member members text after) : Ends text := by
  cases printed with
  | blank blank _ => exact ⟨_, _, rfl, endsNumber_blank blank⟩
  | close _ => exact ⟨_, _, rfl, rfl⟩
  | member starts _ _ => cases starts
  | comma _ => exact ⟨_, _, rfl, rfl⟩

theorem entries_end {keys : List (List UInt8)} {members : List JsonMulti}
    {text after : List UInt8} (printed : PrintedEntries .member keys members text after) :
    Ends text := by
  cases printed with
  | blank blank _ => exact ⟨_, _, rfl, endsNumber_blank blank⟩
  | close _ => exact ⟨_, _, rfl, rfl⟩
  | key starts _ _ => cases starts
  | comma _ => exact ⟨_, _, rfl, rfl⟩

/-- What the object loop expects behind a place. -/
def expected : Place → Expect
  | .opened => .key
  | .comma => .key
  | .key => .colon
  | .colon => .member
  | .member => .seporator

theorem expected_start {place : Place} (starts : startsEntry place = true) :
    expected place = .key := by
  cases place <;> first | rfl | cases starts

mutual

theorem member_of_printed {value : JsonMulti} {text after : List UInt8} :
    Printed value text after → QuoteFree value → Ends after → Member text value after
  | .string plain, .string free, _ => .scalar (.string (stringText_printed plain free))
  | .int low high, _, ends => .scalar (.number (numberText_printed low high ends))
  | .isTrue, _, _ => .scalar .isTrue
  | .isFalse, _, _ => .scalar .isFalse
  | .null, _, _ => .scalar .null
  | .array loop, .array each, _ => .array (array_of_printed loop each [])
  | .object loop, .object names each, _ => .object (object_of_printed loop names each [] [])

theorem array_of_printed {place : Place} {members : List JsonMulti} {text after : List UInt8} :
    PrintedMembers place members text after → (∀ member ∈ members, QuoteFree member) →
      ∀ before, ArrayRest (startsEntry place) before text (.array (before ++ members)) after
  | .blank blank others, each, before =>
      .space (isSpace_blank blank) (array_of_printed others each before)
  | .close _, _, before => by
      rw [List.append_nil]
      exact .close
  | @PrintedMembers.member _ member _ _ _ _ starts head others, each, before => by
      obtain ⟨first, later⟩ := List.forall_mem_cons.mp each
      have rest := array_of_printed others later (before ++ [member])
      rw [List.append_assoc, List.singleton_append] at rest
      rw [starts]
      exact .member (member_of_printed head first (members_end others)) rest
  | .comma others, each, before => .seporator (array_of_printed others each before)

theorem object_of_printed {place : Place} {keys : List (List UInt8)} {members : List JsonMulti}
    {text after : List UInt8} :
    PrintedEntries place keys members text after → (∀ key ∈ keys, '"'.toUInt8 ∉ key) →
      (∀ member ∈ members, QuoteFree member) → ∀ beforeKeys before,
      ObjectRest (expected place) beforeKeys before text
        (.object (beforeKeys ++ keys) (before ++ members)) after
  | .blank blank others, names, each, beforeKeys, before =>
      .space (isSpace_blank blank) (object_of_printed others names each beforeKeys before)
  | .close _, _, _, beforeKeys, before => by
      rw [List.append_nil, List.append_nil]
      exact .close
  | @PrintedEntries.key _ key _ _ _ _ starts plain others, names, each, beforeKeys, before => by
      obtain ⟨first, later⟩ := List.forall_mem_cons.mp names
      have rest := object_of_printed others later each (beforeKeys ++ [key]) before
      rw [List.append_assoc, List.singleton_append] at rest
      rw [expected_start starts]
      exact .key (stringText_printed plain first) rest
  | .colon others, names, each, beforeKeys, before =>
      .colon (object_of_printed others names each beforeKeys before)
  | @PrintedEntries.member _ member members _ _ _ head others, names, each, beforeKeys, before => by
      obtain ⟨first, later⟩ := List.forall_mem_cons.mp each
      have rest := object_of_printed others names later beforeKeys (before ++ [member])
      rw [List.append_assoc before [member] members, List.singleton_append] at rest
      exact .member (member_of_printed head first (entries_end others)) rest
  | .comma others, names, each, beforeKeys, before =>
      .seporator (object_of_printed others names each beforeKeys before)

end

/-! ## Where a string may begin -/

/-- Up to its end the text is a row of bytes that are no backslash, and of
backslashes with a backslash or a quote behind them.  A parser that stands at
such a place, whether between tokens or in a string, stays at such places. -/
inductive Aligned (after : List UInt8) : List UInt8 → Prop
  | done : Aligned after after
  | plain {char : UInt8} {rest : List UInt8} (other : char ≠ '\\'.toUInt8)
      (others : Aligned after rest) : Aligned after (char :: rest)
  | escape {char : UInt8} {rest : List UInt8} (known : char = '\\'.toUInt8 ∨ char = '"'.toUInt8)
      (others : Aligned after rest) : Aligned after ('\\'.toUInt8 :: char :: rest)

section Aligned

variable {after rest : List UInt8}

/-- The words of the literals have no escapes. -/
theorem unescaped {word : List UInt8} (all : word.all (fun byte => byte ≠ '\\'.toUInt8) = true) :
    ∀ byte ∈ word, byte ≠ '\\'.toUInt8 := fun byte member =>
  of_decide_eq_true (List.all_eq_true.mp all byte member)

theorem Aligned.append {block : List UInt8} (plain : ∀ byte ∈ block, byte ≠ '\\'.toUInt8)
    (others : Aligned after rest) : Aligned after (block ++ rest) := by
  induction block with
  | nil => exact others
  | cons byte block ih =>
      obtain ⟨first, later⟩ := List.forall_mem_cons.mp plain
      exact .plain first (ih later)

theorem Aligned.string {text : List UInt8} (others : Aligned after rest) :
    Aligned after (printString text ++ rest) := by
  have closed : Aligned after (text.flatMap escapeByte ++ '"'.toUInt8 :: rest) := by
    induction text with
    | nil => exact .plain (by decide) others
    | cons byte text ih =>
        rw [List.flatMap_cons, List.append_assoc, escapeByte]
        split
        · rename_i known
          exact .escape known.symm ih
        · rename_i unknown
          exact .plain (fun same => unknown (.inr same)) ih
  rw [printString, List.cons_append, List.append_assoc]
  exact .plain (by decide) closed

theorem Aligned.int {value : Int} (others : Aligned after rest) :
    Aligned after (printInt value ++ rest) := by
  have digits : ∀ byte ∈ decimal value.natAbs, byte ≠ '\\'.toUInt8 := by
    rintro byte member rfl
    exact absurd (decimal_range _ member).2 (by decide)
  rw [printInt]
  split
  · exact .plain (by decide) (others.append digits)
  · exact others.append digits

theorem Aligned.tail {char : UInt8} (aligned : Aligned after (char :: rest))
    (inside : after.length ≤ rest.length) (other : char ≠ '\\'.toUInt8) : Aligned after rest := by
  cases aligned with
  | done => exact absurd inside (Nat.not_succ_le_self _)
  | plain _ others => exact others
  | escape _ _ => exact absurd rfl other

theorem Aligned.escaped {char : UInt8} (aligned : Aligned after ('\\'.toUInt8 :: char :: rest))
    (inside : after.length ≤ rest.length) :
    (char = '\\'.toUInt8 ∨ char = '"'.toUInt8) ∧ Aligned after rest := by
  cases aligned with
  | done => exact absurd inside (Nat.not_le.mpr (Nat.lt_add_of_pos_right (by decide : 0 < 2)))
  | plain other _ => exact absurd rfl other
  | escape known others => exact ⟨known, others⟩

theorem Aligned.drop {block : List UInt8} (aligned : Aligned after (block ++ rest))
    (inside : after.length ≤ rest.length) (plain : ∀ byte ∈ block, byte ≠ '\\'.toUInt8) :
    Aligned after rest := by
  induction block with
  | nil => exact aligned
  | cons byte block ih =>
      obtain ⟨first, later⟩ := List.forall_mem_cons.mp plain
      have further : after.length ≤ (block ++ rest).length := by
        rw [List.length_append]
        exact Nat.le_add_left_of_le inside
      exact ih (aligned.tail further first) later

end Aligned

mutual

theorem aligned_printed {last : List UInt8} {value : JsonMulti} {text after : List UInt8} :
    Printed value text after → Aligned last after → Aligned last text
  | .string _, others => others.string
  | .int _ _, others => others.int
  | .isTrue, others => others.append (unescaped rfl)
  | .isFalse, others => others.append (unescaped rfl)
  | .null, others => others.append (unescaped rfl)
  | .array loop, others => .plain (by decide) (aligned_members loop others)
  | .object loop, others => .plain (by decide) (aligned_entries loop others)

theorem aligned_members {last : List UInt8} {place : Place} {members : List JsonMulti}
    {text after : List UInt8} :
    PrintedMembers place members text after → Aligned last after → Aligned last text
  | .blank blank rest, others =>
      .plain (by rintro rfl; cases blank) (aligned_members rest others)
  | .close _, others => .plain (by decide) others
  | .member _ head rest, others => aligned_printed head (aligned_members rest others)
  | .comma rest, others => .plain (by decide) (aligned_members rest others)

theorem aligned_entries {last : List UInt8} {place : Place} {keys : List (List UInt8)}
    {members : List JsonMulti} {text after : List UInt8} :
    PrintedEntries place keys members text after → Aligned last after → Aligned last text
  | .blank blank rest, others =>
      .plain (by rintro rfl; cases blank) (aligned_entries rest others)
  | .close _, others => .plain (by decide) others
  | .key _ _ rest, others => (aligned_entries rest others).string
  | .colon rest, others => .plain (by decide) (aligned_entries rest others)
  | .member head rest, others => aligned_printed head (aligned_entries rest others)
  | .comma rest, others => .plain (by decide) (aligned_entries rest others)

end

/-! ## What is read from such places has no quotes -/

theorem escaped_ne_quote {char plain : UInt8} (known : escaped char = some plain) :
    plain ≠ '"'.toUInt8 := by
  rintro rfl
  unfold escaped at known
  repeat' split at known
  all_goals cases known

theorem stringRest_quoteFree {after text out rest : List UInt8} (holds : StringRest text out rest)
    (aligned : Aligned after text) (inside : after.length ≤ rest.length) :
    '"'.toUInt8 ∉ out ∧ Aligned after rest := by
  induction holds with
  | close => exact ⟨List.not_mem_nil, aligned.tail inside (by decide)⟩
  | escapeClose => exact ⟨List.not_mem_nil, (aligned.escaped inside).2⟩
  | plain notQuote _ notBackslash others ih =>
      have within := Nat.le_trans inside (Nat.le_of_lt others.length_lt)
      obtain ⟨free, later⟩ := ih (aligned.tail within notBackslash) inside
      exact ⟨fun member => (List.mem_cons.mp member).elim notQuote.symm free, later⟩
  | escape known others ih =>
      have within := Nat.le_trans inside (Nat.le_of_lt others.length_lt)
      obtain ⟨free, later⟩ := ih (aligned.escaped within).2 inside
      exact ⟨fun member => (List.mem_cons.mp member).elim (escaped_ne_quote known).symm free, later⟩
  | unicode _ second _ others _ =>
      have shorter := others.length_lt
      have short := second.length_le
      obtain ⟨known | known, -⟩ := aligned.escaped (by simp only [List.length_cons]; omega)
      · exact absurd known (by decide)
      · exact absurd known (by decide)

theorem stringText_quoteFree {after text out rest : List UInt8} (holds : StringText text out rest)
    (aligned : Aligned after text) (inside : after.length ≤ rest.length) :
    '"'.toUInt8 ∉ out ∧ Aligned after rest := by
  obtain ⟨tail, rfl, others⟩ := holds
  have within := Nat.le_trans inside (Nat.le_of_lt others.length_lt)
  exact stringRest_quoteFree others (aligned.tail within (by decide)) inside

theorem numberRest_aligned {expectDigit once : Bool} {srNumber text rest after : List UInt8}
    {number : JsonNumber} (holds : NumberRest expectDigit once srNumber text number rest)
    (aligned : Aligned after text) (inside : after.length ≤ rest.length) : Aligned after rest := by
  induction holds with
  | digit digit others ih =>
      have within := Nat.le_trans inside others.length_le
      exact ih (aligned.tail within (by rintro rfl; cases digit)) inside
  | point others ih =>
      exact ih (aligned.tail (Nat.le_trans inside others.length_le) (by decide)) inside
  | ends _ => exact aligned

theorem scalar_quoteFree {text rest after : List UInt8} {member : JsonMulti}
    (holds : Scalar text member rest) (aligned : Aligned after text)
    (inside : after.length ≤ rest.length) : QuoteFree member ∧ Aligned after rest := by
  cases holds with
  | string holds =>
      obtain ⟨free, later⟩ := stringText_quoteFree holds aligned inside
      exact ⟨.string free, later⟩
  | null => exact ⟨.null, aligned.drop inside (unescaped rfl)⟩
  | isTrue => exact ⟨.bool, aligned.drop inside (unescaped rfl)⟩
  | isFalse => exact ⟨.bool, aligned.drop inside (unescaped rfl)⟩
  | number holds =>
      obtain ⟨char, tail, rfl, starts, others⟩ := holds
      have other : char ≠ '\\'.toUInt8 := by
        rintro rfl
        cases starts
      have within := Nat.le_trans inside others.length_le
      exact ⟨.number, numberRest_aligned others (aligned.tail within other) inside⟩

theorem space_ne_backslash {char : UInt8} (space : isSpace char = true) : char ≠ '\\'.toUInt8 := by
  rintro rfl
  cases space

theorem quoteFree_snoc {members : List JsonMulti} {member : JsonMulti}
    (each : ∀ other ∈ members, QuoteFree other) (last : QuoteFree member) :
    ∀ other ∈ members ++ [member], QuoteFree other := by
  intro other among
  rcases List.mem_append.mp among with before | here
  · exact each other before
  · exact List.mem_singleton.mp here ▸ last

theorem quoteless_snoc {keys : List (List UInt8)} {key : List UInt8}
    (names : ∀ other ∈ keys, '"'.toUInt8 ∉ other) (last : '"'.toUInt8 ∉ key) :
    ∀ other ∈ keys ++ [key], '"'.toUInt8 ∉ other := by
  intro other among
  rcases List.mem_append.mp among with before | here
  · exact names other before
  · exact List.mem_singleton.mp here ▸ last

mutual

theorem member_quoteFree {last text after : List UInt8} {member : JsonMulti} :
    Member text member after → Aligned last text → last.length ≤ after.length →
      QuoteFree member ∧ Aligned last after
  | .scalar holds, aligned, inside => scalar_quoteFree holds aligned inside
  | .object loop, aligned, inside =>
      have within := Nat.le_trans inside (Nat.le_of_lt loop.length_lt)
      object_quoteFree loop (aligned.tail within (by decide)) inside (List.forall_mem_nil _)
        (List.forall_mem_nil _)
  | .array loop, aligned, inside =>
      have within := Nat.le_trans inside (Nat.le_of_lt loop.length_lt)
      array_quoteFree loop (aligned.tail within (by decide)) inside (List.forall_mem_nil _)

theorem array_quoteFree {last text after : List UInt8} {expectMember : Bool}
    {members : List JsonMulti} {array : JsonMulti} :
    ArrayRest expectMember members text array after → Aligned last text →
      last.length ≤ after.length → (∀ member ∈ members, QuoteFree member) →
      QuoteFree array ∧ Aligned last after
  | .close, aligned, inside, each => ⟨.array each, aligned.tail inside (by decide)⟩
  | .space space others, aligned, inside, each =>
      have within := Nat.le_trans inside (Nat.le_of_lt others.length_lt)
      array_quoteFree others (aligned.tail within (space_ne_backslash space)) inside each
  | .member head others, aligned, inside, each =>
      have within := Nat.le_trans inside (Nat.le_of_lt others.length_lt)
      have ⟨first, later⟩ := member_quoteFree head aligned within
      array_quoteFree others later inside (quoteFree_snoc each first)
  | .seporator others, aligned, inside, each =>
      have within := Nat.le_trans inside (Nat.le_of_lt others.length_lt)
      array_quoteFree others (aligned.tail within (by decide)) inside each

theorem object_quoteFree {last text after : List UInt8} {expect : Expect}
    {keys : List (List UInt8)} {members : List JsonMulti} {object : JsonMulti} :
    ObjectRest expect keys members text object after → Aligned last text →
      last.length ≤ after.length → (∀ key ∈ keys, '"'.toUInt8 ∉ key) →
      (∀ member ∈ members, QuoteFree member) → QuoteFree object ∧ Aligned last after
  | .close, aligned, inside, names, each =>
      ⟨.object names each, aligned.tail inside (by decide)⟩
  | .space space others, aligned, inside, names, each =>
      have within := Nat.le_trans inside (Nat.le_of_lt others.length_lt)
      object_quoteFree others (aligned.tail within (space_ne_backslash space)) inside names each
  | .key head others, aligned, inside, names, each =>
      have within := Nat.le_trans inside (Nat.le_of_lt others.length_lt)
      have ⟨first, later⟩ := stringText_quoteFree head aligned within
      object_quoteFree others later inside (quoteless_snoc names first) each
  | .colon others, aligned, inside, names, each =>
      have within := Nat.le_trans inside (Nat.le_of_lt others.length_lt)
      object_quoteFree others (aligned.tail within (by decide)) inside names each
  | .member head others, aligned, inside, names, each =>
      have within := Nat.le_trans inside (Nat.le_of_lt others.length_lt)
      have ⟨first, later⟩ := member_quoteFree head aligned within
      object_quoteFree others later inside names (quoteFree_snoc each first)
  | .seporator others, aligned, inside, names, each =>
      have within := Nat.le_trans inside (Nat.le_of_lt others.length_lt)
      object_quoteFree others (aligned.tail within (by decide)) inside names each

end

end PodrumMisc.JsonPrint
