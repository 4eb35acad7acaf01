import PodrumFormal.Misc.JsonStrings

/-!
# The scalar parsers take their grammar

Words, numbers and the attempts in front of an object or an array.
-/

set_option autoImplicit false

namespace PodrumMisc.JsonScalars

open CString Json JsonGrammar JsonStrings

/-! ## Words -/

/-- A comparison ends at the terminator at the latest. -/
theorem startsWith_eq {word : List UInt8} (nonzero : 0 ∉ word) (text : List UInt8) :
    startsWith word (text ++ [0]) = .ok (word.isPrefixOf text) := by
  induction word generalizing text with
  | nil => rw [startsWith, List.isPrefixOf_nil_left]
  | cons char word ih =>
      have others : 0 ∉ word := fun member => nonzero (List.mem_cons_of_mem _ member)
      cases text with
      | nil =>
          have other : (0 : UInt8) ≠ char := fun same => nonzero (same ▸ List.mem_cons_self ..)
          rw [List.nil_append, startsWith, if_neg other]
          rfl
      | cons byte rest =>
          rw [List.cons_append, startsWith]
          split
          · rename_i same
            rw [ih others, same, List.isPrefixOf, beq_self_eq_true, Bool.true_and]
          · rename_i other
            have unequal : (char == byte) = false := beq_false_of_ne (Ne.symm other)
            rw [List.isPrefixOf, unequal, Bool.false_and]

section Words

variable {length : Nat} {text after word : List UInt8}

theorem startsWith_append (nonzero : 0 ∉ word) :
    startsWith word (inputAt length (word ++ after)).rest = .ok true := by
  rw [inputAt, startsWith_eq nonzero, List.isPrefixOf_iff_prefix.mpr (List.prefix_append ..)]

theorem startsWith_other (nonzero : 0 ∉ word) (other : ¬word <+: text) :
    startsWith word (inputAt length text).rest = .ok false := by
  rw [inputAt, startsWith_eq nonzero, Bool.eq_false_iff.mpr fun found =>
    other (List.isPrefixOf_iff_prefix.mp found)]

theorem skip_append (fits : (word ++ after).length ≤ length) :
    (inputAt length (word ++ after)).skip word.length = inputAt length after := by
  rw [List.length_append] at fits
  simp only [inputAt, JsonInput.skip, List.append_assoc, List.drop_left, List.length_append]
  congr 1
  omega

theorem parseJsonNull_word (fits : (bytes "null" ++ after).length ≤ length) :
    parseJsonNull (inputAt length (bytes "null" ++ after)) =
      .ok (true, inputAt length after) := by
  have room := (room_iff fits 3).mpr (by rw [List.length_append]; exact Nat.le_add_right 4 _)
  rw [parseJsonNull, if_pos (Or.inr room), startsWith_append (by decide), ok_bind,
    ← skip_append fits]
  rfl

theorem parseJsonNull_other (other : ¬bytes "null" <+: text) :
    parseJsonNull (inputAt length text) = .ok (false, inputAt length text) := by
  rw [parseJsonNull, startsWith_other (by decide) other]
  split <;> rfl

theorem parseJsonBool_true (fits : (bytes "true" ++ after).length ≤ length) :
    parseJsonBool (inputAt length (bytes "true" ++ after)) =
      .ok (some true, inputAt length after) := by
  have room := (room_iff fits 3).mpr (by rw [List.length_append]; exact Nat.le_add_right 4 _)
  rw [parseJsonBool, if_pos room, startsWith_append (by decide), ok_bind, ← skip_append fits]
  rfl

theorem parseJsonBool_false (fits : (bytes "false" ++ after).length ≤ length) :
    parseJsonBool (inputAt length (bytes "false" ++ after)) =
      .ok (some false, inputAt length after) := by
  have room := (room_iff fits 3).mpr (by
    rw [List.length_append]
    exact Nat.lt_of_lt_of_le (by decide) (Nat.le_add_right 5 _))
  have room' := (room_iff fits 4).mpr (by rw [List.length_append]; exact Nat.le_add_right 5 _)
  have other : ¬bytes "true" <+: bytes "false" ++ after := by
    rintro ⟨rest, same⟩
    exact absurd (List.cons.inj same).1 (by decide)
  rw [parseJsonBool, if_pos room, startsWith_other (by decide) other, ok_bind]
  simp only [Bool.false_eq_true, if_false]
  rw [if_pos room', startsWith_append (by decide), ok_bind, ← skip_append fits]
  rfl

theorem parseJsonBool_other (notTrue : ¬bytes "true" <+: text)
    (notFalse : ¬bytes "false" <+: text) :
    parseJsonBool (inputAt length text) = .ok (none, inputAt length text) := by
  rw [parseJsonBool, startsWith_other (by decide) notTrue, startsWith_other (by decide) notFalse]
  split <;> split <;> rfl

end Words

/-! ## Numbers -/

theorem endsNumber_other {char : UInt8} (ends : endsNumber char = true) :
    isDigit char = false ∧ char ≠ '.'.toUInt8 := by
  simp only [endsNumber, Bool.or_eq_true, decide_eq_true_eq] at ends
  rcases ends with ((((rfl | rfl) | rfl) | rfl) | rfl) | rfl <;> decide

section Numbers

variable {length fuel : Nat} {expectDigit once : Bool} {srNumber : List UInt8}

theorem numberLoop_cons {char : UInt8} {rest : List UInt8}
    (fits : (char :: rest).length ≤ length) :
    parseJsonNumberLoop (fuel + 1) expectDigit once srNumber (inputAt length (char :: rest)) =
      if isDigit char then
        parseJsonNumberLoop fuel false once (srNumber ++ [char]) (inputAt length rest)
      else if expectDigit then .error .exit
      else if char = '.'.toUInt8 ∧ ¬once then
        parseJsonNumberLoop fuel true true (srNumber ++ [char]) (inputAt length rest)
      else if endsNumber char then
        .ok (if once then .float srNumber else .int (atoll srNumber),
          inputAt length (char :: rest))
      else .error .exit := by
  rw [parseJsonNumberLoop, if_pos (inside_cons fits), peek_cons, ok_bind, advance_cons fits]
  rfl

theorem numberLoop_nil (result : JsonNumber × JsonInput) :
    parseJsonNumberLoop fuel expectDigit once srNumber (inputAt length []) ≠ .ok result := by
  intro success
  cases fuel with
  | zero => cases success
  | succ fuel =>
      rw [parseJsonNumberLoop, if_neg outside_nil] at success
      cases success

end Numbers

theorem numberLoop_sound {length : Nat} : ∀ (fuel : Nat) (expectDigit once : Bool)
    (srNumber text : List UInt8) (number : JsonNumber) (next : JsonInput), text.length ≤ length →
    parseJsonNumberLoop fuel expectDigit once srNumber (inputAt length text) =
      .ok (number, next) →
    ∃ after, NumberRest expectDigit once srNumber text number after ∧
      next = inputAt length after := by
  intro fuel
  induction fuel with
  | zero => intro _ _ _ _ _ _ _ success; cases success
  | succ fuel ih =>
      intro expectDigit once srNumber text number next fits success
      cases text with
      | nil => exact absurd success (numberLoop_nil _)
      | cons char rest =>
          have restFits : rest.length ≤ length := Nat.le_of_succ_le fits
          rw [numberLoop_cons fits] at success
          split at success
          · rename_i digit
            obtain ⟨after, holds, same⟩ := ih _ _ _ _ _ _ restFits success
            exact ⟨after, .digit digit holds, same⟩
          split at success
          · cases success
          rename_i noDigit
          obtain rfl : expectDigit = false := by simpa using noDigit
          split at success
          · rename_i point
            obtain ⟨rfl, first⟩ := point
            obtain rfl : once = false := by simpa using first
            obtain ⟨after, holds, same⟩ := ih _ _ _ _ _ _ restFits success
            exact ⟨after, .point holds, same⟩
          split at success
          · rename_i ends
            cases success
            exact ⟨char :: rest, .ends ends, rfl⟩
          · cases success

theorem numberLoop_complete {length : Nat} {expectDigit once : Bool}
    {srNumber text after : List UInt8} {number : JsonNumber}
    (holds : NumberRest expectDigit once srNumber text number after) :
    ∀ fuel, text.length < fuel → text.length ≤ length →
      parseJsonNumberLoop fuel expectDigit once srNumber (inputAt length text) =
        .ok (number, inputAt length after) := by
  induction holds with
  | digit digit others ih =>
      rintro (_ | fuel) enough fits
      · exact absurd enough (Nat.not_lt_zero _)
      · rw [numberLoop_cons fits, if_pos digit]
        exact ih fuel (Nat.lt_of_succ_lt_succ enough) (Nat.le_of_succ_le fits)
  | point others ih =>
      rintro (_ | fuel) enough fits
      · exact absurd enough (Nat.not_lt_zero _)
      · rw [numberLoop_cons fits, if_neg (by decide), if_neg (by decide),
          if_pos ⟨rfl, Bool.false_ne_true⟩]
        exact ih fuel (Nat.lt_of_succ_lt_succ enough) (Nat.le_of_succ_le fits)
  | ends ends =>
      obtain ⟨notDigit, notPoint⟩ := endsNumber_other ends
      rintro (_ | fuel) enough fits
      · exact absurd enough (Nat.not_lt_zero _)
      · rw [numberLoop_cons fits, if_neg (by simp [notDigit]), if_neg Bool.false_ne_true,
          if_neg fun point => notPoint point.1, if_pos ends]

section Number

variable {length : Nat} {char : UInt8} {text rest : List UInt8}

theorem startsNumber_iff :
    isDigit char = true ∨ char = '-'.toUInt8 ↔ startsNumber char = true := by
  rw [startsNumber, Bool.or_eq_true, decide_eq_true_eq]

theorem parseJsonNumber_cons (fits : (char :: rest).length ≤ length) :
    parseJsonNumber (inputAt length (char :: rest)) =
      if startsNumber char then
        (parseJsonNumberLoop ((inputAt length (char :: rest)).rest.length + 1)
          (char = '-'.toUInt8) false [char] (inputAt length rest)).map fun result =>
            (some result.1, result.2)
      else .ok (none, inputAt length (char :: rest)) := by
  rw [parseJsonNumber, if_pos (inside_cons fits), peek_cons, ok_bind, advance_cons fits]
  simp only [startsNumber_iff]
  rfl

theorem parseJsonNumber_nil (result : Option JsonNumber × JsonInput) :
    parseJsonNumber (inputAt length []) ≠ .ok result := by
  rw [parseJsonNumber, if_neg outside_nil]
  exact fun success => by cases success

theorem parseJsonNumber_iff {number : JsonNumber} {next : JsonInput}
    (fits : text.length ≤ length) :
    parseJsonNumber (inputAt length text) = .ok (some number, next) ↔
      ∃ after, NumberText text number after ∧ next = inputAt length after := by
  constructor
  · intro success
    cases text with
    | nil => exact absurd success (parseJsonNumber_nil _)
    | cons char rest =>
        rw [parseJsonNumber_cons fits] at success
        split at success
        · rename_i starts
          obtain ⟨⟨found, last⟩, loop, same⟩ := map_eq_ok.mp success
          cases same
          obtain ⟨after, holds, same⟩ :=
            numberLoop_sound _ _ _ _ _ _ _ (Nat.le_of_succ_le fits) loop
          exact ⟨after, ⟨char, rest, rfl, starts, holds⟩, same⟩
        · cases success
  · rintro ⟨after, ⟨char, rest, rfl, starts, holds⟩, rfl⟩
    have enough : rest.length < (inputAt length (char :: rest)).rest.length + 1 := by
      simp only [inputAt, List.length_append, List.length_cons]
      omega
    rw [parseJsonNumber_cons fits, if_pos starts,
      numberLoop_complete holds _ enough (Nat.le_of_succ_le fits)]
    rfl

end Number

/-! ## The attempts in turn -/

section Scalars

variable {length : Nat} {text after : List UInt8}

theorem head?_eq {word : List UInt8} (some' : word ≠ []) (found : word <+: text) :
    text.head? = word.head? := by
  obtain ⟨rest, rfl⟩ := found
  cases word with
  | nil => exact absurd rfl some'
  | cons char word => rfl

theorem parseScalar_null {input : JsonInput} (other : text.head? ≠ some '"'.toUInt8)
    (found : parseJsonNull (inputAt length text) = .ok (true, input)) :
    parseScalar (inputAt length text) = .ok (some .null, input) := by
  rw [parseScalar, parseJsonString_none other, ok_bind]
  dsimp only
  rw [found]
  rfl

theorem parseScalar_bool {value : Bool} {input : JsonInput}
    (other : text.head? ≠ some '"'.toUInt8) (notNull : ¬bytes "null" <+: text)
    (found : parseJsonBool (inputAt length text) = .ok (some value, input)) :
    parseScalar (inputAt length text) = .ok (some (.bool value), input) := by
  rw [parseScalar, parseJsonString_none other, ok_bind]
  dsimp only
  rw [parseJsonNull_other notNull, ok_bind]
  simp only [Bool.false_eq_true, if_false, found, ok_bind]
  rfl

/-- Where the first character is not one of a string or a word. -/
structure Unworded (text : List UInt8) : Prop where
  quote : text.head? ≠ some '"'.toUInt8
  null : ¬bytes "null" <+: text
  isTrue : ¬bytes "true" <+: text
  isFalse : ¬bytes "false" <+: text

theorem parseScalar_unworded (other : Unworded text) :
    parseScalar (inputAt length text) =
      (parseJsonNumber (inputAt length text)).map fun result =>
        (result.1.map .number, result.2) := by
  rw [parseScalar, parseJsonString_none other.quote, ok_bind]
  dsimp only
  rw [parseJsonNull_other other.null, ok_bind]
  simp only [Bool.false_eq_true, if_false, parseJsonBool_other other.isTrue other.isFalse, ok_bind]
  rfl

theorem unworded_of_head {char : UInt8} {rest : List UInt8} (quote : char ≠ '"'.toUInt8)
    (null : char ≠ 'n'.toUInt8) (isTrue : char ≠ 't'.toUInt8) (isFalse : char ≠ 'f'.toUInt8) :
    Unworded (char :: rest) where
  quote same := quote (Option.some.inj same)
  null found := null (Option.some.inj (head?_eq (by decide) found))
  isTrue found := isTrue (Option.some.inj (head?_eq (by decide) found))
  isFalse found := isFalse (Option.some.inj (head?_eq (by decide) found))

theorem unworded_of_number {char : UInt8} {rest : List UInt8}
    (starts : startsNumber char = true) : Unworded (char :: rest) := by
  refine unworded_of_head ?_ ?_ ?_ ?_
  all_goals
    rintro rfl
    exact absurd starts (by decide)

theorem parseScalar_complete {member : JsonMulti} (fits : text.length ≤ length)
    (holds : Scalar text member after) :
    parseScalar (inputAt length text) = .ok (some member, inputAt length after) := by
  cases holds with
  | @string _ out _ holds =>
      rw [parseScalar, (parseJsonString_iff fits).mpr ⟨after, holds, rfl⟩]
      rfl
  | null =>
      have head := head?_eq (by decide) (List.prefix_append (bytes "null") after)
      exact parseScalar_null (by rw [head]; decide) (parseJsonNull_word fits)
  | isTrue =>
      have head := head?_eq (by decide) (List.prefix_append (bytes "true") after)
      have notNull : ¬bytes "null" <+: bytes "true" ++ after := fun found =>
        absurd (head.symm.trans (head?_eq (by decide) found)) (by decide)
      exact parseScalar_bool (by rw [head]; decide) notNull (parseJsonBool_true fits)
  | isFalse =>
      have head := head?_eq (by decide) (List.prefix_append (bytes "false") after)
      have notNull : ¬bytes "null" <+: bytes "false" ++ after := fun found =>
        absurd (head.symm.trans (head?_eq (by decide) found)) (by decide)
      exact parseScalar_bool (by rw [head]; decide) notNull (parseJsonBool_false fits)
  | @number _ _ number holds =>
      have parsed := (parseJsonNumber_iff fits).mpr ⟨after, holds, rfl⟩
      obtain ⟨char, rest, rfl, starts, -⟩ := holds
      rw [parseScalar_unworded (unworded_of_number starts), parsed]
      rfl

/-- No attempt succeeds at another character. -/
theorem parseScalar_other {char : UInt8} {rest : List UInt8}
    (fits : (char :: rest).length ≤ length) (other : Unworded (char :: rest))
    (noNumber : startsNumber char = false) :
    parseScalar (inputAt length (char :: rest)) = .ok (none, inputAt length (char :: rest)) := by
  rw [parseScalar_unworded other, parseJsonNumber_cons fits, if_neg (by simp [noNumber])]
  rfl

theorem parseScalar_sound {root : JsonRoot} {next : JsonInput} (fits : text.length ≤ length)
    (success : parseScalar (inputAt length text) = .ok (root, next)) :
    (∃ member after, root = some member ∧ Scalar text member after ∧
      next = inputAt length after) ∨ root = none ∧ text ≠ [] ∧ next = inputAt length text := by
  by_cases quote : text.head? = some '"'.toUInt8
  · obtain ⟨⟨string, input⟩, attempt, read1⟩ := bind_eq_ok.mp success
    cases string with
    | some out =>
        cases read1
        obtain ⟨after, holds, rfl⟩ := (parseJsonString_iff fits).mp attempt
        exact .inl ⟨_, after, rfl, .string holds, rfl⟩
    | none =>
        cases text with
        | nil => cases quote
        | cons char rest =>
            obtain rfl := Option.some.inj quote
            rw [parseJsonString, peek_cons, ok_bind, if_pos rfl] at attempt
            obtain ⟨⟨_, _⟩, _, same⟩ := bind_eq_ok.mp attempt
            cases same
  by_cases null : bytes "null" <+: text
  · obtain ⟨after, rfl⟩ := null
    rw [parseScalar_complete fits .null] at success
    cases success
    exact .inl ⟨_, after, rfl, .null, rfl⟩
  by_cases isTrue : bytes "true" <+: text
  · obtain ⟨after, rfl⟩ := isTrue
    rw [parseScalar_complete fits .isTrue] at success
    cases success
    exact .inl ⟨_, after, rfl, .isTrue, rfl⟩
  by_cases isFalse : bytes "false" <+: text
  · obtain ⟨after, rfl⟩ := isFalse
    rw [parseScalar_complete fits .isFalse] at success
    cases success
    exact .inl ⟨_, after, rfl, .isFalse, rfl⟩
  rw [parseScalar_unworded ⟨quote, null, isTrue, isFalse⟩] at success
  obtain ⟨⟨number, last⟩, attempt, same⟩ := map_eq_ok.mp success
  cases number with
  | some number =>
      cases same
      obtain ⟨after, holds, rfl⟩ := (parseJsonNumber_iff fits).mp attempt
      exact .inl ⟨_, after, rfl, .number holds, rfl⟩
  | none =>
      cases same
      cases text with
      | nil => exact absurd attempt (parseJsonNumber_nil _)
      | cons char rest =>
          rw [parseJsonNumber_cons fits] at attempt
          split at attempt
          · obtain ⟨_, _, same⟩ := map_eq_ok.mp attempt
            cases same
          · cases attempt
            exact .inr ⟨rfl, List.cons_ne_nil _ _, rfl⟩

end Scalars

end PodrumMisc.JsonScalars
