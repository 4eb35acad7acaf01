import PodrumFormal.Misc.JsonScalars

/-!
# The parser takes its grammar

Objects, arrays and the root.  The fuel of the loops is enough wherever the
grammar holds: one unit for each call, two for each character.
-/

set_option autoImplicit false

namespace PodrumMisc.JsonParses

open CString Json JsonGrammar JsonStrings JsonScalars

/-! ## One round -/

section Rounds

variable {length fuel : Nat} {char : UInt8} {rest : List UInt8}

theorem parseMember_nil (result : JsonMulti × JsonInput) :
    parseMember fuel (inputAt length []) ≠ .ok result := by
  intro success
  cases fuel with
  | zero => cases success
  | succ fuel =>
      rw [parseMember] at success
      obtain ⟨⟨scalar, input⟩, attempt, -⟩ := bind_eq_ok.mp success
      rcases parseScalar_sound (Nat.zero_le _) attempt with ⟨_, _, _, holds, _⟩ | ⟨_, some', _⟩
      · exact absurd holds.length_lt (Nat.not_lt_zero _)
      · exact some' rfl

theorem arrayLoop_cons {expectMember : Bool} {members : List JsonMulti}
    (fits : (char :: rest).length ≤ length) :
    parseJsonArrayLoop (fuel + 1) expectMember members (inputAt length (char :: rest)) =
      if char = ']'.toUInt8 then .ok (.array members, inputAt length rest)
      else if isSpace char then
        parseJsonArrayLoop fuel expectMember members (inputAt length rest)
      else if expectMember then
        parseMember fuel (inputAt length (char :: rest)) >>= fun result =>
          parseJsonArrayLoop fuel false (members ++ [result.1]) result.2
      else if char = ','.toUInt8 then
        parseJsonArrayLoop fuel true members (inputAt length rest)
      else .error .exit := by
  rw [parseJsonArrayLoop, peek_cons, ok_bind, advance_cons fits]
  rfl

theorem arrayLoop_nil {expectMember : Bool} {members : List JsonMulti}
    (result : JsonMulti × JsonInput) :
    parseJsonArrayLoop fuel expectMember members (inputAt length []) ≠ .ok result := by
  intro success
  cases fuel with
  | zero => cases success
  | succ fuel =>
      rw [parseJsonArrayLoop, peek_nil, ok_bind, if_neg (by decide), if_neg (by decide)] at success
      split at success
      · obtain ⟨member, attempt, -⟩ := bind_eq_ok.mp success
        exact parseMember_nil member attempt
      · cases success

theorem objectLoop_cons {expect : Expect} {keys : List (List UInt8)} {members : List JsonMulti}
    (fits : (char :: rest).length ≤ length) :
    parseJsonObjectLoop (fuel + 1) expect keys members (inputAt length (char :: rest)) =
      if char = '\x7d'.toUInt8 then .ok (.object keys members, inputAt length rest)
      else if isSpace char then
        parseJsonObjectLoop fuel expect keys members (inputAt length rest)
      else
        match expect with
        | .key =>
            parseJsonString (inputAt length (char :: rest)) >>= fun result =>
              orFault .exit result.1 >>= fun key =>
                parseJsonObjectLoop fuel .colon (keys ++ [key]) members result.2
        | .colon =>
            if char = ':'.toUInt8 then
              parseJsonObjectLoop fuel .member keys members (inputAt length rest)
            else .error .exit
        | .member =>
            parseMember fuel (inputAt length (char :: rest)) >>= fun result =>
              parseJsonObjectLoop fuel .seporator keys (members ++ [result.1]) result.2
        | .seporator =>
            if char = ','.toUInt8 then
              parseJsonObjectLoop fuel .key keys members (inputAt length rest)
            else .error .exit := by
  rw [parseJsonObjectLoop, peek_cons, ok_bind, advance_cons fits]
  cases expect <;> rfl

theorem objectLoop_nil {expect : Expect} {keys : List (List UInt8)} {members : List JsonMulti}
    (result : JsonMulti × JsonInput) :
    parseJsonObjectLoop fuel expect keys members (inputAt length []) ≠ .ok result := by
  intro success
  cases fuel with
  | zero => cases success
  | succ fuel =>
      rw [parseJsonObjectLoop, peek_nil, ok_bind, if_neg (by decide), if_neg (by decide)] at success
      cases expect with
      | key => cases success
      | colon => cases success
      | member =>
          obtain ⟨member, attempt, -⟩ := bind_eq_ok.mp success
          exact parseMember_nil member attempt
      | seporator => cases success

end Rounds

/-! ## What the parsers take -/

/-- The three parsers with so much fuel, at the end of a text of this length. -/
structure Sound (length fuel : Nat) : Prop where
  member : ∀ text member next, text.length ≤ length →
    parseMember fuel (inputAt length text) = .ok (member, next) →
    ∃ after, Member text member after ∧ next = inputAt length after ∧ after.length < text.length
  array : ∀ expectMember members text array next, text.length ≤ length →
    parseJsonArrayLoop fuel expectMember members (inputAt length text) = .ok (array, next) →
    ∃ after, ArrayRest expectMember members text array after ∧ next = inputAt length after ∧
      after.length < text.length
  object : ∀ expect keys members text object next, text.length ≤ length →
    parseJsonObjectLoop fuel expect keys members (inputAt length text) = .ok (object, next) →
    ∃ after, ObjectRest expect keys members text object after ∧ next = inputAt length after ∧
      after.length < text.length

section Step

variable {length fuel : Nat}

theorem parseMember_sound (smaller : Sound length fuel) {text : List UInt8} {member : JsonMulti}
    {next : JsonInput} (fits : text.length ≤ length)
    (success : parseMember (fuel + 1) (inputAt length text) = .ok (member, next)) :
    ∃ after, Member text member after ∧ next = inputAt length after ∧
      after.length < text.length := by
  rw [parseMember] at success
  obtain ⟨⟨scalar, input⟩, attempt, read1⟩ := bind_eq_ok.mp success
  rcases parseScalar_sound fits attempt with ⟨found, after, rfl, holds, rfl⟩ | ⟨rfl, some', rfl⟩
  · cases read1
    exact ⟨after, .scalar holds, rfl, holds.length_lt⟩
  · cases text with
    | nil => exact absurd rfl some'
    | cons char rest =>
        have restFits : rest.length ≤ length := Nat.le_of_succ_le fits
        have shorter : rest.length < (char :: rest).length := Nat.lt_succ_self _
        dsimp only at read1
        rw [peek_cons, ok_bind, advance_cons fits] at read1
        split at read1
        · rename_i brace
          subst brace
          obtain ⟨after, loop, same, less⟩ := smaller.object _ _ _ _ _ _ restFits read1
          exact ⟨after, .object loop, same, Nat.lt_trans less shorter⟩
        split at read1
        · rename_i bracket
          subst bracket
          obtain ⟨after, loop, same, less⟩ := smaller.array _ _ _ _ _ restFits read1
          exact ⟨after, .array loop, same, Nat.lt_trans less shorter⟩
        · cases read1

theorem parseJsonArrayLoop_sound (smaller : Sound length fuel) {expectMember : Bool}
    {members : List JsonMulti} {text : List UInt8} {array : JsonMulti} {next : JsonInput}
    (fits : text.length ≤ length)
    (success : parseJsonArrayLoop (fuel + 1) expectMember members (inputAt length text) =
      .ok (array, next)) :
    ∃ after, ArrayRest expectMember members text array after ∧ next = inputAt length after ∧
      after.length < text.length := by
  cases text with
  | nil => exact absurd success (arrayLoop_nil _)
  | cons char rest =>
      have restFits : rest.length ≤ length := Nat.le_of_succ_le fits
      have shorter : rest.length < (char :: rest).length := Nat.lt_succ_self _
      rw [arrayLoop_cons fits] at success
      split at success
      · rename_i bracket
        subst bracket
        cases success
        exact ⟨rest, .close, rfl, shorter⟩
      split at success
      · rename_i space
        obtain ⟨after, others, same, less⟩ := smaller.array _ _ _ _ _ restFits success
        exact ⟨after, .space space others, same, Nat.lt_trans less shorter⟩
      split at success
      · rename_i expected
        subst expected
        obtain ⟨⟨member, input⟩, attempt, read1⟩ := bind_eq_ok.mp success
        obtain ⟨middle, head, rfl, less1⟩ := smaller.member _ _ _ fits attempt
        have middleFits : middle.length ≤ length := Nat.le_trans (Nat.le_of_lt less1) fits
        obtain ⟨after, others, same, less2⟩ := smaller.array _ _ _ _ _ middleFits read1
        exact ⟨after, .member head others, same, Nat.lt_trans less2 less1⟩
      rename_i notExpected
      obtain rfl : expectMember = false := by simpa using notExpected
      split at success
      · rename_i comma
        subst comma
        obtain ⟨after, others, same, less⟩ := smaller.array _ _ _ _ _ restFits success
        exact ⟨after, .seporator others, same, Nat.lt_trans less shorter⟩
      · cases success

theorem parseJsonObjectLoop_sound (smaller : Sound length fuel) {expect : Expect}
    {keys : List (List UInt8)} {members : List JsonMulti} {text : List UInt8} {object : JsonMulti}
    {next : JsonInput} (fits : text.length ≤ length)
    (success : parseJsonObjectLoop (fuel + 1) expect keys members (inputAt length text) =
      .ok (object, next)) :
    ∃ after, ObjectRest expect keys members text object after ∧ next = inputAt length after ∧
      after.length < text.length := by
  cases text with
  | nil => exact absurd success (objectLoop_nil _)
  | cons char rest =>
      have restFits : rest.length ≤ length := Nat.le_of_succ_le fits
      have shorter : rest.length < (char :: rest).length := Nat.lt_succ_self _
      rw [objectLoop_cons fits] at success
      split at success
      · rename_i brace
        subst brace
        cases success
        exact ⟨rest, .close, rfl, shorter⟩
      split at success
      · rename_i space
        obtain ⟨after, others, same, less⟩ := smaller.object _ _ _ _ _ _ restFits success
        exact ⟨after, .space space others, same, Nat.lt_trans less shorter⟩
      cases expect with
      | key =>
          obtain ⟨⟨string, input⟩, attempt, read1⟩ := bind_eq_ok.mp success
          obtain ⟨key, found, read2⟩ := bind_eq_ok.mp read1
          obtain rfl : string = some key := orFault_eq_ok.mp found
          obtain ⟨middle, head, rfl⟩ := (parseJsonString_iff fits).mp attempt
          have less1 := head.length_lt
          have middleFits : middle.length ≤ length := Nat.le_trans (Nat.le_of_lt less1) fits
          obtain ⟨after, others, same, less2⟩ := smaller.object _ _ _ _ _ _ middleFits read2
          exact ⟨after, .key head others, same, Nat.lt_trans less2 less1⟩
      | colon =>
          dsimp only at success
          split at success
          · rename_i colon
            subst colon
            obtain ⟨after, others, same, less⟩ := smaller.object _ _ _ _ _ _ restFits success
            exact ⟨after, .colon others, same, Nat.lt_trans less shorter⟩
          · cases success
      | member =>
          obtain ⟨⟨member, input⟩, attempt, read1⟩ := bind_eq_ok.mp success
          obtain ⟨middle, head, rfl, less1⟩ := smaller.member _ _ _ fits attempt
          have middleFits : middle.length ≤ length := Nat.le_trans (Nat.le_of_lt less1) fits
          obtain ⟨after, others, same, less2⟩ := smaller.object _ _ _ _ _ _ middleFits read1
          exact ⟨after, .member head others, same, Nat.lt_trans less2 less1⟩
      | seporator =>
          dsimp only at success
          split at success
          · rename_i comma
            subst comma
            obtain ⟨after, others, same, less⟩ := smaller.object _ _ _ _ _ _ restFits success
            exact ⟨after, .seporator others, same, Nat.lt_trans less shorter⟩
          · cases success

end Step

theorem sound (length fuel : Nat) : Sound length fuel := by
  induction fuel with
  | zero =>
      constructor
      · intro text member next _ success; cases success
      · intro expectMember members text array next _ success; cases success
      · intro expect keys members text object next _ success; cases success
  | succ fuel ih =>
      constructor
      · intro text member next fits success
        exact parseMember_sound ih fits success
      · intro expectMember members text array next fits success
        exact parseJsonArrayLoop_sound ih fits success
      · intro expect keys members text object next fits success
        exact parseJsonObjectLoop_sound ih fits success

/-! ## What the grammar gives -/

/-- A call for a member takes one unit of fuel and passes nothing. -/
structure Complete (length fuel : Nat) : Prop where
  member : ∀ text member after, text.length ≤ length → 2 * text.length ≤ fuel →
    Member text member after →
    parseMember fuel (inputAt length text) = .ok (member, inputAt length after)
  array : ∀ expectMember members text array after, text.length ≤ length →
    2 * text.length < fuel → ArrayRest expectMember members text array after →
    parseJsonArrayLoop fuel expectMember members (inputAt length text) =
      .ok (array, inputAt length after)
  object : ∀ expect keys members text object after, text.length ≤ length →
    2 * text.length < fuel → ObjectRest expect keys members text object after →
    parseJsonObjectLoop fuel expect keys members (inputAt length text) =
      .ok (object, inputAt length after)

section Step

variable {length fuel : Nat}

theorem isSpace_other {char : UInt8} (space : isSpace char = true) :
    char ≠ ']'.toUInt8 ∧ char ≠ '\x7d'.toUInt8 := by
  constructor <;> (rintro rfl; cases space)

theorem parseMember_complete (smaller : Complete length fuel) {text after : List UInt8}
    {member : JsonMulti} (fits : text.length ≤ length) (enough : 2 * text.length ≤ fuel + 1)
    (holds : Member text member after) :
    parseMember (fuel + 1) (inputAt length text) = .ok (member, inputAt length after) := by
  rw [parseMember]
  cases holds with
  | scalar holds =>
      rw [parseScalar_complete fits holds]
      rfl
  | @object rest _ _ loop =>
      have unworded : Unworded ('\x7b'.toUInt8 :: rest) :=
        unworded_of_head (by decide) (by decide) (by decide) (by decide)
      have restEnough : 2 * rest.length < fuel := by
        rw [List.length_cons] at enough
        omega
      rw [parseScalar_other fits unworded (by decide), ok_bind]
      dsimp only
      rw [peek_cons, ok_bind, if_pos rfl, advance_cons fits]
      exact smaller.object _ _ _ _ _ _ (Nat.le_of_succ_le fits) restEnough loop
  | @array rest _ _ loop =>
      have unworded : Unworded ('['.toUInt8 :: rest) :=
        unworded_of_head (by decide) (by decide) (by decide) (by decide)
      have restEnough : 2 * rest.length < fuel := by
        rw [List.length_cons] at enough
        omega
      rw [parseScalar_other fits unworded (by decide), ok_bind]
      dsimp only
      rw [peek_cons, ok_bind, if_neg (by decide), if_pos rfl, advance_cons fits]
      exact smaller.array _ _ _ _ _ (Nat.le_of_succ_le fits) restEnough loop

theorem parseJsonArrayLoop_complete (smaller : Complete length fuel) {expectMember : Bool}
    {members : List JsonMulti} {text after : List UInt8} {array : JsonMulti}
    (fits : text.length ≤ length) (enough : 2 * text.length < fuel + 1)
    (holds : ArrayRest expectMember members text array after) :
    parseJsonArrayLoop (fuel + 1) expectMember members (inputAt length text) =
      .ok (array, inputAt length after) := by
  cases holds with
  | close => rw [arrayLoop_cons fits, if_pos rfl]
  | space space others =>
      rw [List.length_cons] at enough
      rw [arrayLoop_cons fits, if_neg (isSpace_other space).1, if_pos space]
      exact smaller.array _ _ _ _ _ (Nat.le_of_succ_le fits) (by omega) others
  | member head others =>
      have less := head.length_lt
      have parsed := smaller.member _ _ _ fits (Nat.lt_succ_iff.mp enough) head
      obtain ⟨char, rest, rfl, other⟩ := head.head
      obtain ⟨notBracket, -, notSpace⟩ := not_passes other
      rw [arrayLoop_cons fits, if_neg notBracket, if_neg (by simp [notSpace]), if_pos rfl, parsed,
        ok_bind]
      exact smaller.array _ _ _ _ _ (by omega) (by omega) others
  | seporator others =>
      rw [List.length_cons] at enough
      rw [arrayLoop_cons fits, if_neg (by decide), if_neg (by decide), if_neg (by decide),
        if_pos rfl]
      exact smaller.array _ _ _ _ _ (Nat.le_of_succ_le fits) (by omega) others

theorem parseJsonObjectLoop_complete (smaller : Complete length fuel) {expect : Expect}
    {keys : List (List UInt8)} {members : List JsonMulti} {text after : List UInt8}
    {object : JsonMulti} (fits : text.length ≤ length) (enough : 2 * text.length < fuel + 1)
    (holds : ObjectRest expect keys members text object after) :
    parseJsonObjectLoop (fuel + 1) expect keys members (inputAt length text) =
      .ok (object, inputAt length after) := by
  cases holds with
  | close => rw [objectLoop_cons fits, if_pos rfl]
  | space space others =>
      rw [List.length_cons] at enough
      rw [objectLoop_cons fits, if_neg (isSpace_other space).2, if_pos space]
      exact smaller.object _ _ _ _ _ _ (Nat.le_of_succ_le fits) (by omega) others
  | @key _ _ _ key middle _ _ head others =>
      have less := head.length_lt
      have parsed := (parseJsonString_iff fits).mpr ⟨middle, head, rfl⟩
      obtain ⟨rest, rfl, -⟩ := head
      rw [objectLoop_cons fits, if_neg (by decide), if_neg (by decide)]
      dsimp only
      rw [parsed, ok_bind, orFault, ok_bind]
      exact smaller.object _ _ _ _ _ _ (by omega) (by omega) others
  | colon others =>
      rw [List.length_cons] at enough
      rw [objectLoop_cons fits, if_neg (by decide), if_neg (by decide)]
      dsimp only
      rw [if_pos rfl]
      exact smaller.object _ _ _ _ _ _ (Nat.le_of_succ_le fits) (by omega) others
  | member head others =>
      have less := head.length_lt
      have parsed := smaller.member _ _ _ fits (Nat.lt_succ_iff.mp enough) head
      obtain ⟨char, rest, rfl, other⟩ := head.head
      obtain ⟨-, notBrace, notSpace⟩ := not_passes other
      rw [objectLoop_cons fits, if_neg notBrace, if_neg (by simp [notSpace])]
      dsimp only
      rw [parsed, ok_bind]
      exact smaller.object _ _ _ _ _ _ (by omega) (by omega) others
  | seporator others =>
      rw [List.length_cons] at enough
      rw [objectLoop_cons fits, if_neg (by decide), if_neg (by decide)]
      dsimp only
      rw [if_pos rfl]
      exact smaller.object _ _ _ _ _ _ (Nat.le_of_succ_le fits) (by omega) others

end Step

theorem complete (length fuel : Nat) : Complete length fuel := by
  induction fuel with
  | zero =>
      constructor
      · intro text member after _ enough holds
        have less := holds.length_lt
        omega
      · intro _ _ _ _ _ _ enough _
        exact absurd enough (Nat.not_lt_zero _)
      · intro _ _ _ _ _ _ _ enough _
        exact absurd enough (Nat.not_lt_zero _)
  | succ fuel ih =>
      constructor
      · intro text member after fits enough holds
        exact parseMember_complete ih fits enough holds
      · intro expectMember members text array after fits enough holds
        exact parseJsonArrayLoop_complete ih fits enough holds
      · intro expect keys members text object after fits enough holds
        exact parseJsonObjectLoop_complete ih fits enough holds

/-! ## The root -/

section Root

variable {length fuel : Nat} {text : List UInt8}

theorem rootLoop_cons {char : UInt8} {rest : List UInt8}
    (fits : (char :: rest).length ≤ length) :
    parseJsonRootLoop (fuel + 1) (inputAt length (char :: rest)) =
      if isSpace char then parseJsonRootLoop fuel (inputAt length rest)
      else if char = '\x7b'.toUInt8 then
        (parseJsonObjectLoop (parseFuel (inputAt length (char :: rest))) .key [] []
          (inputAt length rest)).map fun result => (some result.1, result.2)
      else if char = '['.toUInt8 then
        (parseJsonArrayLoop (parseFuel (inputAt length (char :: rest))) true []
          (inputAt length rest)).map fun result => (some result.1, result.2)
      else .ok (none, inputAt length (char :: rest)) := by
  rw [parseJsonRootLoop, if_pos (inside_cons fits), peek_cons, ok_bind, advance_cons fits]
  rfl

theorem rootLoop_nil :
    parseJsonRootLoop (fuel + 1) (inputAt length []) = .ok (none, inputAt length []) := by
  rw [parseJsonRootLoop, if_neg outside_nil]
  rfl

/-- The fuel that the root gives its loops is enough. -/
theorem parseFuel_enough (length : Nat) (char : UInt8) (rest : List UInt8) :
    2 * rest.length < parseFuel (inputAt length (char :: rest)) := by
  simp only [parseFuel, inputAt, List.length_append, List.length_cons]
  omega

theorem rootLoop_sound {root : JsonRoot} {next : JsonInput} (fits : text.length ≤ length)
    (success : parseJsonRootLoop fuel (inputAt length text) = .ok (root, next)) :
    ∃ after, RootText text root after ∧ next = inputAt length after := by
  induction fuel generalizing text with
  | zero => cases success
  | succ fuel ih =>
      cases text with
      | nil =>
          rw [rootLoop_nil] at success
          cases success
          exact ⟨[], .empty, rfl⟩
      | cons char rest =>
          have restFits : rest.length ≤ length := Nat.le_of_succ_le fits
          rw [rootLoop_cons fits] at success
          split at success
          · rename_i space
            obtain ⟨after, others, same⟩ := ih restFits success
            exact ⟨after, .space space others, same⟩
          rename_i notSpace
          split at success
          · rename_i brace
            subst brace
            obtain ⟨⟨object, last⟩, loop, same⟩ := map_eq_ok.mp success
            cases same
            obtain ⟨after, holds, same, -⟩ := (sound length _).object _ _ _ _ _ _ restFits loop
            exact ⟨after, .object holds, same⟩
          rename_i notBrace
          split at success
          · rename_i bracket
            subst bracket
            obtain ⟨⟨array, last⟩, loop, same⟩ := map_eq_ok.mp success
            cases same
            obtain ⟨after, holds, same, -⟩ := (sound length _).array _ _ _ _ _ restFits loop
            exact ⟨after, .array holds, same⟩
          · rename_i notBracket
            cases success
            exact ⟨char :: rest, .other (by simpa using notSpace) notBrace notBracket, rfl⟩

theorem rootLoop_complete {root : JsonRoot} {after : List UInt8} (holds : RootText text root after)
    (fits : text.length ≤ length) (enough : text.length ≤ fuel) :
    parseJsonRootLoop (fuel + 1) (inputAt length text) = .ok (root, inputAt length after) := by
  induction holds generalizing fuel with
  | empty => exact rootLoop_nil
  | @space char rest after root space others ih =>
      cases fuel with
      | zero => exact absurd enough (Nat.not_succ_le_zero _)
      | succ fuel =>
          rw [rootLoop_cons fits, if_pos space]
          exact ih (Nat.le_of_succ_le fits) (Nat.le_of_succ_le_succ enough)
  | @object rest after object loop =>
      have parsed := (complete length _).object _ _ _ _ _ _ (Nat.le_of_succ_le fits)
        (parseFuel_enough length '\x7b'.toUInt8 rest) loop
      rw [rootLoop_cons fits, if_neg (by decide), if_pos rfl, parsed]
      rfl
  | @array rest after array loop =>
      have parsed := (complete length _).array _ _ _ _ _ (Nat.le_of_succ_le fits)
        (parseFuel_enough length '['.toUInt8 rest) loop
      rw [rootLoop_cons fits, if_neg (by decide), if_neg (by decide), if_pos rfl, parsed]
      rfl
  | other notSpace notBrace notBracket =>
      rw [rootLoop_cons fits, if_neg (by simp [notSpace]), if_neg notBrace, if_neg notBracket]

end Root

theorem cString_terminated (text : List UInt8) : cString (cString text ++ [0]) = cString text :=
  cString_zero (zero_not_mem_cString text) []

theorem parseJsonRoot_eq (text : List UInt8) :
    parseJsonRoot (cString text ++ [0]) =
      parseJsonRootLoop ((cString text).length + 2)
        (inputAt (cString text).length (cString text)) := by
  rw [parseJsonRoot, JsonInput.ofBytes, if_pos (by simp), ok_bind, cString_terminated,
    List.length_append, inputAt, Nat.sub_self]
  rfl

/-- On a text up to its terminator the parser gives what the grammar says, and
nothing else. -/
theorem parseJsonRoot_iff {text : List UInt8} {root : JsonRoot} {next : JsonInput} :
    parseJsonRoot (cString text ++ [0]) = .ok (root, next) ↔
      ∃ after, RootText (cString text) root after ∧
        next = inputAt (cString text).length after := by
  rw [parseJsonRoot_eq]
  constructor
  · intro success
    exact rootLoop_sound (Nat.le_refl _) success
  · rintro ⟨after, holds, rfl⟩
    exact rootLoop_complete holds (Nat.le_refl _) (by omega)

theorem parseJsonRoot_returns_iff (text : List UInt8) :
    (∃ result, parseJsonRoot (cString text ++ [0]) = .ok result) ↔
      ∃ root after, RootText (cString text) root after := by
  constructor
  · rintro ⟨⟨root, next⟩, success⟩
    obtain ⟨after, holds, -⟩ := parseJsonRoot_iff.mp success
    exact ⟨root, after, holds⟩
  · rintro ⟨root, after, holds⟩
    exact ⟨_, parseJsonRoot_iff.mpr ⟨after, holds, rfl⟩⟩

/-- A string without its closing quote is read past the terminator, a letter in
place of a member ends the process. -/
theorem malformed_faults :
    parseJsonRoot (cString (bytes "[\"a") ++ [0]) = .error .outOfBounds ∧
      parseJsonRoot (cString (bytes "[x") ++ [0]) = .error .exit := by
  constructor <;> rfl

end PodrumMisc.JsonParses
