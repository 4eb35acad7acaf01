import PodrumFormal.Misc.JsonGrammar

/-!
# The string parser takes its grammar

On a text with its terminator the parser of strings returns exactly where the
relation holds, with the value and the position that it gives.
-/

set_option autoImplicit false

namespace PodrumMisc.JsonStrings

open CString Json JsonGrammar

/-! ## The input in front of a text -/

/-- The input in front of the last characters of a text so long. -/
def inputAt (length : Nat) (text : List UInt8) : JsonInput :=
  ⟨length, length - text.length, text ++ [0]⟩

section Input

variable {length : Nat} {char : UInt8} {text rest : List UInt8}

theorem peek_cons : (inputAt length (char :: rest)).peek = .ok char := rfl

theorem peek_nil : (inputAt length []).peek = .ok 0 := rfl

theorem advance_cons (fits : (char :: rest).length ≤ length) :
    (inputAt length (char :: rest)).advance = inputAt length rest := by
  rw [List.length_cons] at fits
  simp only [inputAt, JsonInput.advance, List.cons_append, List.tail_cons, List.length_cons]
  congr 1
  omega

theorem next_cons (fits : (char :: rest).length ≤ length) :
    (inputAt length (char :: rest)).next = .ok (char, inputAt length rest) := by
  rw [JsonInput.next, peek_cons, ok_bind, advance_cons fits]
  rfl

theorem room_iff (fits : text.length ≤ length) (count : Nat) :
    (inputAt length text).offset + count < (inputAt length text).length ↔ count < text.length := by
  simp only [inputAt]
  omega

theorem inside_cons (fits : (char :: rest).length ≤ length) :
    (inputAt length (char :: rest)).offset < (inputAt length (char :: rest)).length :=
  (room_iff fits 0).mpr (Nat.succ_pos _)

theorem outside_nil : ¬(inputAt length []).offset < (inputAt length []).length := fun inside =>
  absurd ((room_iff (Nat.zero_le length) 0).mp inside) (Nat.not_lt_zero _)

end Input

/-! ## Codes -/

theorem hexCode_eq {length : Nat} {p0 p1 p2 p3 : UInt8} {rest : List UInt8}
    (fits : (p0 :: p1 :: p2 :: p3 :: rest).length ≤ length) :
    hexCode (inputAt length (p0 :: p1 :: p2 :: p3 :: rest)) =
      (orFault .exit (hexValue p0 p1 p2 p3)).map fun code => (code, inputAt length rest) := by
  have fits1 : (p1 :: p2 :: p3 :: rest).length ≤ length := Nat.le_of_succ_le fits
  have fits2 : (p2 :: p3 :: rest).length ≤ length := Nat.le_of_succ_le fits1
  have fits3 : (p3 :: rest).length ≤ length := Nat.le_of_succ_le fits2
  simp only [hexCode, next_cons fits, next_cons fits1, next_cons fits2, next_cons fits3, ok_bind,
    hexValue]
  cases hextobin p0 with
  | none => rfl
  | some _ =>
      cases hextobin p1 with
      | none => rfl
      | some _ =>
          cases hextobin p2 with
          | none => rfl
          | some _ => cases hextobin p3 <;> rfl

theorem hexCode_iff {length : Nat} {text : List UInt8} {code : UInt32} {next : JsonInput}
    (fits : text.length ≤ length) (room : 3 < text.length) :
    hexCode (inputAt length text) = .ok (code, next) ↔
      ∃ p0 p1 p2 p3 rest, text = p0 :: p1 :: p2 :: p3 :: rest ∧
        hexValue p0 p1 p2 p3 = some code ∧ next = inputAt length rest := by
  match text, room with
  | p0 :: p1 :: p2 :: p3 :: rest, _ =>
      rw [hexCode_eq fits]
      constructor
      · intro success
        cases value : hexValue p0 p1 p2 p3 with
        | none =>
            rw [value] at success
            cases success
        | some found =>
            rw [value] at success
            cases success
            exact ⟨p0, p1, p2, p3, rest, rfl, value, rfl⟩
      · rintro ⟨p0, p1, p2, p3, rest, same, value, rfl⟩
        cases same
        rw [value]
        rfl

theorem pairMark_high {length : Nat} {char second : UInt8} {code : UInt32} {rest : List UInt8}
    (fits : (char :: second :: rest).length ≤ length) (high : IsHigh code) :
    pairMark code (inputAt length (char :: second :: rest)) =
      if char = '\\'.toUInt8 then .ok (decide (second = 'u'.toUInt8), inputAt length rest)
      else .ok (false, inputAt length (second :: rest)) := by
  have test : 0xd800 ≤ code ∧ code ≤ 0xdbff := high
  rw [pairMark, if_pos test, next_cons fits]
  simp only [ok_bind, next_cons (Nat.le_of_succ_le fits)]
  rfl

/-- Without a high surrogate, or too near to the end, nothing is looked for. -/
theorem pairedCode_single {length : Nat} {rest : List UInt8} {code : UInt32}
    (fits : rest.length ≤ length) (other : ¬(IsHigh code ∧ 5 < rest.length)) :
    pairedCode code (inputAt length rest) = .ok (code, inputAt length rest) := by
  rw [pairedCode]
  split
  · rename_i room
    have test : ¬(0xd800 ≤ code ∧ code ≤ 0xdbff) := fun high =>
      other ⟨high, (room_iff fits 5).mp room⟩
    rw [pairMark, if_neg test]
    rfl
  · rfl

theorem pairedCode_high {length : Nat} {char second : UInt8} {code : UInt32} {rest : List UInt8}
    (fits : (char :: second :: rest).length ≤ length) (room : 3 < rest.length)
    (high : IsHigh code) :
    pairedCode code (inputAt length (char :: second :: rest)) =
      if char = '\\'.toUInt8 then
        if second = 'u'.toUInt8 then
          (hexCode (inputAt length rest)).map fun low => (joined code low.1, low.2)
        else .ok (code, inputAt length rest)
      else .ok (code, inputAt length (second :: rest)) := by
  have enough : 5 < (char :: second :: rest).length := by
    simp only [List.length_cons]
    omega
  rw [pairedCode, if_pos ((room_iff fits 5).mpr enough), pairMark_high fits high]
  split
  · simp only [ok_bind, decide_eq_true_eq]
    split
    · cases hexCode (inputAt length rest) with
      | error fault => rfl
      | ok low =>
          simp only [ok_bind, joined, Except.map]
          split <;> rfl
    · rfl
  · rfl

theorem pairedCode_iff {length : Nat} {rest : List UInt8} {first code : UInt32} {next : JsonInput}
    (fits : rest.length ≤ length) :
    pairedCode first (inputAt length rest) = .ok (code, next) ↔
      ∃ after, PairRest first rest code after ∧ next = inputAt length after := by
  by_cases pairs : IsHigh first ∧ 5 < rest.length
  · obtain ⟨high, enough⟩ := pairs
    match rest, enough with
    | char :: second :: tail, enough =>
        have room : 3 < tail.length := by
          simp only [List.length_cons] at enough
          omega
        have tailFits : tail.length ≤ length := Nat.le_of_succ_le (Nat.le_of_succ_le fits)
        rw [pairedCode_high fits room high]
        constructor
        · intro success
          split at success
          · rename_i backslash
            subst backslash
            split at success
            · rename_i letter
              subst letter
              obtain ⟨⟨low, last⟩, digits, same⟩ := map_eq_ok.mp success
              obtain ⟨q0, q1, q2, q3, after, rfl, value, rfl⟩ :=
                (hexCode_iff tailFits room).mp digits
              cases same
              exact ⟨after, .pair high value, rfl⟩
            · rename_i other
              cases success
              exact ⟨tail, .passedEscape high enough other, rfl⟩
          · rename_i other
            cases success
            exact ⟨second :: tail, .passed high enough other, rfl⟩
        · rintro ⟨after, holds, rfl⟩
          cases holds with
          | single other => exact absurd ⟨high, enough⟩ other
          | passed _ _ notBackslash => rw [if_neg notBackslash]
          | passedEscape _ _ notLetter => rw [if_pos rfl, if_neg notLetter]
          | pair _ digits =>
              rw [if_pos rfl, if_pos rfl, hexCode_eq tailFits, digits]
              rfl
  · rw [pairedCode_single fits pairs]
    constructor
    · intro success
      cases success
      exact ⟨rest, .single pairs, rfl⟩
    · rintro ⟨after, holds, rfl⟩
      cases holds with
      | single _ => rfl
      | passed high room _ => exact absurd ⟨high, room⟩ pairs
      | passedEscape high room _ => exact absurd ⟨high, room⟩ pairs
      | pair high _ => exact absurd ⟨high, by simp only [List.length_cons]; omega⟩ pairs

/-- The digits and what follows them, from the letter on. -/
theorem parseUnicode_iff {length : Nat} {char : UInt8} {text encoded : List UInt8}
    {next : JsonInput} (fits : (char :: text).length ≤ length) :
    parseUnicode (inputAt length (char :: text)) = .ok (encoded, next) ↔
      ∃ p0 p1 p2 p3 rest first code middle, text = p0 :: p1 :: p2 :: p3 :: rest ∧
        hexValue p0 p1 p2 p3 = some first ∧ PairRest first rest code middle ∧
        utf8 code = .ok encoded ∧ next = inputAt length middle := by
  have textFits : text.length ≤ length := Nat.le_of_succ_le fits
  rw [parseUnicode, advance_cons fits]
  dsimp only
  constructor
  · intro success
    split at success
    · rename_i enough
      have room := (room_iff textFits 3).mp enough
      obtain ⟨⟨first, middle⟩, digits, read1⟩ := bind_eq_ok.mp success
      obtain ⟨p0, p1, p2, p3, rest, rfl, value, rfl⟩ := (hexCode_iff textFits room).mp digits
      have restFits : rest.length ≤ length := by
        simp only [List.length_cons] at textFits
        omega
      obtain ⟨⟨code, last⟩, paired, read2⟩ := bind_eq_ok.mp read1
      obtain ⟨after, second, rfl⟩ := (pairedCode_iff restFits).mp paired
      obtain ⟨bytes, encodes, read3⟩ := bind_eq_ok.mp read2
      cases read3
      exact ⟨p0, p1, p2, p3, rest, first, code, after, rfl, value, second, encodes, rfl⟩
    · cases success
  · rintro ⟨p0, p1, p2, p3, rest, first, code, middle, rfl, value, second, encodes, rfl⟩
    have restFits : rest.length ≤ length := by
      simp only [List.length_cons] at textFits
      omega
    have room : 3 < (p0 :: p1 :: p2 :: p3 :: rest).length := by
      simp only [List.length_cons]
      omega
    have paired := (pairedCode_iff restFits).mpr ⟨middle, second, rfl⟩
    rw [if_pos ((room_iff textFits 3).mpr room), hexCode_eq textFits, value]
    simp only [orFault, Except.map, ok_bind, paired, encodes]
    rfl

/-! ## The loop -/

/-- The text with the backslash that was passed last. -/
def pending (isEscCode : Bool) (text : List UInt8) : List UInt8 :=
  if isEscCode then '\\'.toUInt8 :: text else text

section Loop

variable {length fuel : Nat} {char : UInt8} {rest : List UInt8}

theorem stringLoop_plain (fits : (char :: rest).length ≤ length) :
    parseJsonStringLoop (fuel + 1) false (inputAt length (char :: rest)) =
      if char = '"'.toUInt8 then .ok ([], inputAt length rest)
      else if isForbidden char then .error .exit
      else if char = '\\'.toUInt8 then parseJsonStringLoop fuel true (inputAt length rest)
      else
        Except.map (fun result => (char :: result.1, result.2))
          (parseJsonStringLoop fuel false (inputAt length rest)) := by
  rw [parseJsonStringLoop, peek_cons, ok_bind, advance_cons fits]
  rfl

theorem stringLoop_escape (fits : (char :: rest).length ≤ length) :
    parseJsonStringLoop (fuel + 1) true (inputAt length (char :: rest)) =
      if char = '"'.toUInt8 then .ok ([], inputAt length rest)
      else if char = 'u'.toUInt8 then do
        let (encoded, input) ← parseUnicode (inputAt length (char :: rest))
        Except.map (fun result => (encoded ++ result.1, result.2))
          (parseJsonStringLoop fuel false input)
      else
        orFault .exit (escaped char) >>= fun plain =>
          Except.map (fun result => (plain :: result.1, result.2))
            (parseJsonStringLoop fuel false (inputAt length rest)) := by
  rw [parseJsonStringLoop, peek_cons, ok_bind, advance_cons fits]
  rfl

/-- The terminator is a character like others, and behind it nothing may be
read. -/
theorem stringLoop_nil (isEscCode : Bool) (result : List UInt8 × JsonInput) :
    parseJsonStringLoop fuel isEscCode (inputAt length []) ≠ .ok result := by
  intro success
  cases fuel with
  | zero => cases success
  | succ fuel =>
      rw [parseJsonStringLoop, peek_nil, ok_bind] at success
      cases isEscCode with
      | true => cases success
      | false =>
          obtain ⟨⟨out, last⟩, past, -⟩ := bind_eq_ok.mp success
          cases fuel <;> cases past

end Loop

theorem stringLoop_sound {length : Nat} : ∀ (fuel : Nat) (isEscCode : Bool)
    (text out : List UInt8) (next : JsonInput), text.length ≤ length →
    parseJsonStringLoop fuel isEscCode (inputAt length text) = .ok (out, next) →
    ∃ after, StringRest (pending isEscCode text) out after ∧ next = inputAt length after ∧
      after.length < text.length := by
  intro fuel
  induction fuel with
  | zero => intro isEscCode text out next _ success; cases success
  | succ fuel ih =>
      intro isEscCode text out next fits success
      cases text with
      | nil => exact absurd success (stringLoop_nil isEscCode _)
      | cons char rest =>
          have restFits : rest.length ≤ length := Nat.le_of_succ_le fits
          have shorter : rest.length < (char :: rest).length := Nat.lt_succ_self _
          cases isEscCode with
          | false =>
              rw [stringLoop_plain fits] at success
              split at success
              · rename_i quote
                cases success
                subst quote
                exact ⟨rest, .close, rfl, shorter⟩
              rename_i notQuote
              split at success
              · cases success
              rename_i allowed
              split at success
              · rename_i backslash
                subst backslash
                obtain ⟨after, holds, same, less⟩ := ih true rest out next restFits success
                exact ⟨after, holds, same, Nat.lt_trans less shorter⟩
              · rename_i notBackslash
                obtain ⟨⟨others, last⟩, loop, same⟩ := map_eq_ok.mp success
                cases same
                obtain ⟨after, holds, rfl, less⟩ := ih false rest others last restFits loop
                exact ⟨after, .plain notQuote (by simpa using allowed) notBackslash holds, rfl,
                  Nat.lt_trans less shorter⟩
          | true =>
              rw [stringLoop_escape fits] at success
              split at success
              · rename_i quote
                cases success
                subst quote
                exact ⟨rest, .escapeClose, rfl, shorter⟩
              split at success
              · rename_i letter
                subst letter
                obtain ⟨⟨encoded, middle⟩, unicode, read1⟩ := bind_eq_ok.mp success
                obtain
                  ⟨p0, p1, p2, p3, tail, first, code, left, rfl, value, second, encodes, rfl⟩ :=
                  (parseUnicode_iff fits).mp unicode
                obtain ⟨⟨others, last⟩, loop, same⟩ := map_eq_ok.mp read1
                cases same
                have short := second.length_le
                simp only [List.length_cons] at restFits
                obtain ⟨after, holds, rfl, less⟩ := ih false left others last (by omega) loop
                refine ⟨after, .unicode value second encodes holds, rfl, ?_⟩
                simp only [List.length_cons]
                omega
              · obtain ⟨plain, known, read1⟩ := bind_eq_ok.mp success
                obtain ⟨⟨others, last⟩, loop, same⟩ := map_eq_ok.mp read1
                cases same
                obtain ⟨after, holds, rfl, less⟩ := ih false rest others last restFits loop
                exact ⟨after, .escape (orFault_eq_ok.mp known) holds, rfl,
                  Nat.lt_trans less shorter⟩

/-- A backslash turns the next round into one of an escape code. -/
theorem stringLoop_backslash {length fuel : Nat} {rest : List UInt8}
    (fits : ('\\'.toUInt8 :: rest).length ≤ length) :
    parseJsonStringLoop (fuel + 1) false (inputAt length ('\\'.toUInt8 :: rest)) =
      parseJsonStringLoop fuel true (inputAt length rest) := by
  rw [stringLoop_plain fits, if_neg (by decide), if_neg (by decide), if_pos rfl]

theorem stringLoop_complete {length : Nat} {text out after : List UInt8}
    (holds : StringRest text out after) :
    ∀ fuel, text.length < fuel → text.length ≤ length →
      parseJsonStringLoop fuel false (inputAt length text) = .ok (out, inputAt length after) := by
  induction holds with
  | close =>
      rintro (_ | fuel) enough fits
      · exact absurd enough (Nat.not_lt_zero _)
      · rw [stringLoop_plain fits, if_pos rfl]
  | @escapeClose after =>
      rintro (_ | _ | fuel) enough fits
      · exact absurd enough (Nat.not_lt_zero _)
      · exact absurd (Nat.lt_of_succ_lt_succ enough) (Nat.not_lt_zero _)
      · rw [stringLoop_backslash fits, stringLoop_escape (Nat.le_of_succ_le fits), if_pos rfl]
  | @plain char rest out after notQuote allowed notBackslash others ih =>
      rintro (_ | fuel) enough fits
      · exact absurd enough (Nat.not_lt_zero _)
      · have loop := ih fuel (Nat.lt_of_succ_lt_succ enough) (Nat.le_of_succ_le fits)
        rw [stringLoop_plain fits, if_neg notQuote, if_neg (by simp [allowed]),
          if_neg notBackslash, loop]
        rfl
  | @escape char plain rest out after known others ih =>
      have notQuote : char ≠ '"'.toUInt8 := by
        rintro rfl
        cases known
      have notLetter : char ≠ 'u'.toUInt8 := by
        rintro rfl
        cases known
      rintro (_ | _ | fuel) enough fits
      · exact absurd enough (Nat.not_lt_zero _)
      · exact absurd (Nat.lt_of_succ_lt_succ enough) (Nat.not_lt_zero _)
      · have restFits := Nat.le_of_succ_le fits
        have loop := ih fuel (Nat.lt_of_succ_lt_succ (Nat.lt_of_succ_lt_succ enough))
          (Nat.le_of_succ_le restFits)
        rw [stringLoop_backslash fits, stringLoop_escape restFits, if_neg notQuote,
          if_neg notLetter, known, orFault, ok_bind, loop]
        rfl
  | @unicode p0 p1 p2 p3 first code rest middle encoded out after value second encodes others ih =>
      have short := second.length_le
      rintro (_ | _ | fuel) enough fits
      · exact absurd enough (Nat.not_lt_zero _)
      · exact absurd (Nat.lt_of_succ_lt_succ enough) (Nat.not_lt_zero _)
      · have restFits := Nat.le_of_succ_le fits
        have unicode : parseUnicode (inputAt length ('u'.toUInt8 :: p0 :: p1 :: p2 :: p3 :: rest)) =
            .ok (encoded, inputAt length middle) :=
          (parseUnicode_iff restFits).mpr
            ⟨p0, p1, p2, p3, rest, first, code, middle, rfl, value, second, encodes, rfl⟩
        simp only [List.length_cons] at enough restFits
        have loop := ih fuel (by omega) (by omega)
        rw [stringLoop_backslash fits, stringLoop_escape (Nat.le_of_succ_le fits),
          if_neg (by decide), if_pos rfl, unicode, ok_bind]
        dsimp only
        rw [loop]
        rfl

/-! ## The parser -/

theorem parseJsonString_iff {length : Nat} {text out : List UInt8} {next : JsonInput}
    (fits : text.length ≤ length) :
    parseJsonString (inputAt length text) = .ok (some out, next) ↔
      ∃ after, StringText text out after ∧ next = inputAt length after := by
  constructor
  · intro success
    obtain ⟨char, peeked, read1⟩ := bind_eq_ok.mp success
    split at read1
    · rename_i quote
      subst quote
      cases text with
      | nil => cases peeked
      | cons char rest =>
          obtain rfl := Except.ok.inj peeked
          rw [advance_cons fits] at read1
          obtain ⟨⟨found, last⟩, loop, same⟩ := bind_eq_ok.mp read1
          cases same
          obtain ⟨after, holds, rfl, -⟩ :=
            stringLoop_sound _ false rest _ _ (Nat.le_of_succ_le fits) loop
          exact ⟨after, ⟨rest, rfl, holds⟩, rfl⟩
    · cases read1
  · rintro ⟨after, ⟨rest, rfl, holds⟩, rfl⟩
    have enough : rest.length < (inputAt length rest).rest.length + 1 := by
      simp only [inputAt, List.length_append]
      omega
    rw [parseJsonString, peek_cons, ok_bind, if_pos rfl, advance_cons fits]
    dsimp only
    rw [stringLoop_complete holds _ enough (Nat.le_of_succ_le fits)]
    rfl

/-- Without a quote there is no string, and nothing is passed. -/
theorem parseJsonString_none {length : Nat} {text : List UInt8}
    (other : text.head? ≠ some '"'.toUInt8) :
    parseJsonString (inputAt length text) = .ok (none, inputAt length text) := by
  cases text with
  | nil => rfl
  | cons char rest =>
      have notQuote : char ≠ '"'.toUInt8 := fun same => other (congrArg some same)
      rw [parseJsonString, peek_cons, ok_bind, if_neg notQuote]
      rfl

end PodrumMisc.JsonStrings
