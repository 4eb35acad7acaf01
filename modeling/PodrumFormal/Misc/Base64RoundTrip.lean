import Mathlib.Data.List.DropRight
import PodrumFormal.Misc.Base64Encode

/-!
# Base64 round trips

What each decoder makes of what an encoder wrote, and of any signature a token
may carry.
-/

set_option autoImplicit false

namespace PodrumMisc.Base64

open CString Sextets

/-! ## The alphabets -/

/-- What is checked at every place of a table. -/
theorem forall_places {good : UInt8 → Prop} (places : ∀ place : Fin 64, good (UInt8.ofNat place)) :
    ∀ index : UInt8, index.toNat < 64 → good index := by
  intro index small
  simpa only [UInt8.ofNat_toNat] using places ⟨index.toNat, small⟩

/-- The characters of a table are told apart and are no padding. -/
structure Alphabet (table : List UInt8) : Prop where
  index : ∀ index : UInt8, index.toNat < 64 → dtable table (tableChar table index) = index
  plain : ∀ index : UInt8, index.toNat < 64 → tableChar table index ≠ padding

theorem alphabet_base64 : Alphabet base64Table where
  index := forall_places (by decide)
  plain := forall_places (by decide)

theorem alphabet_base64Url : Alphabet base64UrlTable where
  index := forall_places (by decide)
  plain := forall_places (by decide)

/-- The search through the table gives the same index. -/
theorem tableIndex_tableChar : ∀ index : UInt8, index.toNat < 64 →
    tableIndex (tableChar base64Table index) = index.toUInt32 :=
  forall_places (by decide)

theorem tableIndex_padding : tableIndex padding = 0 := by decide

/-- The URL alphabet differs by the characters that are rewritten. -/
theorem urlChar_tableChar : ∀ index : UInt8, index.toNat < 64 →
    urlChar (tableChar base64Table index) = tableChar base64UrlTable index :=
  forall_places (by decide)

/-! ## One group -/

section Group

variable (b1 b2 b3 : UInt8)

theorem sextet1_small : (b1 >>> 2).toNat < 64 := by
  have bound := b1.toNat_lt
  rw [sextet1_toNat]
  omega

theorem sextet2_small : (((b1 &&& 0x03) <<< 4) ||| (b2 >>> 4)).toNat < 64 := by
  have bound := b2.toNat_lt
  rw [sextet2_toNat]
  omega

theorem sextet3_small : (((b2 &&& 0x0f) <<< 2) ||| (b3 >>> 6)).toNat < 64 := by
  have bound := b3.toNat_lt
  rw [sextet3_toNat]
  omega

theorem sextet4_small : (b3 &&& 0x3f).toNat < 64 := by
  rw [sextet4_toNat]
  omega

/-- A block of four numbers gives the three bytes back. -/
theorem block_sextets :
    block (b1 >>> 2) (((b1 &&& 0x03) <<< 4) ||| (b2 >>> 4))
      (((b2 &&& 0x0f) <<< 2) ||| (b3 >>> 6)) (b3 &&& 0x3f) = [b1, b2, b3] := by
  have bound1 := b1.toNat_lt
  have bound2 := b2.toNat_lt
  have bound3 := b3.toNat_lt
  have first := octet1_toNat (b1 >>> 2) _ (sextet2_small b1 b2)
  have second := octet2_toNat (((b1 &&& 0x03) <<< 4) ||| (b2 >>> 4)) _ (sextet3_small b2 b3)
  have third := octet3_toNat (((b2 &&& 0x0f) <<< 2) ||| (b3 >>> 6)) (sextet4_small b3)
  rw [sextet1_toNat, sextet2_toNat] at first
  rw [sextet2_toNat, sextet3_toNat] at second
  rw [sextet3_toNat, sextet4_toNat] at third
  rw [block, List.cons.injEq, List.cons.injEq, List.cons.injEq]
  refine ⟨UInt8.toNat_inj.mp ?_, UInt8.toNat_inj.mp ?_, UInt8.toNat_inj.mp ?_, rfl⟩
  · rw [first]
    omega
  · rw [second]
    omega
  · rw [third]
    omega

/-- The word of the group-wise encoder holds the same four numbers. -/
theorem word_sextets {word : UInt32}
    (joined : (b1.toUInt32 <<< 16) ||| (b2.toUInt32 <<< 8) ||| b3.toUInt32 = word) :
    ((word >>> 18) &&& 0x3f).toUInt8 = b1 >>> 2 ∧
    ((word >>> 12) &&& 0x3f).toUInt8 = ((b1 &&& 0x03) <<< 4) ||| (b2 >>> 4) ∧
    ((word >>> 6) &&& 0x3f).toUInt8 = ((b2 &&& 0x0f) <<< 2) ||| (b3 >>> 6) ∧
    ((word >>> 0) &&& 0x3f).toUInt8 = b3 &&& 0x3f := by
  have bound1 := b1.toNat_lt
  have bound2 := b2.toNat_lt
  have bound3 := b3.toNat_lt
  have value : word.toNat = b1.toNat * 65536 + b2.toNat * 256 + b3.toNat := by
    rw [← joined]
    exact octetWord_toNat bound1 bound2 bound3
  refine ⟨UInt8.toNat_inj.mp ?_, UInt8.toNat_inj.mp ?_, UInt8.toNat_inj.mp ?_,
    UInt8.toNat_inj.mp ?_⟩
  · rw [sextetOfWord_toNat 18 rfl (by decide), sextet1_toNat, value]
    omega
  · rw [sextetOfWord_toNat 12 rfl (by decide), sextet2_toNat, value]
    omega
  · rw [sextetOfWord_toNat 6 rfl (by decide), sextet3_toNat, value]
    omega
  · rw [sextetOfWord_toNat 0 rfl (by decide), sextet4_toNat, value]
    omega

/-- The word that the group-wise decoder puts together holds the three bytes. -/
theorem word_octets {word : UInt32}
    (joined : ((b1 >>> 2).toUInt32 <<< 18) |||
      ((((b1 &&& 0x03) <<< 4) ||| (b2 >>> 4)).toUInt32 <<< 12) |||
      ((((b2 &&& 0x0f) <<< 2) ||| (b3 >>> 6)).toUInt32 <<< 6) ||| (b3 &&& 0x3f).toUInt32 = word) :
    (word >>> 16).toUInt8 = b1 ∧ (word >>> 8).toUInt8 = b2 ∧ word.toUInt8 = b3 := by
  have bound1 := b1.toNat_lt
  have bound2 := b2.toNat_lt
  have bound3 := b3.toNat_lt
  have value : word.toNat = b1.toNat * 65536 + b2.toNat * 256 + b3.toNat := by
    rw [← joined, sextetWord_toNat]
    · simp only [UInt8.toNat_toUInt32]
      rw [sextet1_toNat, sextet2_toNat, sextet3_toNat, sextet4_toNat]
      omega
    · exact sextet1_small b1
    · exact sextet2_small b1 b2
    · exact sextet3_small b2 b3
    · exact sextet4_small b3
  refine ⟨UInt8.toNat_inj.mp ?_, UInt8.toNat_inj.mp ?_, UInt8.toNat_inj.mp ?_⟩
  · rw [octetOfWord_toNat 16 rfl (by decide), value]
    omega
  · rw [octetOfWord_toNat 8 rfl (by decide), value]
    omega
  · rw [UInt32.toNat_toUInt8, value]
    omega

end Group

/-! ## The text -/

section Text

variable {table pad : List UInt8}

/-- The last characters are those of a group with zeros for the bytes it lacks. -/
theorem charEncodeLoop_two (b1 b2 : UInt8) :
    charEncodeLoop table pad [b1, b2] =
      [tableChar table (b1 >>> 2), tableChar table (((b1 &&& 0x03) <<< 4) ||| (b2 >>> 4)),
        tableChar table (((b2 &&& 0x0f) <<< 2) ||| ((0 : UInt8) >>> 6))] ++ pad := by
  rw [charEncodeLoop, sextet3_alone]

theorem charEncodeLoop_one (b1 : UInt8) :
    charEncodeLoop table pad [b1] =
      [tableChar table (b1 >>> 2), tableChar table (((b1 &&& 0x03) <<< 4) ||| ((0 : UInt8) >>> 4))] ++
        (pad ++ pad) := by
  rw [charEncodeLoop, sextet2_alone, List.append_assoc]

/-- What holds of every character of a table and of the padding holds of the text. -/
theorem charEncodeLoop_forall {good : UInt8 → Prop}
    (chars : ∀ index : UInt8, index.toNat < 64 → good (tableChar table index))
    (padded : ∀ char ∈ pad, good char) :
    ∀ src, ∀ char ∈ charEncodeLoop table pad src, good char
  | b1 :: b2 :: b3 :: src => by
      simp only [charEncodeLoop, List.forall_mem_cons]
      exact ⟨chars _ (sextet1_small b1), chars _ (sextet2_small b1 b2),
        chars _ (sextet3_small b2 b3), chars _ (sextet4_small b3),
        charEncodeLoop_forall chars padded src⟩
  | [b1, b2] => by
      rw [charEncodeLoop_two]
      simp only [List.forall_mem_append, List.forall_mem_cons]
      exact ⟨⟨chars _ (sextet1_small b1), chars _ (sextet2_small b1 b2),
        chars _ (sextet3_small b2 0), List.forall_mem_nil _⟩, padded⟩
  | [b1] => by
      rw [charEncodeLoop_one]
      simp only [List.forall_mem_append, List.forall_mem_cons]
      exact ⟨⟨chars _ (sextet1_small b1), chars _ (sextet2_small b1 0),
        List.forall_mem_nil _⟩, padded, padded⟩
  | [] => List.forall_mem_nil _

/-- Rewriting the characters of one alphabet gives the text of another. -/
theorem map_charEncodeLoop {rewritten : List UInt8} {convert : UInt8 → UInt8}
    (chars : ∀ index : UInt8, index.toNat < 64 →
      convert (tableChar table index) = tableChar rewritten index) : ∀ src,
    (charEncodeLoop table pad src).map convert = charEncodeLoop rewritten (pad.map convert) src
  | b1 :: b2 :: b3 :: src => by
      simp only [charEncodeLoop, List.map_cons]
      rw [chars _ (sextet1_small b1), chars _ (sextet2_small b1 b2), chars _ (sextet3_small b2 b3),
        chars _ (sextet4_small b3), map_charEncodeLoop chars src]
  | [b1, b2] => by
      rw [charEncodeLoop_two, charEncodeLoop_two]
      simp only [List.map_append, List.map_cons, List.map_nil]
      rw [chars _ (sextet1_small b1), chars _ (sextet2_small b1 b2), chars _ (sextet3_small b2 0)]
  | [b1] => by
      rw [charEncodeLoop_one, charEncodeLoop_one]
      simp only [List.map_append, List.map_cons, List.map_nil]
      rw [chars _ (sextet1_small b1), chars _ (sextet2_small b1 0)]
  | [] => rfl

theorem charEncodeLoop_padded (table : List UInt8) : ∀ src, ∃ missing,
    charEncodeLoop table [padding] src =
      charEncodeLoop table [] src ++ List.replicate missing padding
  | b1 :: b2 :: b3 :: src => by
      obtain ⟨missing, rest⟩ := charEncodeLoop_padded table src
      refine ⟨missing, ?_⟩
      simp only [charEncodeLoop, rest, List.cons_append]
  | [b1, b2] => ⟨1, rfl⟩
  | [b1] => ⟨2, rfl⟩
  | [] => ⟨0, rfl⟩

theorem rdropWhile_padding {text : List UInt8} (plain : ∀ char ∈ text, char ≠ padding)
    (missing : Nat) :
    (text ++ List.replicate missing padding).rdropWhile (· = padding) = text := by
  induction missing with
  | zero =>
      rw [List.replicate_zero, List.append_nil, List.rdropWhile_eq_self_iff]
      intro nonempty
      simpa using plain _ (List.getLast_mem nonempty)
  | succ missing ih =>
      rw [List.replicate_succ', ← List.append_assoc, List.rdropWhile_concat_pos _ _ _ (by simp), ih]

end Text

/-! ## Block by block -/

section Blocks

/-- A character is kept until there are four. -/
theorem charBase64DecodeLoop_char {index : UInt8} (small : index.toNat < 64)
    (pending : List UInt8) (room : pending.length < 3) (src out : List UInt8) :
    charBase64DecodeLoop (tableChar base64Table index :: src) pending 0 out =
      charBase64DecodeLoop src (pending ++ [index]) 0 out := by
  have known : index ≠ 0x80 := fun foreign => by
    rw [foreign] at small
    exact absurd small (by decide)
  have plain := alphabet_base64.plain index small
  rw [charBase64DecodeLoop, alphabet_base64.index index small, if_neg known, if_neg plain]
  match pending, room with
  | [], _ => rfl
  | [first], _ => rfl
  | [first, second], _ => rfl

theorem charBase64DecodeLoop_two {first second : UInt8} (small1 : first.toNat < 64)
    (small2 : second.toNat < 64) (src out : List UInt8) :
    charBase64DecodeLoop (tableChar base64Table first :: tableChar base64Table second :: src)
      [] 0 out = charBase64DecodeLoop src [first, second] 0 out := by
  rw [charBase64DecodeLoop_char small1 [] (by decide)]
  exact charBase64DecodeLoop_char small2 [first] (Nat.le_add_left 2 1) src out

theorem charBase64DecodeLoop_third {first second third : UInt8} (small : third.toNat < 64)
    (src out : List UInt8) :
    charBase64DecodeLoop (tableChar base64Table third :: src) [first, second] 0 out =
      charBase64DecodeLoop src [first, second, third] 0 out :=
  charBase64DecodeLoop_char small [first, second] (Nat.le_refl 3) src out

theorem charBase64DecodeLoop_group (b1 b2 b3 : UInt8) (src out : List UInt8) :
    charBase64DecodeLoop (charEncodeLoop base64Table [padding] (b1 :: b2 :: b3 :: src)) [] 0 out =
      charBase64DecodeLoop (charEncodeLoop base64Table [padding] src) [] 0
        (out ++ [b1, b2, b3]) := by
  have last := sextet4_small b3
  have known : b3 &&& 0x3f ≠ 0x80 := fun foreign => by
    rw [foreign] at last
    exact absurd last (by decide)
  rw [charEncodeLoop, charBase64DecodeLoop_two (sextet1_small b1) (sextet2_small b1 b2),
    charBase64DecodeLoop_third (sextet3_small b2 b3), charBase64DecodeLoop,
    alphabet_base64.index _ last, if_neg known, if_neg (alphabet_base64.plain _ last)]
  exact congrArg (charBase64DecodeLoop _ [] 0 <| out ++ ·) (block_sextets b1 b2 b3)

/-- The loop ends with the bytes that the text was made of, whatever is behind
them. -/
theorem charBase64DecodeLoop_encode : ∀ src out, ∃ decoded,
    charBase64DecodeLoop (charEncodeLoop base64Table [padding] src) [] 0 out = some decoded ∧
    decoded.bytes = out ++ src ∧ decoded.outLen = out.length + src.length
  | b1 :: b2 :: b3 :: src, out => by
      obtain ⟨decoded, result, bytes, length⟩ :=
        charBase64DecodeLoop_encode src (out ++ [b1, b2, b3])
      refine ⟨decoded, (charBase64DecodeLoop_group b1 b2 b3 src out).trans result, ?_, ?_⟩
      · rw [bytes, List.append_assoc]
        rfl
      · rw [length, List.length_append, Nat.add_assoc, Nat.add_comm _ src.length]
        rfl
  | [b1, b2], out => by
      have group := block_sextets b1 b2 0
      refine ⟨⟨out ++ [b1, b2, 0], (out ++ [b1, b2, 0]).length - 1⟩, ?_, ?_, ?_⟩
      · rw [charEncodeLoop_two, List.cons_append, List.cons_append, List.cons_append,
          charBase64DecodeLoop_two (sextet1_small b1) (sextet2_small b1 b2),
          charBase64DecodeLoop_third (sextet3_small b2 0), ← group]
        rfl
      · simp [Decoded.bytes, List.take_append, List.take_of_length_le]
      · simp
  | [b1], out => by
      have group := block_sextets b1 0 0
      refine ⟨⟨out ++ [b1, 0, 0], (out ++ [b1, 0, 0]).length - 2⟩, ?_, ?_, ?_⟩
      · rw [charEncodeLoop_one, List.cons_append, List.cons_append,
          charBase64DecodeLoop_two (sextet1_small b1) (sextet2_small b1 0), ← group]
        rfl
      · simp [Decoded.bytes, List.take_append, List.take_of_length_le]
      · simp
  | [], out => ⟨⟨out, out.length⟩, rfl, by simp [Decoded.bytes], rfl⟩

end Blocks

/-! ## Group by group -/

section Groups

variable (b1 b2 b3 : UInt8)

theorem base64EncodeRound_three : base64EncodeRound b1 (some b2) (some b3) 0 =
    ([tableChar base64Table (b1 >>> 2),
      tableChar base64Table (((b1 &&& 0x03) <<< 4) ||| (b2 >>> 4)),
      tableChar base64Table (((b2 &&& 0x0f) <<< 2) ||| (b3 >>> 6)),
      tableChar base64Table (b3 &&& 0x3f)], 0) := by
  obtain ⟨first, second, third, fourth⟩ := word_sextets b1 b2 b3 rfl
  simp only [base64EncodeRound, Option.getD_some, first, second, third, fourth]
  rfl

theorem base64EncodeRound_two : (base64EncodeRound b1 (some b2) none 0).1 =
    [tableChar base64Table (b1 >>> 2),
      tableChar base64Table (((b1 &&& 0x03) <<< 4) ||| (b2 >>> 4)),
      tableChar base64Table (((b2 &&& 0x0f) <<< 2) ||| ((0 : UInt8) >>> 6)), padding] := by
  obtain ⟨first, second, third, -⟩ := word_sextets b1 b2 0 rfl
  simp only [base64EncodeRound, Option.getD_some, Option.getD_none, first, second, third]
  rfl

theorem base64EncodeRound_one : (base64EncodeRound b1 none none 0).1 =
    [tableChar base64Table (b1 >>> 2),
      tableChar base64Table (((b1 &&& 0x03) <<< 4) ||| ((0 : UInt8) >>> 4)), padding,
      padding] := by
  obtain ⟨first, second, -, -⟩ := word_sextets b1 0 0 rfl
  simp only [base64EncodeRound, Option.getD_none, first, second]
  rfl

/-- The group-wise encoder writes what the block-wise one writes. -/
theorem base64EncodeLoop_eq :
    ∀ buffer, base64EncodeLoop buffer 0 = charEncodeLoop base64Table [padding] buffer
  | b1 :: b2 :: b3 :: buffer => by
      rw [base64EncodeLoop, base64EncodeRound_three]
      simp only [charEncodeLoop, List.cons_append, List.nil_append, base64EncodeLoop_eq buffer]
  | [b1, b2] => by
      rw [base64EncodeLoop, base64EncodeRound_two, charEncodeLoop_two]
      rfl
  | [b1] => by
      rw [base64EncodeLoop, base64EncodeRound_one, charEncodeLoop_one]
      rfl
  | [] => rfl

/-- What stands in the place of a character that the text lacks. -/
def Lacks (char : Option UInt8) : Prop := char = none ∨ char = some padding

theorem Lacks.index {char : Option UInt8} (lacks : Lacks char) : char.elim 0 tableIndex = 0 := by
  rcases lacks with rfl | rfl
  · rfl
  · exact tableIndex_padding

theorem Lacks.counted {char : Option UInt8} (lacks : Lacks char) :
    char.all (· = padding) = true := by
  rcases lacks with rfl | rfl
  · rfl
  · exact decide_eq_true (rfl : padding = padding)

/-- A table character counts as itself and not as padding. -/
theorem tableChar_counted {index : UInt8} (small : index.toNat < 64) :
    (some (tableChar base64Table index)).all (· = padding) = false :=
  decide_eq_false (alphabet_base64.plain index small)

theorem base64DecodeRound_three :
    base64DecodeRound (tableChar base64Table (b1 >>> 2))
      (tableChar base64Table (((b1 &&& 0x03) <<< 4) ||| (b2 >>> 4)))
      (some (tableChar base64Table (((b2 &&& 0x0f) <<< 2) ||| (b3 >>> 6))))
      (some (tableChar base64Table (b3 &&& 0x3f))) 0 = some ([b1, b2, b3], 0) := by
  have small1 := sextet1_small b1
  have small2 := sextet2_small b1 b2
  have small3 := sextet3_small b2 b3
  have small4 := sextet4_small b3
  obtain ⟨first, second, third⟩ := word_octets b1 b2 b3 rfl
  simp only [base64DecodeRound, List.countP_cons, List.countP_nil, tableChar_counted small1,
    tableChar_counted small2, tableChar_counted small3, tableChar_counted small4, Option.elim_some,
    tableIndex_tableChar _ small1, tableIndex_tableChar _ small2, tableIndex_tableChar _ small3,
    tableIndex_tableChar _ small4, first, second, third]
  rfl

theorem base64DecodeRound_two {last : Option UInt8} (lacks : Lacks last) :
    base64DecodeRound (tableChar base64Table (b1 >>> 2))
      (tableChar base64Table (((b1 &&& 0x03) <<< 4) ||| (b2 >>> 4)))
      (some (tableChar base64Table (((b2 &&& 0x0f) <<< 2) ||| ((0 : UInt8) >>> 6)))) last 0 =
      some ([b1, b2], 1) := by
  have small1 := sextet1_small b1
  have small2 := sextet2_small b1 b2
  have small3 := sextet3_small b2 0
  obtain ⟨first, second, -⟩ := word_octets b1 b2 0 rfl
  have zero : ((0 : UInt8) &&& 0x3f).toUInt32 = 0 := rfl
  rw [zero] at first second
  simp only [base64DecodeRound, List.countP_cons, List.countP_nil, tableChar_counted small1,
    tableChar_counted small2, tableChar_counted small3, lacks.counted, Option.elim_some,
    tableIndex_tableChar _ small1, tableIndex_tableChar _ small2, tableIndex_tableChar _ small3,
    lacks.index, first, second]
  rfl

theorem base64DecodeRound_one {third fourth : Option UInt8} (lacks3 : Lacks third)
    (lacks4 : Lacks fourth) :
    base64DecodeRound (tableChar base64Table (b1 >>> 2))
      (tableChar base64Table (((b1 &&& 0x03) <<< 4) ||| ((0 : UInt8) >>> 4))) third fourth 0 =
      some ([b1], 2) := by
  have small1 := sextet1_small b1
  have small2 := sextet2_small b1 0
  obtain ⟨first, -, -⟩ := word_octets b1 0 0 rfl
  have zero3 : (((0 : UInt8) &&& 0x0f) <<< 2 ||| (0 : UInt8) >>> 6).toUInt32 = 0 := rfl
  have zero4 : ((0 : UInt8) &&& 0x3f).toUInt32 = 0 := rfl
  rw [zero3, zero4] at first
  simp only [base64DecodeRound, List.countP_cons, List.countP_nil, tableChar_counted small1,
    tableChar_counted small2, lacks3.counted, lacks4.counted, tableIndex_tableChar _ small1,
    tableIndex_tableChar _ small2, lacks3.index, lacks4.index, first]
  rfl

/-- The decoder takes the padding and its absence alike. -/
theorem base64DecodeLoop_encode {pad : List UInt8} (padded : pad = [] ∨ pad = [padding]) :
    ∀ src, base64DecodeLoop (charEncodeLoop base64Table pad src) 0 = src
  | b1 :: b2 :: b3 :: src => by
      rw [charEncodeLoop, base64DecodeLoop, base64DecodeRound_three]
      exact congrArg (b1 :: b2 :: b3 :: ·) (base64DecodeLoop_encode padded src)
  | [b1, b2] => by
      rw [charEncodeLoop_two]
      rcases padded with rfl | rfl
      · simp only [List.append_nil, base64DecodeLoop, base64DecodeRound_two b1 b2 (.inl rfl)]
        rfl
      · simp only [List.cons_append, List.nil_append, base64DecodeLoop,
          base64DecodeRound_two b1 b2 (.inr rfl)]
  | [b1] => by
      rw [charEncodeLoop_one]
      rcases padded with rfl | rfl
      · simp only [List.append_nil, base64DecodeLoop,
          base64DecodeRound_one b1 (.inl rfl) (.inl rfl)]
        rfl
      · simp only [List.cons_append, List.nil_append, base64DecodeLoop,
          base64DecodeRound_one b1 (.inr rfl) (.inr rfl)]
  | [] => rfl

end Groups

/-! ## The round trips -/

/-- The text is free of zero bytes, so its terminator ends it. -/
theorem cString_charEncodeLoop {table : List UInt8}
    (nonzero : ∀ index : UInt8, index.toNat < 64 → tableChar table index ≠ 0)
    (src : List UInt8) :
    cString (charEncodeLoop table [padding] src ++ [0]) = charEncodeLoop table [padding] src := by
  have text : ∀ char ∈ charEncodeLoop table [padding] src, char ≠ 0 :=
    charEncodeLoop_forall nonzero (List.forall_mem_singleton.mpr (by decide)) src
  exact cString_zero (fun member => text 0 member rfl) []

theorem Alphabet.nonzero {table : List UInt8} (alphabet : Alphabet table)
    (zero : dtable table 0 = 0x80) {index : UInt8} (small : index.toNat < 64) :
    tableChar table index ≠ 0 := by
  intro terminator
  have known := alphabet.index index small
  rw [terminator, zero] at known
  rw [← known] at small
  exact absurd small (by decide)

theorem cString_base64Encode (stream : List UInt8) :
    cString (base64Encode stream) = charEncodeLoop base64Table [padding] stream := by
  rw [base64Encode, base64EncodeLoop_eq]
  exact cString_charEncodeLoop
    (fun _ small => alphabet_base64.nonzero (by decide) small) stream

theorem cString_base64UrlEncode (stream : List UInt8) :
    cString (base64UrlEncode stream) = charEncodeLoop base64UrlTable [padding] stream := by
  rw [base64UrlEncode, cString_base64Encode,
    map_charEncodeLoop urlChar_tableChar]
  exact cString_charEncodeLoop
    (fun _ small => alphabet_base64Url.nonzero (by decide) small) stream

theorem base64UrlDecode_encode {pad : List UInt8} (padded : pad = [] ∨ pad = [padding])
    (src : List UInt8) : base64UrlDecode (charEncodeLoop base64UrlTable pad src) = src := by
  rw [base64UrlDecode, @map_charEncodeLoop _ pad base64Table]
  · rcases padded with rfl | rfl
    · exact base64DecodeLoop_encode (.inl rfl) src
    · exact base64DecodeLoop_encode (.inr rfl) src
  · exact forall_places (by decide)

/-- The parts of a token come back from the text, from its URL form and from
that form without its padding. -/
theorem base64_roundTrip (stream : List UInt8) :
    base64Decode (cString (base64Encode stream)) = stream ∧
    base64UrlDecode (cString (base64UrlEncode stream)) = stream ∧
    base64UrlDecode ((cString (base64UrlEncode stream)).rdropWhile (· = padding)) = stream := by
  obtain ⟨missing, split⟩ := charEncodeLoop_padded base64UrlTable stream
  have plain : ∀ char ∈ charEncodeLoop base64UrlTable [] stream, char ≠ padding :=
    charEncodeLoop_forall alphabet_base64Url.plain (List.forall_mem_nil _) stream
  rw [cString_base64Encode, cString_base64UrlEncode]
  refine ⟨base64DecodeLoop_encode (.inr rfl) stream, base64UrlDecode_encode (.inr rfl) stream, ?_⟩
  rw [split, rdropWhile_padding plain]
  exact base64UrlDecode_encode (.inl rfl) stream

/-- Every character of a text counts when its decoder sizes the output. -/
theorem validCount_charEncodeLoop {table pad : List UInt8} (alphabet : Alphabet table)
    (padded : ∀ char ∈ pad, char = padding) (src : List UInt8) :
    validCount table (charEncodeLoop table pad src) = (charEncodeLoop table pad src).length := by
  refine List.countP_eq_length.mpr
    (charEncodeLoop_forall (fun index small => ?_) (fun char member => ?_) src)
  · rw [alphabet.index index small]
    refine decide_eq_true fun foreign => ?_
    rw [foreign] at small
    exact absurd small (by decide)
  · rw [padded char member]
    rfl

/-- With its padding the text is made of whole groups. -/
theorem charEncodeLoop_whole (table src : List UInt8) :
    (charEncodeLoop table [padding] src).length = (src.length + 2) / 3 * 4 := by
  have residue : src.length % 3 = 0 ∨ src.length % 3 = 1 ∨ src.length % 3 = 2 := by omega
  rw [charEncodeLoop_length, List.length_singleton, Nat.mul_one]
  rcases residue with residue | residue | residue
  · rw [residue]
    omega
  · rw [residue]
    omega
  · rw [residue]
    omega

/-- The two encoders write the same text, the block-wise one inside what it
allocates, and the decoder of keys gives the bytes back. -/
theorem charBase64Encode_spec (src : List UInt8) (small : src.length < 2 ^ 61) :
    ∃ text, charBase64Encode src = .ok (some text) ∧ base64Encode src = text ++ [0] ∧
      text.length + 1 ≤ outputSize src.length ∧
      (src ≠ [] → ∃ decoded, charBase64Decode text = some decoded ∧ decoded.bytes = src ∧
        decoded.outLen = src.length) := by
  refine ⟨charEncodeLoop base64Table [padding] src, ?_, ?_, ?_, fun nonempty => ?_⟩
  · have below : src.length < 2 ^ 62 := small.trans (by decide)
    rw [charBase64Encode, charEncode_eq base64Table [padding] src (Nat.le_refl 1), if_pos below]
  · rw [base64Encode, base64EncodeLoop_eq]
  · rw [charEncodeLoop_length, outputSize, List.length_singleton]
    omega
  · have length := charEncodeLoop_whole base64Table src
    have positive := List.length_pos_of_ne_nil nonempty
    have whole : ¬ ((charEncodeLoop base64Table [padding] src).length = 0 ∨
        (charEncodeLoop base64Table [padding] src).length % 4 ≠ 0) := by
      omega
    obtain ⟨decoded, result, bytes, outLen⟩ := charBase64DecodeLoop_encode src []
    refine ⟨decoded, ?_, bytes, outLen.trans (Nat.zero_add _)⟩
    rw [charBase64Decode, validCount_charEncodeLoop alphabet_base64
      (fun _ member => List.mem_singleton.mp member), if_neg whole, result]

theorem charBase64Encode_two : ([1, 2] : List UInt8).length < 2 ^ 61 ∧
    ∃ text, charBase64Encode [1, 2] = .ok (some text) ∧ base64Encode [1, 2] = text ++ [0] ∧
      text.length + 1 ≤ outputSize 2 ∧
      (([1, 2] : List UInt8) ≠ [] → ∃ decoded, charBase64Decode text = some decoded ∧
        decoded.bytes = [1, 2] ∧ decoded.outLen = 2) :=
  ⟨by decide, charBase64Encode_spec [1, 2] (by decide)⟩

end PodrumMisc.Base64
