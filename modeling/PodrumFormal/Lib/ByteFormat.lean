import Mathlib.Computability.Language
import PodrumFormal.Lib.ByteLayout

/-!
# Formats as languages

What a reader accepts where the value read does not matter: a language over the
bytes.  A sequence of readers takes a product, a counted loop a power, and a
loop whose test reads the turns that lead out of it.
-/

set_option autoImplicit false

namespace ByteFormat

open ByteReader ByteLayout

variable {α β : Type}

abbrev Format := Language UInt8

/-- The blocks of a layout, whatever their value. -/
def blocks (layout : Layout α) : Format := {block | ∃ value, layout value block}

/-- Any so many bytes. -/
def anyBytes (count : Nat) : Format := {block | block.length = count}

/-- A block of the layout and then one that depends on its value. -/
def followed (layout : Layout α) (more : α → Format) : Format :=
  {block | ∃ value first, layout value first ∧ ∃ second ∈ more value, first ++ second = block}

/-- A block that is there under a condition only. -/
def optional (present : Bool) (format : Format) : Format := if present then format else 1

theorem mem_anyBytes {count : Nat} {block : List UInt8} :
    block ∈ anyBytes count ↔ block.length = count := Iff.rfl

theorem anyBytes_mul (first second : Nat) :
    anyBytes first * anyBytes second = anyBytes (first + second) := by
  ext block
  rw [Language.mem_mul, mem_anyBytes]
  constructor
  · rintro ⟨head, rfl, tail, rfl, rfl⟩
    exact List.length_append
  · intro length
    have short : (block.take first).length = first := List.length_take_of_le (by omega)
    have rest : (block.drop first).length = second := by rw [List.length_drop]; omega
    exact ⟨_, short, _, rest, List.take_append_drop first block⟩

theorem anyBytes_mul_mul (first second : Nat) (more : Format) :
    anyBytes first * (anyBytes second * more) = anyBytes (first + second) * more := by
  rw [← mul_assoc, anyBytes_mul]

theorem followed_mul (layout : Layout α) (more : α → Format) (last : Format) :
    followed layout more * last = followed layout fun value => more value * last := by
  ext block
  rw [Language.mem_mul]
  constructor
  · rintro ⟨_, ⟨value, first, head, second, member, rfl⟩, others, tail, rfl⟩
    exact ⟨value, first, head, second ++ others, Language.append_mem_mul member tail,
      (List.append_assoc ..).symm⟩
  · rintro ⟨value, first, head, _, member, rfl⟩
    obtain ⟨second, inside, others, tail, rfl⟩ := Language.mem_mul.mp member
    exact ⟨first ++ second, ⟨value, first, head, second, inside, rfl⟩, others, tail,
      List.append_assoc ..⟩

/-- Where one value only is gone on with. -/
theorem followed_only [DecidableEq α] {layout : Layout α} {more first : Format} (value : α)
    (same : ∀ block, layout value block ↔ block ∈ first) :
    (followed layout fun other => if other = value then more else 0) = first * more := by
  ext block
  rw [Language.mem_mul]
  constructor
  · rintro ⟨other, head, holds, second, member, rfl⟩
    dsimp only at member
    split at member
    · rename_i equal
      subst equal
      exact ⟨head, (same head).mp holds, second, member, rfl⟩
    · exact absurd member (Language.notMem_zero second)
  · rintro ⟨head, holds, second, member, rfl⟩
    exact ⟨value, head, (same head).mpr holds, second, by simpa using member, rfl⟩

/-- The reader takes the blocks of the format, and nothing else. -/
structure Takes (format : Format) (reader : Reader α) : Prop where
  reads : ∀ block ∈ format, ∀ rest, ∃ value, reader (block ++ rest) = some (value, rest)
  split : ∀ bytes value rest, reader bytes = some (value, rest) →
    ∃ block ∈ format, bytes = block ++ rest

theorem takes_blocks {layout : Layout α} {reader : Reader α}
    (describes : Describes layout reader) : Takes (blocks layout) reader where
  reads block member rest := by
    obtain ⟨value, holds⟩ := member
    exact ⟨value, describes.reads value block holds rest⟩
  split bytes value rest success := by
    obtain ⟨block, holds, same⟩ := describes.split bytes value rest success
    exact ⟨block, ⟨value, holds⟩, same⟩

namespace Takes

variable {format more : Format} {reader : Reader α}

theorem isSome_iff (takes : Takes format reader) (bytes : List UInt8) :
    (reader bytes).isSome ↔ bytes ∈ format * ⊤ := by
  rw [Option.isSome_iff_exists, Language.mem_mul]
  constructor
  · rintro ⟨⟨value, rest⟩, success⟩
    obtain ⟨block, member, same⟩ := takes.split bytes value rest success
    exact ⟨block, member, rest, trivial, same.symm⟩
  · rintro ⟨block, member, rest, -, rfl⟩
    obtain ⟨value, read⟩ := takes.reads block member rest
    exact ⟨(value, rest), read⟩

/-- What the reader takes as a whole is in the format. -/
theorem mem_of_reads (takes : Takes format reader) {block : List UInt8} {value : α}
    (reads : Reads reader block value) : block ∈ format := by
  obtain ⟨taken, member, same⟩ := takes.split _ _ _ (reads [])
  rw [List.append_nil, List.append_nil] at same
  rwa [same]

/-- As a layout, where the value is of the unit type. -/
theorem describes {reader : Reader Unit} (takes : Takes format reader) :
    Describes (fun _ block => block ∈ format) reader where
  reads _ block member rest := (takes.reads block member rest).elim fun _ read => read
  split bytes value rest success := takes.split bytes value rest success

theorem congr (takes : Takes format reader) {other : Format}
    (same : ∀ block, block ∈ other ↔ block ∈ format) : Takes other reader := by
  obtain rfl : other = format := Set.ext same
  exact takes

theorem pure (value : α) : Takes 1 (Pure.pure value : Reader α) where
  reads block member rest := by
    obtain rfl := (Language.mem_one block).mp member
    exact ⟨value, rfl⟩
  split bytes result rest success := by
    cases success
    exact ⟨[], Language.nil_mem_one, rfl⟩

theorem bind (takes : Takes format reader) {next : α → Reader β}
    (others : ∀ value, Takes more (next value)) : Takes (format * more) (reader >>= next) where
  reads block member rest := by
    obtain ⟨first, head, second, tail, rfl⟩ := Language.mem_mul.mp member
    obtain ⟨value, read⟩ := takes.reads first head (second ++ rest)
    obtain ⟨result, later⟩ := (others value).reads second tail rest
    refine ⟨result, ?_⟩
    rw [bind_apply, List.append_assoc, read]
    exact later
  split bytes result rest success := by
    obtain ⟨⟨value, middle⟩, first, later⟩ := Option.bind_eq_some_iff.mp success
    obtain ⟨front, head, rfl⟩ := takes.split bytes value middle first
    obtain ⟨back, tail, rfl⟩ := (others value).split middle result rest later
    exact ⟨front ++ back, Language.append_mem_mul head tail, (List.append_assoc ..).symm⟩

theorem followed {layout : Layout α} (describes : Describes layout reader)
    {next : α → Reader β} {more : α → Format} (others : ∀ value, Takes (more value) (next value)) :
    Takes (followed layout more) (reader >>= next) where
  reads block member rest := by
    obtain ⟨value, first, head, second, tail, rfl⟩ := member
    obtain ⟨result, later⟩ := (others value).reads second tail rest
    refine ⟨result, ?_⟩
    rw [List.append_assoc, (describes.reads value first head).run_bind]
    exact later
  split bytes result rest success := by
    obtain ⟨⟨value, middle⟩, first, later⟩ := Option.bind_eq_some_iff.mp success
    obtain ⟨front, head, rfl⟩ := describes.split bytes value middle first
    obtain ⟨back, tail, rfl⟩ := (others value).split middle result rest later
    exact ⟨front ++ back, ⟨value, front, head, back, tail, rfl⟩, (List.append_assoc ..).symm⟩

/-- No block is taken. -/
theorem fails (failure : ∀ bytes, reader bytes = none) : Takes 0 reader where
  reads block member := absurd member (Language.notMem_zero block)
  split bytes value rest success := by
    rw [failure] at success
    cases success

/-- A reader that is lenient where the bytes end, with another behind it. -/
theorem agree_bind {lenient : Reader α} (agree : Agree lenient reader)
    (takes : Takes format reader) {next : α → Reader β} (others : ∀ value, Takes more (next value))
    (atEnd : ∀ value, next value [] = none) : Takes (format * more) (lenient >>= next) := by
  rw [agree.before next atEnd]
  exact takes.bind others

/-- The last reader of a sequence, whose value is converted. -/
theorem map (takes : Takes format reader) (convert : α → β) :
    Takes format (reader >>= fun value => Pure.pure (convert value)) := by
  have both := takes.bind fun value => pure (convert value)
  rwa [mul_one] at both

theorem sized {size : Nat} (sized : Sized size reader) : Takes (anyBytes size) reader where
  reads block member rest := by
    obtain rfl := mem_anyBytes.mp member
    obtain ⟨value, success⟩ := sized.enough (block ++ rest) (by rw [List.length_append]; omega)
    exact ⟨value, by rwa [List.drop_left] at success⟩
  split bytes value rest success := by
    have enough := (sized.isSome_iff bytes).mp (Option.isSome_of_eq_some success)
    obtain ⟨other, read⟩ := sized.enough bytes enough
    obtain ⟨-, rfl⟩ := Prod.mk.inj (Option.some.inj (success.symm.trans read))
    exact ⟨bytes.take size, List.length_take_of_le enough, (List.take_append_drop ..).symm⟩

theorem readWhen (takes : Takes format reader) (present : Bool) (absent : α) :
    Takes (optional present format) (readWhen present reader absent) := by
  cases present with
  | true => exact takes
  | false => exact pure absent

theorem readCount (takes : Takes format reader) (count : Nat) :
    Takes (format ^ count) (readCount reader count) := by
  induction count with
  | zero => exact pure []
  | succ count ih =>
      rw [pow_succ']
      exact takes.bind fun head => ih.map fun tail => head :: tail

end Takes

/-- The turns that lead out of a loop. -/
inductive Turns {σ : Type} (layout : σ → Layout (Option σ)) : σ → List UInt8 → Prop
  | last {state : σ} {block : List UInt8} (leaves : layout state none block) :
      Turns layout state block
  | more {state next : σ} {block others : List UInt8} (turn : layout state (some next) block)
      (rest : Turns layout next others) : Turns layout state (block ++ others)

def turnsFormat {σ : Type} (layout : σ → Layout (Option σ)) (state : σ) : Format :=
  {block | Turns layout state block}

theorem Takes.loop {σ : Type} {layout : σ → Layout (Option σ)} {turn : σ → Reader (Option σ)}
    (describes : ∀ state, Describes (layout state) (turn state))
    (progress : ∀ state, Progress (turn state)) (state : σ) :
    Takes (turnsFormat layout state) (loop turn state) where
  reads block member := by
    have reads : Reads (ByteReader.loop turn state) block () := by
      induction member with
      | @last state block leaves =>
          rw [loop_step progress]
          exact ((describes state).reads none block leaves).bind_pure (Reads.pure ())
      | @more state next block others first rest ih =>
          rw [loop_step progress]
          exact ((describes state).reads (some next) block first).bind ih
    exact fun rest => ⟨(), reads rest⟩
  split bytes value rest success := by
    induction size : bytes.length using Nat.strongRecOn generalizing state bytes with
    | ind size ih =>
        subst size
        rw [loop_step progress] at success
        obtain ⟨⟨result, middle⟩, first, later⟩ := Option.bind_eq_some_iff.mp success
        obtain ⟨block, holds, rfl⟩ := (describes state).split bytes result middle first
        cases result with
        | none =>
            cases later
            exact ⟨block, .last holds, rfl⟩
        | some next =>
            have shorter := progress state _ _ _ first
            obtain ⟨others, turns, rfl⟩ := ih _ shorter next middle later rfl
            exact ⟨block ++ others, .more holds turns, (List.append_assoc ..).symm⟩

end ByteFormat
