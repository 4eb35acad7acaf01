import PodrumFormal.Lib.Endian

/-!
# Layouts of bytes

What a reader accepts, as a relation between a value and the block of bytes
that encodes it.  A reader with a layout returns exactly when the bytes begin
with such a block, which says of every sequence, option and loop of readers
when it stays inside the bytes.
-/

set_option autoImplicit false

namespace ByteLayout

open ByteReader Endian

abbrev Layout (α : Type) := α → List UInt8 → Prop

variable {α β : Type}

/-- The reader takes the blocks of the layout, and nothing else. -/
structure Describes (layout : Layout α) (reader : Reader α) : Prop where
  reads : ∀ value block, layout value block → Reads reader block value
  split : ∀ bytes value rest, reader bytes = some (value, rest) →
    ∃ block, layout value block ∧ bytes = block ++ rest

/-- Bytes that begin with a block of the layout. -/
def Starts (layout : Layout α) (bytes : List UInt8) : Prop :=
  ∃ value block rest, layout value block ∧ bytes = block ++ rest

/-- A block that is there under a condition only. -/
def When (present : Bool) (layout : Layout α) (absent : α) : Layout α := fun value block =>
  if present then layout value block else value = absent ∧ block = []

/-- Values one after the other. -/
inductive Row (layout : Layout α) : List α → List UInt8 → Prop
  | nil : Row layout [] []
  | cons {value : α} {block : List UInt8} {values : List α} {rest : List UInt8}
      (head : layout value block) (tail : Row layout values rest) :
      Row layout (value :: values) (block ++ rest)

namespace Describes

variable {layout : Layout α} {reader : Reader α}

theorem isSome_iff (describes : Describes layout reader) (bytes : List UInt8) :
    (reader bytes).isSome ↔ Starts layout bytes := by
  rw [Option.isSome_iff_exists]
  constructor
  · rintro ⟨⟨value, rest⟩, success⟩
    obtain ⟨block, holds, same⟩ := describes.split bytes value rest success
    exact ⟨value, block, rest, holds, same⟩
  · rintro ⟨value, block, rest, holds, rfl⟩
    exact ⟨(value, rest), describes.reads value block holds rest⟩

theorem congr (describes : Describes layout reader) {other : Layout α}
    (same : ∀ value block, other value block ↔ layout value block) : Describes other reader where
  reads value block holds := describes.reads value block ((same value block).mp holds)
  split bytes value rest success := by
    obtain ⟨block, holds, shape⟩ := describes.split bytes value rest success
    exact ⟨block, (same value block).mpr holds, shape⟩

theorem pure (value : α) :
    Describes (fun result block => result = value ∧ block = []) (Pure.pure value : Reader α) where
  reads result block holds := by
    obtain ⟨rfl, rfl⟩ := holds
    exact Reads.pure result
  split bytes result rest success := by
    cases success
    exact ⟨[], ⟨rfl, rfl⟩, rfl⟩

theorem bind (describes : Describes layout reader) {next : α → Reader β} {after : α → Layout β}
    (others : ∀ value, Describes (after value) (next value)) :
    Describes
      (fun result block => ∃ value first second, layout value first ∧
        after value result second ∧ block = first ++ second)
      (reader >>= next) where
  reads result block holds := by
    obtain ⟨value, first, second, head, tail, rfl⟩ := holds
    exact (describes.reads value first head).bind ((others value).reads result second tail)
  split bytes result rest success := by
    obtain ⟨⟨value, middle⟩, first, later⟩ := Option.bind_eq_some_iff.mp success
    obtain ⟨front, head, rfl⟩ := describes.split bytes value middle first
    obtain ⟨back, tail, rfl⟩ := (others value).split middle result rest later
    exact ⟨front ++ back, ⟨value, front, back, head, tail, rfl⟩, (List.append_assoc ..).symm⟩

/-- A conversion with an inverse. -/
theorem map (describes : Describes layout reader) {convert : α → β} {back : β → α}
    (inverse : ∀ value block, layout value block → back (convert value) = value)
    (section' : ∀ result, convert (back result) = result) :
    Describes (fun result block => layout (back result) block)
      (reader >>= fun value => Pure.pure (convert value)) where
  reads result block holds := (describes.reads (back result) block holds).map (section' result)
  split bytes result rest success := by
    obtain ⟨⟨value, middle⟩, first, success⟩ := Option.bind_eq_some_iff.mp success
    cases success
    obtain ⟨block, holds, rfl⟩ := describes.split bytes value rest first
    exact ⟨block, by rwa [inverse value block holds], rfl⟩

/-- A conversion that is not one to one. -/
theorem image (describes : Describes layout reader) (convert : α → β) :
    Describes (fun result block => ∃ value, layout value block ∧ result = convert value)
      (reader >>= fun value => Pure.pure (convert value)) where
  reads result block holds := by
    obtain ⟨value, described, rfl⟩ := holds
    exact (describes.reads value block described).map rfl
  split bytes result rest success := by
    obtain ⟨⟨value, middle⟩, first, success⟩ := Option.bind_eq_some_iff.mp success
    cases success
    obtain ⟨block, holds, rfl⟩ := describes.split bytes value rest first
    exact ⟨block, ⟨value, holds, rfl⟩, rfl⟩

theorem readByte : Describes (fun value block => block = [value]) readByte where
  reads value block holds := by
    rw [holds]
    exact Reads.byte value
  split bytes value rest success := by
    cases bytes with
    | nil => cases success
    | cons byte tail =>
        cases success
        exact ⟨[value], rfl, rfl⟩

theorem readBytes (count : Nat) :
    Describes (fun value block => block = value ∧ value.length = count) (readBytes count) where
  reads value block holds := by
    obtain ⟨rfl, rfl⟩ := holds
    exact Reads.bytes block
  split bytes value rest success := by
    rw [ByteReader.readBytes] at success
    split at success
    · rename_i enough
      cases success
      exact ⟨bytes.take count, ⟨rfl, List.length_take_of_le enough⟩,
        (List.take_append_drop count bytes).symm⟩
    · cases success

/-- A size that passes a test, and as many bytes. -/
theorem measured (describes : Describes layout reader) {passes : α → Prop} {length : α → Nat}
    {next : α → Reader (List UInt8)}
    (taken : ∀ size, passes size → next size = ByteReader.readBytes (length size))
    (refused : ∀ size, ¬passes size → ∀ bytes, next size bytes = none) :
    Describes
      (fun text block => ∃ size first, layout size first ∧ passes size ∧
        text.length = length size ∧ block = first ++ text)
      (reader >>= next) where
  reads text block holds := by
    obtain ⟨size, first, head, passed, same, rfl⟩ := holds
    refine (describes.reads size first head).bind ?_
    rw [taken size passed, ← same]
    exact Reads.bytes text
  split bytes text rest success := by
    obtain ⟨size, middle, first, later⟩ := ByteReader.bind_eq_some.mp success
    obtain ⟨block, head, rfl⟩ := describes.split bytes size middle first
    by_cases passed : passes size
    · rw [taken size passed] at later
      obtain ⟨_, ⟨rfl, same⟩, rfl⟩ := (readBytes _).split middle text rest later
      exact ⟨block ++ _, ⟨size, block, head, passed, same, rfl⟩, (List.append_assoc ..).symm⟩
    · rw [refused size passed] at later
      cases later

theorem readLittle (width : Nat) :
    Describes (fun value block => block = littleBytes width value ∧ value < 256 ^ width)
      (readLittle width) where
  reads value block holds := by
    rw [holds.1]
    exact reads_little width value holds.2
  split bytes value rest success := by
    obtain ⟨⟨taken, middle⟩, first, success⟩ := Option.bind_eq_some_iff.mp success
    cases success
    obtain ⟨block, ⟨rfl, length⟩, rfl⟩ := (readBytes width).split bytes taken rest first
    refine ⟨block, ⟨?_, ?_⟩, rfl⟩
    · rw [← length, littleBytes_littleValue]
    · rw [← length]
      exact littleValue_lt block

theorem readBig (width : Nat) :
    Describes (fun value block => block = bigBytes width value ∧ value < 256 ^ width)
      (readBig width) where
  reads value block holds := by
    rw [holds.1]
    exact reads_big width value holds.2
  split bytes value rest success := by
    obtain ⟨⟨taken, middle⟩, first, success⟩ := Option.bind_eq_some_iff.mp success
    cases success
    obtain ⟨block, ⟨rfl, length⟩, rfl⟩ := (readBytes width).split bytes taken rest first
    have width' : block.reverse.length = width := by rw [List.length_reverse, length]
    refine ⟨block, ⟨?_, ?_⟩, rfl⟩
    · rw [bigValue, bigBytes, ← width', littleBytes_littleValue, List.reverse_reverse]
    · rw [bigValue, ← width']
      exact littleValue_lt block.reverse

theorem readWhen (describes : Describes layout reader) (present : Bool) (absent : α) :
    Describes (When present layout absent) (readWhen present reader absent) := by
  cases present with
  | true => exact describes.congr fun value block => by simp [When]
  | false => exact (pure absent).congr fun value block => by simp [When]

/-! ## Loops -/

theorem readCount (describes : Describes layout reader) (count : Nat) :
    Describes (fun values block => values.length = count ∧ Row layout values block)
      (readCount reader count) := by
  induction count with
  | zero =>
      refine (pure []).congr fun values block => ⟨?_, ?_⟩
      · rintro ⟨length, row⟩
        obtain rfl := List.length_eq_zero_iff.mp length
        cases row
        exact ⟨rfl, rfl⟩
      · rintro ⟨rfl, rfl⟩
        exact ⟨rfl, Row.nil⟩
  | succ count ih =>
      refine (describes.bind fun head => ih.bind fun tail => pure (head :: tail)).congr
        fun values block => ⟨?_, ?_⟩
      · rintro ⟨length, row⟩
        cases row with
        | nil => cases length
        | @cons value first values rest head tail =>
            exact ⟨value, first, rest, head,
              ⟨values, rest, [], ⟨by simpa using length, tail⟩, ⟨rfl, rfl⟩,
                (List.append_nil rest).symm⟩, rfl⟩
      · rintro ⟨value, first, rest, head, ⟨values, second, last, ⟨rfl, tail⟩, ⟨rfl, rfl⟩, rfl⟩, rfl⟩
        rw [List.append_nil]
        exact ⟨rfl, Row.cons head tail⟩

/-- The loop up to the end returns exactly on a row of blocks. -/
theorem readAll_iff (describes : Describes layout reader) (progress : Progress reader)
    (bytes : List UInt8) (values : List α) (final : List UInt8) :
    readAll reader bytes = some (values, final) ↔ final = [] ∧ Row layout values bytes := by
  constructor
  · intro success
    induction values generalizing bytes with
    | nil =>
        cases bytes with
        | nil =>
            rw [readAll_nil] at success
            cases success
            exact ⟨rfl, Row.nil⟩
        | cons byte tail =>
            rw [readAll_step progress _ (List.cons_ne_nil byte tail)] at success
            obtain ⟨⟨head, rest⟩, -, success⟩ := Option.bind_eq_some_iff.mp success
            obtain ⟨⟨others, last⟩, -, success⟩ := Option.bind_eq_some_iff.mp success
            cases success
    | cons value values ih =>
        cases bytes with
        | nil =>
            rw [readAll_nil] at success
            cases success
        | cons byte tail =>
            rw [readAll_step progress _ (List.cons_ne_nil byte tail)] at success
            obtain ⟨⟨head, rest⟩, first, success⟩ := Option.bind_eq_some_iff.mp success
            obtain ⟨⟨others, last⟩, loop, success⟩ := Option.bind_eq_some_iff.mp success
            cases success
            obtain ⟨rfl, row⟩ := ih rest loop
            obtain ⟨block, holds, same⟩ := describes.split _ _ _ first
            rw [same]
            exact ⟨rfl, Row.cons holds row⟩
  · rintro ⟨rfl, row⟩
    induction row with
    | nil => exact readAll_nil reader
    | @cons value block values rest head tail ih =>
        have read := describes.reads value block head rest
        have more : block ++ rest ≠ [] := by
          intro empty
          have shorter := progress _ _ _ read
          rw [empty] at shorter
          exact Nat.not_lt_zero _ shorter
        rw [readAll_step progress _ more, read]
        simp only [Option.bind_eq_bind, Option.bind_some, ih]

end Describes

/-! ## Skipped bytes -/

/-- Where another byte is read behind them, skipped bytes have to be there. -/
theorem skip_bind {next : Unit → Reader β} (atEnd : next () [] = none) (count : Nat) :
    (skip count >>= next) = (readBytes count >>= fun _ => next ()) := by
  funext bytes
  by_cases enough : count ≤ bytes.length
  · simp only [bind_apply, skip, readBytes, if_pos enough, Option.bind_some]
  · have past : bytes.drop count = [] := List.drop_eq_nil_of_le (by omega)
    simp only [bind_apply, skip, readBytes, if_neg enough, Option.bind_some, past, atEnd,
      Option.bind_none]

/-- Two readers that differ only where the bytes end, and there not if anything
is read behind them. -/
structure Agree (lenient strict : Reader α) : Prop where
  before : ∀ {γ : Type} (next : α → Reader γ), (∀ value, next value [] = none) →
    (lenient >>= next) = (strict >>= next)

namespace Agree

variable {lenient strict : Reader α}

theorem refl (reader : Reader α) : Agree reader reader := ⟨fun _ _ => rfl⟩

theorem skip (count : Nat) :
    Agree (ByteReader.skip count) (do let _ ← readBytes count; Pure.pure ()) where
  before next atEnd := by
    rw [skip_bind (atEnd ()) count, bind_assoc]
    rfl

theorem bind (head : Agree lenient strict) {more others : α → Reader β}
    (tail : ∀ value, Agree (more value) (others value)) (shrinks : ∀ value, Shrinks (more value)) :
    Agree (lenient >>= more) (strict >>= others) where
  before next atEnd := by
    have ends (value : α) : (more value >>= next) [] = none := by
      rw [bind_apply]
      cases success : more value [] with
      | none => rfl
      | some result =>
          have empty := List.length_eq_zero_iff.mp (Nat.le_zero.mp (shrinks _ _ _ _ success))
          rw [Option.bind_some, empty]
          exact atEnd result.1
    rw [bind_assoc, bind_assoc, head.before _ ends]
    congr 1
    funext value
    exact (tail value).before next atEnd

theorem readCount (agree : Agree lenient strict) (shrinks : Shrinks lenient) (count : Nat) :
    Agree (readCount lenient count) (readCount strict count) := by
  induction count with
  | zero => exact refl _
  | succ count ih =>
      exact agree.bind (fun head => ih.bind (fun tail => refl _) fun tail => Shrinks.pure _)
        fun head => (shrinks.readCount count).bind fun tail => Shrinks.pure (head :: tail)

theorem loop {σ : Type} {turn other : σ → Reader (Option σ)}
    (agree : ∀ state, Agree (turn state) (other state))
    (shrinks : ∀ state, Shrinks (turn state)) (state : σ) :
    Agree (loop turn state) (loop other state) := by
  have within : ∀ fuel state,
      Agree (loopWithin turn fuel state) (loopWithin other fuel state) := by
    intro fuel
    induction fuel with
    | zero => exact fun _ => refl _
    | succ fuel ih =>
        intro state
        refine (agree state).bind ?_ ?_
        · rintro (_ | next)
          · exact refl _
          · exact ih next
        · rintro (_ | next)
          · exact Shrinks.pure ()
          · exact Shrinks.loopWithin shrinks fuel next
  refine ⟨fun next atEnd => ?_⟩
  funext bytes
  exact congrFun ((within (bytes.length + 1) state).before next atEnd) bytes

end Agree

/-! ## Readers of a fixed size -/

/-- The reader takes so many bytes, whatever they are. -/
structure Sized (size : Nat) (reader : Reader α) : Prop where
  enough : ∀ bytes, size ≤ bytes.length → ∃ value, reader bytes = some (value, bytes.drop size)
  short : ∀ bytes, bytes.length < size → reader bytes = none

namespace Sized

variable {size more : Nat} {reader : Reader α}

theorem isSome_iff (sized : Sized size reader) (bytes : List UInt8) :
    (reader bytes).isSome ↔ size ≤ bytes.length := by
  by_cases enough : size ≤ bytes.length
  · obtain ⟨value, success⟩ := sized.enough bytes enough
    rw [success]
    exact iff_of_true rfl enough
  · rw [sized.short bytes (by omega)]
    exact iff_of_false Bool.false_ne_true enough

theorem progress (sized : Sized size reader) (positive : 0 < size) : Progress reader := by
  intro bytes value rest success
  have enough := (sized.isSome_iff bytes).mp (Option.isSome_of_eq_some success)
  obtain ⟨other, read⟩ := sized.enough bytes enough
  obtain ⟨-, rfl⟩ := Prod.mk.inj (Option.some.inj (success.symm.trans read))
  rw [List.length_drop]
  omega

theorem pure (value : α) : Sized 0 (Pure.pure value : Reader α) :=
  ⟨fun _ _ => ⟨value, rfl⟩, fun _ short => absurd short (Nat.not_lt_zero _)⟩

theorem readByte : Sized 1 readByte := by
  refine ⟨fun bytes enough => ?_, fun bytes short => ?_⟩
  · cases bytes with
    | nil => exact absurd enough (by decide)
    | cons byte tail => exact ⟨byte, rfl⟩
  · cases bytes with
    | nil => rfl
    | cons byte tail =>
        rw [List.length_cons] at short
        omega

theorem readBytes (count : Nat) : Sized count (readBytes count) :=
  ⟨fun bytes enough => ⟨bytes.take count, if_pos enough⟩,
    fun _ short => if_neg (Nat.not_le.mpr short)⟩

theorem bind (sized : Sized size reader) {next : α → Reader β}
    (others : ∀ value, Sized more (next value)) : Sized (size + more) (reader >>= next) := by
  refine ⟨fun bytes enough => ?_, fun bytes short => ?_⟩
  · obtain ⟨value, first⟩ := sized.enough bytes (by omega)
    obtain ⟨result, second⟩ := (others value).enough (bytes.drop size)
      (by rw [List.length_drop]; omega)
    refine ⟨result, ?_⟩
    rw [bind_apply, first, Option.bind_some, second, List.drop_drop]
  · rw [bind_apply]
    by_cases enough : size ≤ bytes.length
    · obtain ⟨value, first⟩ := sized.enough bytes enough
      rw [first, Option.bind_some]
      exact (others value).short _ (by rw [List.length_drop]; omega)
    · rw [sized.short bytes (by omega), Option.bind_none]

theorem skip_bind {next : Unit → Reader β} (count more : Nat) (other : Sized more (next ()))
    (some : 0 < more) : Sized (count + more) (skip count >>= next) := by
  rw [ByteLayout.skip_bind (other.short [] some)]
  exact (readBytes count).bind fun _ => other

theorem readLittle (width : Nat) : Sized width (readLittle width) :=
  (readBytes width).bind fun _ => pure _

theorem readBig (width : Nat) : Sized width (readBig width) :=
  (readBytes width).bind fun _ => pure _

end Sized

end ByteLayout
