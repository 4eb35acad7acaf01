import Mathlib.Data.List.Basic

/-!
# Readers over a byte list

A reader takes a value off the front of the remaining bytes; `none` is a read
past the last byte.  `Reads reader bytes value` says that the reader takes
exactly `bytes`, whatever follows them.  The rules below compose it along a
sequence, an optional field, a counted loop and a loop up to the end.
-/

set_option autoImplicit false

namespace ByteReader

abbrev Reader (α : Type) := StateT (List UInt8) Option α

variable {α β γ : Type}

theorem bind_apply (reader : Reader α) (next : α → Reader β) (bytes : List UInt8) :
    (reader >>= next) bytes = (reader bytes).bind fun result => next result.1 result.2 := rfl

theorem bind_eq_some {reader : Reader α} {next : α → Reader β} {bytes rest : List UInt8}
    {result : β} : (reader >>= next) bytes = some (result, rest) ↔
      ∃ value middle, reader bytes = some (value, middle) ∧
        next value middle = some (result, rest) := by
  rw [bind_apply, Option.bind_eq_some_iff, Prod.exists]

theorem pure_apply (value : α) (bytes : List UInt8) :
    (pure value : Reader α) bytes = some (value, bytes) := rfl

/-- The next byte. -/
def readByte : Reader UInt8 := fun
  | [] => none
  | byte :: rest => some (byte, rest)

/-- The next `count` bytes. -/
def readBytes (count : Nat) : Reader (List UInt8) := fun bytes =>
  if count ≤ bytes.length then some (bytes.take count, bytes.drop count) else none

/-- An advance of the offset without a look at the bytes: it cannot fail, a
later read does. -/
def skip (count : Nat) : Reader Unit := fun bytes => some ((), bytes.drop count)

/-- A field that is there under a condition only. -/
def readWhen (present : Bool) (reader : Reader α) (absent : α) : Reader α :=
  if present then reader else pure absent

def readCount (reader : Reader α) : Nat → Reader (List α)
  | 0 => pure []
  | count + 1 => do
      let head ← reader
      let tail ← readCount reader count
      pure (head :: tail)

/-- The cells of an array of a fixed size, in their order. -/
def readVector (reader : Reader α) : (count : Nat) → Reader (Vector α count)
  | 0 => pure #v[]
  | count + 1 => do
      let cells ← readVector reader count
      let last ← reader
      pure (cells.push last)

def readAllWithin (reader : Reader α) : Nat → Reader (List α)
  | _, [] => some ([], [])
  | 0, _ :: _ => none
  | fuel + 1, bytes@(_ :: _) => do
      let (head, rest) ← reader bytes
      let (tail, final) ← readAllWithin reader fuel rest
      some (head :: tail, final)

/-- The loop `while (offset < size)`.  The fuel is the number of bytes left,
which `readAll_step` shows to be enough for every reader that makes progress. -/
def readAll (reader : Reader α) : Reader (List α) := fun bytes =>
  readAllWithin reader bytes.length bytes

def loopWithin {σ : Type} (turn : σ → Reader (Option σ)) : Nat → σ → Reader Unit
  | 0, _ => fun _ => none
  | fuel + 1, state => turn state >>= fun
      | none => pure ()
      | some next => loopWithin turn fuel next

/-- A loop whose test reads: each turn says what it goes on with, if it does.
The fuel is more than the number of bytes left, which `loop_step` shows to be
enough where every turn makes progress. -/
def loop {σ : Type} (turn : σ → Reader (Option σ)) (state : σ) : Reader Unit := fun bytes =>
  loopWithin turn (bytes.length + 1) state bytes

def Reads (reader : Reader α) (bytes : List UInt8) (value : α) : Prop :=
  ∀ rest, reader (bytes ++ rest) = some (value, rest)

/-- Every successful read takes at least one byte. -/
def Progress (reader : Reader α) : Prop :=
  ∀ bytes value rest, reader bytes = some (value, rest) → rest.length < bytes.length

/-! ## Sequences -/

namespace Reads

theorem pure (value : α) : Reads (Pure.pure value) [] value := fun _ => rfl

theorem bind {reader : Reader α} {next : α → Reader β} {first second : List UInt8}
    {value : α} {result : β} (head : Reads reader first value)
    (tail : Reads (next value) second result) :
    Reads (reader >>= next) (first ++ second) result := by
  intro rest
  rw [bind_apply, List.append_assoc, head (second ++ rest)]
  exact tail rest

theorem run_bind {reader : Reader α} {first : List UInt8} {value : α}
    (head : Reads reader first value) (next : α → Reader β) (rest : List UInt8) :
    (reader >>= next) (first ++ rest) = next value rest := by
  rw [bind_apply, head rest]
  rfl

/-- The last read of a block, whose bytes end the encoding. -/
theorem bind_pure {reader : Reader α} {bytes : List UInt8} {value : α} {result : β}
    {next : α → Reader β} (head : Reads reader bytes value)
    (tail : Reads (next value) [] result) : Reads (reader >>= next) bytes result := by
  simpa using bind head tail

/-- A conversion of the value read. -/
theorem map {reader : Reader α} {bytes : List UInt8} {value : α} {convert : α → β} {result : β}
    (read : Reads reader bytes value) (same : convert value = result) :
    Reads (reader >>= fun raw => Pure.pure (convert raw)) bytes result := by
  subst same
  exact read.bind_pure (pure (convert value))

theorem functor {reader : Reader α} {bytes : List UInt8} {value : α} (convert : α → β)
    (read : Reads reader bytes value) : Reads (convert <$> reader) bytes (convert value) :=
  read.map rfl

theorem byte (value : UInt8) : Reads readByte [value] value := fun _ => rfl

theorem bytes (value : List UInt8) : Reads (readBytes value.length) value value := by
  intro rest
  simp [readBytes]

theorem skip (passed : List UInt8) : Reads (ByteReader.skip passed.length) passed () := by
  intro rest
  simp [ByteReader.skip]

theorem readWhen (present : Bool) {reader : Reader α}
    {bytes : List UInt8} {value : α} (absent : α) (read : present → Reads reader bytes value) :
    Reads (ByteReader.readWhen present reader absent) (if present then bytes else [])
      (if present then value else absent) := by
  unfold ByteReader.readWhen
  cases present with
  | true => simpa using read rfl
  | false => simpa using Reads.pure absent

theorem apply_nil {reader : Reader α} {bytes : List UInt8} {value : α}
    (read : Reads reader bytes value) : reader bytes = some (value, []) := by
  simpa using read []

/-! ## Loops -/

theorem count {reader : Reader α} {encode : β → List UInt8} {decoded : β → α} :
    ∀ values : List β, (∀ value ∈ values, Reads reader (encode value) (decoded value)) →
      Reads (readCount reader values.length) (values.flatMap encode) (values.map decoded) := by
  intro values
  induction values with
  | nil => intro _; exact Reads.pure []
  | cons value rest ih =>
      intro each
      have head := each value (List.mem_cons_self ..)
      have tail := ih fun other member => each other (List.mem_cons_of_mem _ member)
      rw [List.flatMap_cons]
      exact head.bind (tail.bind_pure (Reads.pure _))

theorem vector {reader : Reader α} {encode : α → List UInt8} {count : Nat}
    (values : Vector α count) (each : ∀ value ∈ values.toList, Reads reader (encode value) value) :
    Reads (readVector reader count) (values.toList.flatMap encode) values := by
  induction count with
  | zero =>
      rw [values.eq_empty]
      exact Reads.pure _
  | succ count ih =>
      have cells : values.toList = values.pop.toList ++ [values.back] := by
        rw [← Vector.toList_push, Vector.push_pop_back]
      have front := ih values.pop fun value member =>
        each value (cells ▸ List.mem_append_left _ member)
      have last := each values.back (cells ▸ List.mem_append_right _ List.mem_cons_self)
      have filled : Reads (reader >>= fun last => Pure.pure (values.pop.push last))
          (encode values.back) values := last.map values.push_pop_back
      rw [cells, List.flatMap_append, List.flatMap_singleton]
      exact front.bind filled

end Reads

/-! ## Failure -/

/-- The reader runs out within these bytes, or refuses them, whatever follows. -/
def Fails (reader : Reader α) (bytes : List UInt8) : Prop := ∀ rest, reader (bytes ++ rest) = none

namespace Fails

theorem append {reader : Reader α} {bytes : List UInt8} (failure : Fails reader bytes)
    (more : List UInt8) : Fails reader (bytes ++ more) := by
  intro rest
  rw [List.append_assoc]
  exact failure (more ++ rest)

theorem bind {reader : Reader α} {next : α → Reader β} {bytes : List UInt8}
    (head : Fails reader bytes) : Fails (reader >>= next) bytes := by
  intro rest
  rw [bind_apply, head rest]
  rfl

theorem bind_after {reader : Reader α} {next : α → Reader β} {first second : List UInt8}
    {value : α} (head : Reads reader first value) (tail : Fails (next value) second) :
    Fails (reader >>= next) (first ++ second) := by
  intro rest
  rw [bind_apply, List.append_assoc, head (second ++ rest)]
  exact tail rest

theorem functor {reader : Reader α} {bytes : List UInt8} (convert : α → β)
    (failure : Fails reader bytes) : Fails (convert <$> reader) bytes :=
  show Fails (reader >>= fun value => Pure.pure (convert value)) bytes from failure.bind

end Fails

/-- What holds of every value a reader can return holds of all it reads in
turn. -/
theorem readCount_forall {reader : Reader α} {law : α → Prop}
    (each : ∀ bytes value rest, reader bytes = some (value, rest) → law value) :
    ∀ (count : Nat) (bytes : List UInt8) (values : List α) (rest : List UInt8),
      readCount reader count bytes = some (values, rest) → ∀ value ∈ values, law value := by
  intro count
  induction count with
  | zero =>
      intro bytes values rest success
      cases success
      simp
  | succ count ih =>
      intro bytes values rest success
      rw [readCount, bind_apply] at success
      obtain ⟨⟨head, middle⟩, first, success⟩ := Option.bind_eq_some_iff.mp success
      dsimp only at success
      rw [bind_apply] at success
      obtain ⟨⟨tail, final⟩, others, success⟩ := Option.bind_eq_some_iff.mp success
      cases success
      exact List.forall_mem_cons.mpr ⟨each _ _ _ first, ih _ _ _ others⟩

theorem readAllWithin_nil (reader : Reader α) (fuel : Nat) :
    readAllWithin reader fuel [] = some ([], []) := by
  cases fuel <;> rfl

theorem readAllWithin_enough {reader : Reader α} (progress : Progress reader) :
    ∀ (fuel : Nat) (bytes : List UInt8), bytes.length ≤ fuel →
      readAllWithin reader fuel bytes = readAllWithin reader bytes.length bytes := by
  intro fuel
  induction fuel using Nat.strongRecOn with
  | ind fuel ih =>
      intro bytes enough
      cases bytes with
      | nil => simp [readAllWithin_nil]
      | cons byte tail =>
          cases fuel with
          | zero => simp at enough
          | succ fuel =>
              simp only [List.length_cons, readAllWithin]
              cases call : reader (byte :: tail) with
              | none => rfl
              | some result =>
                  obtain ⟨value, rest⟩ := result
                  have shorter := progress _ _ _ call
                  simp only [List.length_cons] at shorter enough
                  have long : rest.length ≤ fuel := by omega
                  have short : rest.length ≤ tail.length := by omega
                  have same : readAllWithin reader fuel rest =
                      readAllWithin reader tail.length rest := by
                    rw [ih fuel (by omega) rest long, ih tail.length (by omega) rest short]
                  simp only [Option.bind_eq_bind, Option.bind_some, same]

/-- The loop as the source has it: stop at the end, else read one and go on. -/
theorem readAll_step {reader : Reader α} (progress : Progress reader) (bytes : List UInt8)
    (more : bytes ≠ []) :
    readAll reader bytes = (do
      let (head, rest) ← reader bytes
      let (tail, final) ← readAll reader rest
      some (head :: tail, final)) := by
  cases bytes with
  | nil => exact absurd rfl more
  | cons byte tail =>
      simp only [readAll, List.length_cons, readAllWithin]
      cases call : reader (byte :: tail) with
      | none => rfl
      | some result =>
          obtain ⟨value, rest⟩ := result
          have shorter := progress _ _ _ call
          simp only [List.length_cons] at shorter
          simp only [Option.bind_eq_bind, Option.bind_some,
            readAllWithin_enough progress tail.length rest (by omega)]

theorem readAll_nil (reader : Reader α) : readAll reader [] = some ([], []) :=
  readAllWithin_nil reader _

theorem readAll_flatMap {reader : Reader α} (progress : Progress reader)
    {encode : β → List UInt8} {decoded : β → α} :
    ∀ values : List β, (∀ value ∈ values, Reads reader (encode value) (decoded value)) →
      (∀ value ∈ values, encode value ≠ []) →
      readAll reader (values.flatMap encode) = some (values.map decoded, []) := by
  intro values
  induction values with
  | nil => intro _ _; exact readAll_nil reader
  | cons value rest ih =>
      intro each nonempty
      have head := each value (List.mem_cons_self ..)
      have started := nonempty value (List.mem_cons_self ..)
      have tail := ih (fun other member => each other (List.mem_cons_of_mem _ member))
        (fun other member => nonempty other (List.mem_cons_of_mem _ member))
      have more : (value :: rest).flatMap encode ≠ [] := by
        simp [List.flatMap_cons, started]
      rw [readAll_step progress _ more, List.flatMap_cons, head]
      simp [tail]

/-- Where each value takes at least the bytes of its encoding, the loop takes at
least those of all its values. -/
theorem readAll_consumes {reader : Reader α} {encode : α → List UInt8}
    (each : ∀ bytes value rest, reader bytes = some (value, rest) →
      (encode value).length + rest.length ≤ bytes.length) {bytes final : List UInt8}
    {values : List α} (success : readAll reader bytes = some (values, final)) :
    (values.flatMap encode).length + final.length ≤ bytes.length := by
  have within : ∀ fuel bytes values final,
      readAllWithin reader fuel bytes = some (values, final) →
      (values.flatMap encode).length + final.length ≤ bytes.length := by
    intro fuel
    induction fuel with
    | zero =>
        intro bytes values final run
        cases bytes with
        | nil => cases run; exact Nat.le_refl _
        | cons byte tail => cases run
    | succ fuel ih =>
        intro bytes values final run
        cases bytes with
        | nil => cases run; exact Nat.le_refl _
        | cons byte tail =>
            obtain ⟨⟨head, rest⟩, first, run⟩ := Option.bind_eq_some_iff.mp run
            obtain ⟨⟨others, last⟩, loop, run⟩ := Option.bind_eq_some_iff.mp run
            cases run
            have taken := each _ _ _ first
            have left := ih _ _ _ loop
            rw [List.flatMap_cons, List.length_append]
            omega
  exact within _ _ _ _ success

section Loop

variable {σ : Type} {turn : σ → Reader (Option σ)}

theorem loopWithin_enough (progress : ∀ state, Progress (turn state)) :
    ∀ (fuel : Nat) (state : σ) (bytes : List UInt8), bytes.length < fuel →
      loopWithin turn fuel state bytes = loop turn state bytes := by
  intro fuel
  induction fuel using Nat.strongRecOn with
  | ind fuel ih =>
      intro state bytes enough
      cases fuel with
      | zero => exact absurd enough (Nat.not_lt_zero _)
      | succ fuel =>
          simp only [loop, loopWithin, bind_apply]
          cases call : turn state bytes with
          | none => rfl
          | some result =>
              obtain ⟨value, rest⟩ := result
              have shorter := progress state bytes value rest call
              cases value with
              | none => rfl
              | some next =>
                  simp only [Option.bind_some]
                  rw [ih fuel (Nat.lt_succ_self fuel) next rest (by omega),
                    ih bytes.length enough next rest shorter]

theorem loop_step (progress : ∀ state, Progress (turn state)) (state : σ) :
    loop turn state = turn state >>= fun
      | none => pure ()
      | some next => loop turn next := by
  funext bytes
  rw [loop, loopWithin, bind_apply, bind_apply]
  cases call : turn state bytes with
  | none => rfl
  | some result =>
      obtain ⟨value, rest⟩ := result
      cases value with
      | none => rfl
      | some next =>
          exact loopWithin_enough progress _ _ _ (progress state bytes _ rest call)

end Loop

/-! ## Progress -/

theorem readByte_progress : Progress readByte := by
  intro bytes value rest run
  cases bytes with
  | nil => simp [readByte] at run
  | cons byte tail =>
      simp only [readByte, Option.some.injEq, Prod.mk.injEq] at run
      simp [run.2]

/-- A reader never gives bytes back. -/
def Shrinks (reader : Reader α) : Prop :=
  ∀ bytes value rest, reader bytes = some (value, rest) → rest.length ≤ bytes.length

theorem Progress.bind {reader : Reader α} {next : α → Reader β} (head : Progress reader)
    (tail : ∀ value, Shrinks (next value)) : Progress (reader >>= next) := by
  intro bytes result rest run
  obtain ⟨value, middle, headRun, tailRun⟩ := bind_eq_some.mp run
  have first := head _ _ _ headRun
  have second := tail value _ _ _ tailRun
  omega

theorem Progress.shrinks {reader : Reader α} (progress : Progress reader) : Shrinks reader :=
  fun bytes value rest run => Nat.le_of_lt (progress bytes value rest run)

theorem Shrinks.pure (value : α) : Shrinks (Pure.pure value : Reader α) := by
  intro bytes result rest run
  simp only [pure_apply, Option.some.injEq, Prod.mk.injEq] at run
  simp [run.2]

theorem Shrinks.bind {reader : Reader α} {next : α → Reader β} (head : Shrinks reader)
    (tail : ∀ value, Shrinks (next value)) : Shrinks (reader >>= next) := by
  intro bytes result rest run
  obtain ⟨value, middle, headRun, tailRun⟩ := bind_eq_some.mp run
  have first := head _ _ _ headRun
  have second := tail value _ _ _ tailRun
  omega

theorem Shrinks.readWhen {reader : Reader α} (shrinks : Shrinks reader) (present : Bool)
    (absent : α) :
    Shrinks (ByteReader.readWhen present reader absent) := by
  unfold ByteReader.readWhen
  split
  · exact shrinks
  · exact Shrinks.pure absent

theorem Shrinks.readCount {reader : Reader α} (shrinks : Shrinks reader) (count : Nat) :
    Shrinks (ByteReader.readCount reader count) := by
  induction count with
  | zero => exact Shrinks.pure []
  | succ count ih => exact shrinks.bind fun _ => ih.bind fun _ => Shrinks.pure _

theorem Shrinks.loopWithin {σ : Type} {turn : σ → Reader (Option σ)}
    (shrinks : ∀ state, Shrinks (turn state)) :
    ∀ fuel state, Shrinks (ByteReader.loopWithin turn fuel state) := by
  intro fuel
  induction fuel with
  | zero => exact fun _ _ _ _ success => (by cases success)
  | succ fuel ih =>
      intro state
      refine (shrinks state).bind ?_
      rintro (_ | next)
      · exact Shrinks.pure ()
      · exact ih next

theorem Shrinks.loop {σ : Type} {turn : σ → Reader (Option σ)}
    (shrinks : ∀ state, Shrinks (turn state)) (state : σ) :
    Shrinks (ByteReader.loop turn state) :=
  fun bytes => loopWithin shrinks (bytes.length + 1) state bytes

theorem readBytes_shrinks (count : Nat) : Shrinks (readBytes count) := by
  intro bytes value rest run
  simp only [readBytes] at run
  split at run
  · simp only [Option.some.injEq, Prod.mk.injEq] at run
    simp [← run.2]
  · simp at run

theorem skip_shrinks (count : Nat) : Shrinks (skip count) := by
  intro bytes value rest run
  cases run
  rw [List.length_drop]
  exact Nat.sub_le ..

end ByteReader
