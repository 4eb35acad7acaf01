import PodrumFormal.Lib.ByteReader

/-!
# Writers that may fail

The block a writer appends, `none` where it fails, and blocks one after the
other.  What a reader makes of a row of blocks is composed block by block.
-/

set_option autoImplicit false

namespace ByteWriter

open ByteReader

variable {α β : Type}

def joined : List (Option (List UInt8)) → Option (List UInt8)
  | [] => some []
  | part :: parts => do
      let first ← part
      let others ← joined parts
      some (first ++ others)

def putWhen (present : Bool) (part : Option (List UInt8)) : Option (List UInt8) :=
  if present then part else some []

def putCount (put : β → Option (List UInt8)) (values : List β) : Option (List UInt8) :=
  joined (values.map put)

theorem joined_cons {part : Option (List UInt8)} {parts : List (Option (List UInt8))}
    {bytes : List UInt8} : joined (part :: parts) = some bytes ↔
      ∃ first others, part = some first ∧ joined parts = some others ∧
        first ++ others = bytes := by
  simp only [joined, Option.bind_eq_bind, Option.bind_eq_some_iff, Option.some.injEq]
  constructor
  · rintro ⟨first, head, others, tail, same⟩
    exact ⟨first, others, head, tail, same⟩
  · rintro ⟨first, others, head, tail, same⟩
    exact ⟨first, head, others, tail, same⟩

theorem joined_append {front back : List (Option (List UInt8))} {bytes : List UInt8} :
    joined (front ++ back) = some bytes ↔
      ∃ first second, joined front = some first ∧ joined back = some second ∧
        first ++ second = bytes := by
  induction front generalizing bytes with
  | nil => simp [joined]
  | cons part front ih =>
      rw [List.cons_append, joined_cons]
      constructor
      · rintro ⟨head, others, present, tail, rfl⟩
        obtain ⟨first, second, before, after, rfl⟩ := ih.mp tail
        exact ⟨head ++ first, second, joined_cons.mpr ⟨head, first, present, before, rfl⟩, after,
          List.append_assoc ..⟩
      · rintro ⟨_, second, before, after, rfl⟩
        obtain ⟨head, first, present, others, rfl⟩ := joined_cons.mp before
        exact ⟨head, first ++ second, present, ih.mpr ⟨first, second, others, after, rfl⟩,
          (List.append_assoc ..).symm⟩

theorem joined_isSome {parts : List (Option (List UInt8))} :
    (∃ bytes, joined parts = some bytes) ↔ ∀ part ∈ parts, ∃ block, part = some block := by
  induction parts with
  | nil => simp [joined]
  | cons part parts ih =>
      rw [List.forall_mem_cons, ← ih]
      constructor
      · rintro ⟨_, success⟩
        obtain ⟨first, others, head, tail, -⟩ := joined_cons.mp success
        exact ⟨⟨first, head⟩, others, tail⟩
      · rintro ⟨⟨first, head⟩, others, tail⟩
        exact ⟨first ++ others, joined_cons.mpr ⟨first, others, head, tail, rfl⟩⟩

/-! ## What is read back -/

/-- Where something is written, the reader takes it for that value. -/
def Encodes (part : Option (List UInt8)) (reader : Reader α) (value : α) : Prop :=
  ∀ block, part = some block → Reads reader block value

/-- Behind the parts the first reader goes on as the second. -/
def Leads (parts : List (Option (List UInt8))) (reader next : Reader α) : Prop :=
  ∀ bytes rest, joined parts = some bytes → reader (bytes ++ rest) = next rest

theorem Leads.nil (reader : Reader α) : Leads [] reader reader := by
  rintro _ rest ⟨⟩
  rfl

theorem Leads.cons {part : Option (List UInt8)} {parts : List (Option (List UInt8))}
    {reader : Reader β} {value : β} {more : β → Reader α} {next : Reader α}
    (head : Encodes part reader value) (tail : Leads parts (more value) next) :
    Leads (part :: parts) (reader >>= more) next := by
  intro bytes rest success
  obtain ⟨first, others, present, later, rfl⟩ := joined_cons.mp success
  rw [List.append_assoc, (head first present).run_bind]
  exact tail others rest later

theorem Leads.last {part : Option (List UInt8)} {reader : Reader α} {value : α}
    (encodes : Encodes part reader value) : Leads [part] reader (pure value) := by
  intro bytes rest success
  obtain ⟨first, others, present, last, rfl⟩ := joined_cons.mp success
  cases last
  rw [List.append_nil]
  exact encodes first present rest

/-- Parts that one reader takes together. -/
theorem Leads.block {front parts : List (Option (List UInt8))} {reader : Reader β} {value : β}
    {more : β → Reader α} {next : Reader α} (head : Encodes (joined front) reader value)
    (tail : Leads parts (more value) next) : Leads (front ++ parts) (reader >>= more) next := by
  intro bytes rest success
  obtain ⟨first, others, before, later, rfl⟩ := joined_append.mp success
  rw [List.append_assoc, (head first before).run_bind]
  exact tail others rest later

namespace Encodes

variable {part : Option (List UInt8)} {reader : Reader α} {value : α}

theorem fixed {block : List UInt8} (reads : Reads reader block value) :
    Encodes (some block) reader value := by
  rintro _ ⟨⟩
  exact reads

theorem functor {γ : Type} (convert : α → γ) (encodes : Encodes part reader value) :
    Encodes part (convert <$> reader) (convert value) := fun block written =>
  (encodes block written).functor convert

theorem joined {parts : List (Option (List UInt8))} (leads : Leads parts reader (pure value)) :
    Encodes (joined parts) reader value := fun block success rest => leads block rest success

theorem present (present : Bool) {absent : α}
    (encodes : present = true → Encodes part reader value) :
    Encodes (putWhen present part) (readWhen present reader absent)
      (if present then value else absent) := by
  cases present with
  | true => exact encodes rfl
  | false => exact fixed (Reads.pure absent)

theorem count {put : β → Option (List UInt8)} {decoded : β → α} {values : List β}
    (each : ∀ value ∈ values, Encodes (put value) reader (decoded value)) :
    Encodes (putCount put values) (readCount reader values.length) (values.map decoded) := by
  induction values with
  | nil => exact fixed (Reads.pure [])
  | cons value values ih =>
      obtain ⟨first, others⟩ := List.forall_mem_cons.mp each
      exact joined (Leads.cons first fun bytes rest success =>
        ((ih others) bytes success).run_bind _ rest)

end Encodes

/-! ## What is certainly written -/

/-- Something is written, of at most so many bytes, and the reader takes it for
a value of that kind. -/
def Conveys (part : Option (List UInt8)) (reader : Reader α) (kind : α → Prop) (bound : Nat) :
    Prop :=
  ∃ block value, part = some block ∧ Reads reader block value ∧ kind value ∧ block.length ≤ bound

namespace Conveys

variable {part : Option (List UInt8)} {reader : Reader α} {kind : α → Prop} {bound : Nat}

theorem fixed {block : List UInt8} {value : α} (reads : Reads reader block value)
    (short : block.length ≤ bound) : Conveys (some block) reader (· = value) bound :=
  ⟨block, value, rfl, reads, rfl, short⟩

theorem nil {value : α} (held : kind value) : Conveys (joined []) (pure value) kind 0 :=
  ⟨[], value, rfl, Reads.pure value, held, Nat.le_refl _⟩

theorem cons {parts : List (Option (List UInt8))} {first : Reader β} {firstKind : β → Prop}
    {more : β → Reader α} {firstBound : Nat} (head : Conveys part first firstKind firstBound)
    (tail : ∀ value, firstKind value → Conveys (joined parts) (more value) kind bound) :
    Conveys (joined (part :: parts)) (first >>= more) kind (firstBound + bound) := by
  obtain ⟨block, value, present, reads, held, short⟩ := head
  obtain ⟨others, result, later, readsLater, keeps, shortLater⟩ := tail value held
  refine ⟨block ++ others, result, joined_cons.mpr ⟨block, others, present, later, rfl⟩,
    reads.bind readsLater, keeps, ?_⟩
  rw [List.length_append]
  exact Nat.add_le_add short shortLater

theorem last (conveys : Conveys part reader kind bound) :
    Conveys (joined [part]) reader kind bound := by
  obtain ⟨block, value, present, reads, held, short⟩ := conveys
  exact ⟨block, value, joined_cons.mpr ⟨block, [], present, rfl, List.append_nil _⟩, reads, held,
    short⟩

/-- A counted loop conveys its values one by one. -/
theorem count {put : β → Option (List UInt8)} {relates : β → α → Prop} {values : List β}
    (each : ∀ value ∈ values, Conveys (put value) reader (relates value) bound) :
    Conveys (putCount put values) (readCount reader values.length)
      (List.Forall₂ relates values) (values.length * bound) := by
  induction values with
  | nil => exact ⟨[], [], rfl, Reads.pure [], .nil, Nat.zero_le _⟩
  | cons value values ih =>
      obtain ⟨first, others⟩ := List.forall_mem_cons.mp each
      have total : (value :: values).length * bound = bound + values.length * bound := by
        rw [List.length_cons, Nat.succ_mul, Nat.add_comm]
      rw [total]
      refine cons first fun head related => ?_
      obtain ⟨block, tail, written, reads, rest, short⟩ := ih others
      exact ⟨block, head :: tail, written, reads.bind_pure (Reads.pure _), .cons related rest, short⟩

theorem mono (conveys : Conveys part reader kind bound) {wider : α → Prop} {more : Nat}
    (weaker : ∀ value, kind value → wider value) (larger : bound ≤ more) :
    Conveys part reader wider more := by
  obtain ⟨block, value, present, reads, held, short⟩ := conveys
  exact ⟨block, value, present, reads, weaker value held, Nat.le_trans short larger⟩

end Conveys

/-! ## What comes back -/

/-- Something is written, and the reader takes it for that value. -/
def Returns (part : Option (List UInt8)) (reader : Reader α) (value : α) : Prop :=
  ∃ block, part = some block ∧ Reads reader block value

namespace Returns

variable {part : Option (List UInt8)} {reader : Reader α} {value : α}

theorem encodes (returns : Returns part reader value) : Encodes part reader value := by
  obtain ⟨block, written, reads⟩ := returns
  intro other same
  rw [written] at same
  cases same
  exact reads

theorem fixed {block : List UInt8} (reads : Reads reader block value) :
    Returns (some block) reader value :=
  ⟨block, rfl, reads⟩

theorem nil (value : α) : Returns (joined []) (pure value) value := fixed (Reads.pure value)

theorem cons {parts : List (Option (List UInt8))} {first : Reader β} {head : β}
    {more : β → Reader α} (returns : Returns part first head)
    (others : Returns (joined parts) (more head) value) :
    Returns (joined (part :: parts)) (first >>= more) value := by
  obtain ⟨block, written, reads⟩ := returns
  obtain ⟨rest, writtenLater, readsLater⟩ := others
  exact ⟨block ++ rest, joined_cons.mpr ⟨block, rest, written, writtenLater, rfl⟩,
    reads.bind readsLater⟩

theorem functor {γ : Type} (convert : α → γ) (returns : Returns part reader value) :
    Returns part (convert <$> reader) (convert value) := by
  obtain ⟨block, written, reads⟩ := returns
  exact ⟨block, written, reads.functor convert⟩

theorem present (present : Bool) {absent : α}
    (returns : present = true → Returns part reader value) :
    Returns (putWhen present part) (readWhen present reader absent)
      (if present then value else absent) := by
  cases present with
  | true => exact returns rfl
  | false => exact fixed (Reads.pure absent)

theorem countMap {put : β → Option (List UInt8)} {decoded : β → α} {values : List β}
    (each : ∀ value ∈ values, Returns (put value) reader (decoded value)) :
    Returns (putCount put values) (readCount reader values.length) (values.map decoded) := by
  induction values with
  | nil => exact nil []
  | cons value values ih =>
      obtain ⟨first, others⟩ := List.forall_mem_cons.mp each
      obtain ⟨rest, written, reads⟩ := ih others
      exact cons first ⟨rest, written, reads.bind_pure (Reads.pure _)⟩

theorem count {put : α → Option (List UInt8)} {values : List α}
    (each : ∀ value ∈ values, Returns (put value) reader value) :
    Returns (putCount put values) (readCount reader values.length) values := by
  have loop := @countMap _ _ reader put id values each
  rwa [List.map_id] at loop

end Returns

end ByteWriter
