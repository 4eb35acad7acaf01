import Mathlib.Data.Option.Basic
import PodrumFormal.Lib.ByteReader

/-!
# A buffer with an offset

Code that keeps its whole buffer and moves an offset through it follows a
reader of the bytes from the offset on: both end with the same value, or fail
together, and the bytes that the reader leaves are those from the new offset
on.  Where a reader is known to take a block, the offset is then known to move
by the block's length.
-/

set_option autoImplicit false

structure Cursor where
  buffer : List UInt8
  offset : Nat
  deriving DecidableEq, Repr

namespace Cursor

open ByteReader

/-- A computation that moves the offset; `none` is a look behind the buffer. -/
abbrev Scan (α : Type) := StateT Cursor Option α

variable {α β : Type}

/-- The byte at the offset. -/
def next : Scan UInt8 := fun cursor =>
  match cursor.buffer[cursor.offset]? with
  | some byte => some (byte, { cursor with offset := cursor.offset + 1 })
  | none => none

/-- Written at the end, wherever the offset is. -/
def push (byte : UInt8) (cursor : Cursor) : Cursor :=
  { cursor with buffer := cursor.buffer ++ [byte] }

/-- What a scan that started in `buffer` and a reader end with. -/
structure Ends (buffer : List UInt8) (scanned : α × Cursor) (read : α × List UInt8) : Prop where
  value : scanned.1 = read.1
  kept : scanned.2.buffer = buffer
  inside : scanned.2.offset ≤ buffer.length
  rest : read.2 = buffer.drop scanned.2.offset

def Follows (scan : Scan α) (reader : Reader α) : Prop :=
  ∀ buffer offset, offset ≤ buffer.length →
    Option.Rel (Ends buffer) (scan ⟨buffer, offset⟩) (reader (buffer.drop offset))

theorem bind_apply (scan : Scan α) (after : α → Scan β) (cursor : Cursor) :
    (scan >>= after) cursor = (scan cursor).bind fun result => after result.1 result.2 := rfl

/-! ## Rules -/

namespace Follows

theorem pure (value : α) : Follows (Pure.pure value) (Pure.pure value) :=
  fun _ _ inside => .some ⟨rfl, rfl, inside, rfl⟩

theorem next : Follows Cursor.next readByte := by
  intro buffer offset inside
  rw [Cursor.next]
  cases found : buffer[offset]? with
  | none =>
      have past : buffer.drop offset = [] :=
        List.drop_eq_nil_of_le (List.getElem?_eq_none_iff.mp found)
      rw [past]
      exact .none
  | some byte =>
      obtain ⟨below, same⟩ := List.getElem?_eq_some_iff.mp found
      rw [List.drop_eq_getElem_cons below, same]
      exact .some ⟨rfl, rfl, below, rfl⟩

theorem bind {scan : Scan α} {reader : Reader α} {after : α → Scan β} {later : α → Reader β}
    (first : Follows scan reader) (rest : ∀ value, Follows (after value) (later value)) :
    Follows (scan >>= after) (reader >>= later) := by
  intro buffer offset inside
  rw [Cursor.bind_apply, ByteReader.bind_apply]
  have ends := first buffer offset inside
  generalize scan ⟨buffer, offset⟩ = scanned at ends
  generalize reader (buffer.drop offset) = read at ends
  cases ends with
  | none => exact .none
  | some ends =>
      rename_i result taken
      obtain ⟨value, kept, offset⟩ := result
      obtain ⟨same, left⟩ := taken
      obtain ⟨rfl, rfl, below, rfl⟩ := ends
      exact rest value kept offset below

/-- Converting what is read. -/
theorem map {scan : Scan α} {reader : Reader α} (first : Follows scan reader)
    (convert : α → β) :
    Follows (scan >>= fun value => Pure.pure (convert value))
      (reader >>= fun value => Pure.pure (convert value)) :=
  first.bind fun value => pure (convert value)

/-- From the start of a block that the reader takes, the scan moves to its end. -/
theorem block {scan : Scan α} {reader : Reader α} {bytes : List UInt8} {value : α}
    (follows : Follows scan reader) (reads : Reads reader bytes value)
    (before after : List UInt8) :
    scan ⟨before ++ bytes ++ after, before.length⟩ =
      some (value, ⟨before ++ bytes ++ after, before.length + bytes.length⟩) := by
  have inside : before.length ≤ (before ++ bytes ++ after).length := by
    simp only [List.length_append]
    omega
  have ends := follows _ _ inside
  rw [List.append_assoc, List.drop_left, reads after, ← List.append_assoc] at ends
  generalize scan ⟨before ++ bytes ++ after, before.length⟩ = scanned at ends ⊢
  cases ends with
  | some ends =>
      rename_i result
      obtain ⟨found, kept, offset⟩ := result
      obtain ⟨same, buffer, below, rest⟩ := ends
      dsimp only at same buffer below rest
      have moved : offset = before.length + bytes.length := by
        have length := congrArg List.length rest
        simp only [List.length_drop, List.length_append] at length below
        omega
      rw [same, buffer, moved]

end Follows

end Cursor
