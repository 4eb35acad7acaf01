import Mathlib.Data.List.Basic

/-!
# Slices of an array

Reads and writes of consecutive cells.  A write changes the cells it covers
and no other; an access outside the array has no result.
-/

set_option autoImplicit false

namespace Slices

variable {α : Type}

def slice (cells : List α) (start count : Nat) : List α := (cells.drop start).take count

def splice (cells : List α) (start : Nat) (values : List α) : List α :=
  cells.take start ++ (values ++ cells.drop (start + values.length))

/-- A read of `count` cells; one of no cell reads nothing. -/
def readAt (cells : List α) (start : Int) (count : Nat) : Option (List α) :=
  if count = 0 ∨ (0 ≤ start ∧ start + count ≤ cells.length) then
    some (slice cells start.toNat count)
  else none

def writeAt (cells : List α) (start : Int) (values : List α) : Option (List α) :=
  if values = [] ∨ (0 ≤ start ∧ start + values.length ≤ cells.length) then
    some (splice cells start.toNat values)
  else none

section Cells

variable {cells values : List α} {start : Nat}

/-- The first cell of a suffix, and the suffix behind it. -/
theorem of_drop_eq_cons {value : α} (suffix : cells.drop start = value :: values) :
    cells[start]? = some value ∧ cells.drop (start + 1) = values := by
  constructor
  · rw [← List.head?_drop, suffix, List.head?_cons]
  · rw [← List.tail_drop, suffix, List.tail_cons]

theorem readAt_inside (start : Nat) {count : Nat} (inside : start + count ≤ cells.length) :
    readAt cells start count = some (slice cells start count) := by
  rw [readAt, if_pos (.inr ⟨Int.natCast_nonneg start, by omega⟩), Int.toNat_natCast]

theorem writeAt_inside (start : Nat) (inside : start + values.length ≤ cells.length) :
    writeAt cells start values = some (splice cells start values) := by
  rw [writeAt, if_pos (.inr ⟨Int.natCast_nonneg start, by omega⟩), Int.toNat_natCast]

theorem length_slice {count : Nat} (inside : start + count ≤ cells.length) :
    (slice cells start count).length = count := by
  rw [slice, List.length_take, List.length_drop]
  omega

theorem length_splice (inside : start + values.length ≤ cells.length) :
    (splice cells start values).length = cells.length := by
  simp only [splice, List.length_append, List.length_take, List.length_drop]
  omega

theorem getElem?_slice (cells : List α) (start count position : Nat) :
    (slice cells start count)[position]? =
      if position < count then cells[start + position]? else none := by
  rw [slice, List.getElem?_take]
  split
  · rw [List.getElem?_drop]
  · rfl

theorem getElem?_splice (inside : start + values.length ≤ cells.length) (position : Nat) :
    (splice cells start values)[position]? =
      if start ≤ position ∧ position < start + values.length then values[position - start]?
      else cells[position]? := by
  have before : (cells.take start).length = start := List.length_take_of_le (by omega)
  rw [splice, List.getElem?_append, before]
  by_cases early : position < start
  · rw [if_pos early, if_neg (by omega), List.getElem?_take, if_pos early]
  · rw [if_neg early, List.getElem?_append]
    by_cases covered : position - start < values.length
    · rw [if_pos covered, if_pos (by omega)]
    · rw [if_neg covered, if_neg (by omega), List.getElem?_drop]
      congr 1
      omega

/-- A cell outside the write keeps its value. -/
theorem getElem?_splice_of_outside (inside : start + values.length ≤ cells.length)
    {position : Nat} (outside : position < start ∨ start + values.length ≤ position) :
    (splice cells start values)[position]? = cells[position]? := by
  rw [getElem?_splice inside, if_neg (by omega)]

theorem slice_splice_self (inside : start + values.length ≤ cells.length) :
    slice (splice cells start values) start values.length = values := by
  apply List.ext_getElem?
  intro position
  rw [getElem?_slice]
  by_cases covered : position < values.length
  · rw [if_pos covered, getElem?_splice inside, if_pos (by omega), Nat.add_sub_cancel_left]
  · rw [if_neg covered, List.getElem?_eq_none (by omega)]

/-- A slice apart from the write is the slice before it. -/
theorem slice_splice_apart (inside : start + values.length ≤ cells.length) {other count : Nat}
    (apart : other + count ≤ start ∨ start + values.length ≤ other) :
    slice (splice cells start values) other count = slice cells other count := by
  apply List.ext_getElem?
  intro position
  rw [getElem?_slice, getElem?_slice]
  split
  · rw [getElem?_splice_of_outside inside (by omega)]
  · rfl

theorem slice_append {other count : Nat} (inside : other + count ≤ cells.length) (more : List α) :
    slice (cells ++ more) other count = slice cells other count := by
  apply List.ext_getElem?
  intro position
  rw [getElem?_slice, getElem?_slice]
  split
  · rw [List.getElem?_append_left (by omega)]
  · rfl

theorem slice_replicate {size count : Nat} (inside : start + count ≤ size) (value : α) :
    slice (List.replicate size value) start count = List.replicate count value := by
  rw [slice, List.drop_replicate, List.take_replicate]
  congr 1
  omega

/-- A slice of a slice. -/
theorem slice_slice {count first length : Nat} (inside : first + length ≤ count) :
    slice (slice cells start count) first length = slice cells (start + first) length := by
  apply List.ext_getElem?
  intro position
  rw [getElem?_slice, getElem?_slice, getElem?_slice]
  by_cases covered : position < length
  · rw [if_pos covered, if_pos covered, if_pos (by omega), Nat.add_assoc]
  · rw [if_neg covered, if_neg covered]

theorem mem_splice {value : α} (member : value ∈ splice cells start values) :
    value ∈ cells ∨ value ∈ values := by
  rcases List.mem_append.mp member with before | later
  · exact .inl (List.mem_of_mem_take before)
  · rcases List.mem_append.mp later with written | after
    · exact .inr written
    · exact .inl (List.mem_of_mem_drop after)

/-- Writes apart from each other in either order. -/
theorem splice_comm (inside : start + values.length ≤ cells.length) {other : Nat}
    {others : List α} (otherInside : other + others.length ≤ cells.length)
    (apart : other + others.length ≤ start ∨ start + values.length ≤ other) :
    splice (splice cells start values) other others =
      splice (splice cells other others) start values := by
  have first : other + others.length ≤ (splice cells start values).length := by
    rwa [length_splice inside]
  have second : start + values.length ≤ (splice cells other others).length := by
    rwa [length_splice otherInside]
  apply List.ext_getElem?
  intro position
  rw [getElem?_splice first, getElem?_splice second, getElem?_splice inside,
    getElem?_splice otherInside]
  split_ifs
  · omega
  · rfl
  · rfl
  · rfl

end Cells

end Slices
