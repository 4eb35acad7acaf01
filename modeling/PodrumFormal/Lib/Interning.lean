import Mathlib.Data.List.Dedup
import Mathlib.Data.List.Perm.Subperm
import Mathlib.Logic.Function.Basic

/-!
# Interned values

A table that gives each value the position of its first appearance.  Cells
that hold positions instead of values are read through the table: a write
interns its value and leaves every other cell as it reads.
-/

set_option autoImplicit false

namespace Interning

variable {α ι : Type} [DecidableEq α]

/-- The table with `value` in it, at `values.idxOf value`. -/
def intern (values : List α) (value : α) : List α :=
  if values.idxOf value = values.length then values ++ [value] else values

theorem intern_of_mem {values : List α} {value : α} (member : value ∈ values) :
    intern values value = values := by
  rw [intern, if_neg]
  exact Nat.ne_of_lt (List.idxOf_lt_length_iff.mpr member)

theorem intern_of_not_mem {values : List α} {value : α} (absent : value ∉ values) :
    intern values value = values ++ [value] := by
  rw [intern, if_pos (List.idxOf_eq_length absent)]

theorem prefix_intern (values : List α) (value : α) : values <+: intern values value := by
  by_cases member : value ∈ values
  · exact ⟨[], by rw [intern_of_mem member, List.append_nil]⟩
  · rw [intern_of_not_mem member]
    exact List.prefix_append _ _

theorem mem_intern (values : List α) (value : α) : value ∈ intern values value := by
  by_cases member : value ∈ values
  · rwa [intern_of_mem member]
  · rw [intern_of_not_mem member]
    exact List.mem_append_right _ (List.mem_singleton.mpr rfl)

theorem nodup_intern {values : List α} (nodup : values.Nodup) (value : α) :
    (intern values value).Nodup := by
  by_cases member : value ∈ values
  · rwa [intern_of_mem member]
  · rw [intern_of_not_mem member]
    exact nodup.append (List.nodup_singleton value) (List.disjoint_singleton.mpr member)

theorem intern_subset {values allowed : List α} {value : α} (inside : values ⊆ allowed)
    (member : value ∈ allowed) : intern values value ⊆ allowed := by
  unfold intern
  split
  · exact List.append_subset.mpr ⟨inside, List.cons_subset.mpr ⟨member, List.nil_subset _⟩⟩
  · exact inside

theorem getElem?_intern (values : List α) (value : α) :
    (intern values value)[values.idxOf value]? = some value := by
  by_cases member : value ∈ values
  · rw [intern_of_mem member]
    exact List.getElem?_idxOf member
  · rw [intern_of_not_mem member, List.idxOf_eq_length member, List.getElem?_concat_length]

theorem getElem?_intern_of_some {values : List α} {value found : α} {position : Nat}
    (present : values[position]? = some found) : (intern values value)[position]? = some found := by
  obtain ⟨more, same⟩ := prefix_intern values value
  obtain ⟨inside, _⟩ := List.getElem?_eq_some_iff.mp present
  rw [← same, List.getElem?_append_left inside, present]

/-! ## Cells read through the table -/

/-- The cells read as `content`, through a table without repetition that
starts with `first` and has only `allowed` values. -/
structure Holds (first : α) (allowed table : List α) (cells : ι → Nat) (content : ι → α) :
    Prop where
  nodup : table.Nodup
  first : table.head? = some first
  inside : table ⊆ allowed
  stored : ∀ cell, table[cells cell]? = some (content cell)

namespace Holds

variable {first : α} {allowed table : List α} {cells : ι → Nat} {content : ι → α}

omit [DecidableEq α] in
theorem fresh (member : first ∈ allowed) :
    Holds first allowed [first] (fun _ : ι => 0) fun _ => first where
  nodup := List.nodup_singleton first
  first := rfl
  inside := List.cons_subset.mpr ⟨member, List.nil_subset _⟩
  stored _ := rfl

theorem write [DecidableEq ι] (holds : Holds first allowed table cells content) {value : α}
    (member : value ∈ allowed) (cell : ι) :
    Holds first allowed (intern table value)
      (Function.update cells cell (table.idxOf value)) (Function.update content cell value) where
  nodup := nodup_intern holds.nodup value
  first := by
    obtain ⟨more, same⟩ := prefix_intern table value
    rw [← same, List.head?_append, holds.first, Option.some_or]
  inside := intern_subset holds.inside member
  stored other := by
    by_cases same : other = cell
    · subst same
      rw [Function.update_self, Function.update_self]
      exact getElem?_intern table value
    · rw [Function.update_of_ne same, Function.update_of_ne same]
      exact getElem?_intern_of_some (holds.stored other)

omit [DecidableEq α] in
theorem cell_lt (holds : Holds first allowed table cells content) (cell : ι) :
    cells cell < table.length :=
  (List.getElem?_eq_some_iff.mp (holds.stored cell)).1

omit [DecidableEq α] in
/-- The first place is the first value's alone. -/
theorem cell_eq_zero_iff (holds : Holds first allowed table cells content) (cell : ι) :
    cells cell = 0 ↔ content cell = first := by
  have stored := holds.stored cell
  have start := holds.first
  rw [List.head?_eq_getElem?] at start
  constructor
  · intro zero
    rw [zero, start] at stored
    exact (Option.some.inj stored).symm
  · intro same
    rw [same, ← start] at stored
    exact (List.getElem?_inj (holds.cell_lt cell) holds.nodup).mp stored

/-- The table has at most as many entries as there are allowed values. -/
theorem length_le (holds : Holds first allowed table cells content) :
    table.length ≤ allowed.dedup.length := by
  have covered : table ⊆ allowed.dedup := fun value member =>
    List.mem_dedup.mpr (holds.inside member)
  exact (List.subperm_of_subset holds.nodup covered).length_le

end Holds

end Interning
