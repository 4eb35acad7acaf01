import Mathlib.Data.Option.Basic
import PodrumFormal.Lib.KeyedArray

/-!
# Tables of cells

An array that is resized by one cell for every entry that comes or goes.  A
cell is `none` until it is written.  The loops read the cells one after the
other, and a read of an unwritten cell or a write outside the array has no
result.
-/

set_option autoImplicit false

structure CellTable (α : Type) where
  count : Nat
  cells : Vector (Option α) count

namespace CellTable

variable {α : Type}

def empty : CellTable α := ⟨0, #v[]⟩

def append (value : α) (table : CellTable α) : CellTable α :=
  ⟨table.count + 1, table.cells.push (some value)⟩

/-- The loop ends at the first entry that passes the test. -/
def search (test : α → Bool) : List (Option α) → Option (Option α)
  | [] => some none
  | none :: _ => none
  | some item :: rest => if test item then some (some item) else search test rest

def find (test : α → Bool) (table : CellTable α) : Option (Option α) :=
  search test table.cells.toList

def isIn (test : α → Bool) (table : CellTable α) : Option Bool :=
  (table.find test).map Option.isSome

/-- The entries that pass the test are written one behind the other. -/
def copy {size : Nat} (test : α → Bool) :
    List (Option α) → Vector (Option α) size → Nat → Option (Vector (Option α) size)
  | [], copied, _ => some copied
  | none :: _, _, _ => none
  | some item :: rest, copied, offset =>
      if test item then
        if inside : offset < size then
          copy test rest (copied.set offset (some item) inside) (offset + 1)
        else none
      else copy test rest copied offset

/-- The entries that fail the test go into a new array of one cell less. -/
def deduct (test : α → Bool) (table : CellTable α) : Option (CellTable α) :=
  (copy (fun item => ¬ test item) table.cells.toList
    (Vector.replicate (table.count - 1) none) 0).map fun cells => ⟨table.count - 1, cells⟩

/-! ## Tables that hold a list -/

/-- Every cell is written. -/
def Holds (items : List α) (table : CellTable α) : Prop := table.cells.toList = items.map some

theorem holds_empty : Holds ([] : List α) empty := rfl

section Operations

variable {items : List α} {table : CellTable α}

theorem Holds.count (holds : Holds items table) : table.count = items.length := by
  have length := congrArg List.length holds
  rwa [Vector.length_toList, List.length_map] at length

theorem Holds.inj {others : List α} (first : Holds items table) (second : Holds others table) :
    items = others :=
  List.map_injective_iff.mpr (Option.some_injective α) (first.symm.trans second)

theorem Holds.append (holds : Holds items table) (value : α) :
    Holds (items ++ [value]) (table.append value) := by
  rw [Holds, CellTable.append, Vector.toList_push, holds, List.map_append, List.map_singleton]

theorem search_written (test : α → Bool) (items : List α) :
    search test (items.map some) = some (items.find? test) := by
  induction items with
  | nil => rfl
  | cons item rest ih =>
      rw [List.map_cons, search, List.find?_cons, ih]
      cases test item <;> rfl

theorem Holds.find (holds : Holds items table) (test : α → Bool) :
    table.find test = some (items.find? test) := by
  rw [CellTable.find, holds, search_written]

theorem Holds.isIn (holds : Holds items table) (test : α → Bool) :
    table.isIn test = some (items.any test) := by
  rw [CellTable.isIn, holds.find, Option.map_some, List.isSome_find?]

/-! ## Copying -/

variable {size : Nat} {test : α → Bool} (kept : List α) (copied : Vector (Option α) size)

/-- Induction on the entries: those copied so far stand before the free cells. -/
theorem copy_fits {room : Nat}
    (filled : copied.toList = kept.map some ++ List.replicate room none)
    (fits : items.countP test ≤ room) :
    ∃ final, copy test (items.map some) copied kept.length = some final ∧
      final.toList = (kept ++ items.filter test).map some ++
        List.replicate (room - items.countP test) none := by
  induction items generalizing kept copied room with
  | nil => exact ⟨copied, rfl, by simpa using filled⟩
  | cons item rest ih =>
      rw [List.map_cons, copy]
      by_cases passes : test item = true
      · rw [List.countP_cons_of_pos passes] at fits ⊢
        obtain ⟨room, rfl⟩ : ∃ rest, room = rest + 1 := Nat.exists_eq_succ_of_ne_zero (by omega)
        have length := congrArg List.length filled
        rw [Vector.length_toList, List.length_append, List.length_map, List.length_replicate]
          at length
        have inside : kept.length < size := by omega
        have written : (copied.set kept.length (some item) inside).toList =
            (kept ++ [item]).map some ++ List.replicate room none := by
          rw [Vector.toList_set, filled, List.set_append_right _ _ (by simp), List.length_map,
            Nat.sub_self, List.replicate_succ, List.set_cons_zero]
          simp
        obtain ⟨final, success, left⟩ := ih (kept ++ [item]) _ written (by omega)
        rw [List.length_append, List.length_singleton] at success
        refine ⟨final, by rw [if_pos passes, dif_pos inside, success], ?_⟩
        rw [left, List.filter_cons_of_pos passes, List.append_assoc, Nat.add_sub_add_right]
        rfl
      · rw [List.countP_cons_of_neg passes] at fits ⊢
        rw [if_neg passes, List.filter_cons_of_neg passes]
        exact ih kept copied filled fits

theorem copy_overflows (filled : size - kept.length < items.countP test) :
    copy test (items.map some) copied kept.length = none := by
  induction items generalizing kept copied with
  | nil => exact absurd filled (Nat.not_lt_zero _)
  | cons item rest ih =>
      rw [List.map_cons, copy]
      by_cases passes : test item = true
      · rw [List.countP_cons_of_pos passes] at filled
        rw [if_pos passes]
        by_cases inside : kept.length < size
        · have next := ih (kept ++ [item]) (copied.set kept.length (some item) inside)
          rw [List.length_append, List.length_singleton] at next
          rw [dif_pos inside]
          exact next (by omega)
        · rw [dif_neg inside]
      · rw [List.countP_cons_of_neg passes] at filled
        rw [if_neg passes]
        exact ih kept copied filled

/-! ## Removing -/

theorem Holds.deduct_eq (holds : Holds items table) :
    table.deduct test = (copy (fun item => ¬ test item) (items.map some)
      (Vector.replicate (items.length - 1) none) 0).map fun cells => ⟨items.length - 1, cells⟩ := by
  obtain ⟨count, cells⟩ := table
  obtain rfl : count = items.length := holds.count
  rw [deduct, holds]

/-- Of entries that are there, one is removed as it should be, none leaves no
room for the others, and of more an unwritten cell remains. -/
theorem Holds.deduct_iff (holds : Holds items table) (nonempty : items ≠ []) :
    (∃ after, table.deduct test = some after ∧ Holds (items.filter fun item => ¬ test item) after) ↔
      items.countP test = 1 := by
  have total := List.length_eq_countP_add_countP test (l := items)
  have positive := List.length_pos_of_ne_nil nonempty
  rw [holds.deduct_eq]
  by_cases fits : items.countP (fun item => ¬ test item) ≤ items.length - 1
  · obtain ⟨final, success, left⟩ :=
      copy_fits [] (Vector.replicate (items.length - 1) none) rfl fits
    rw [List.nil_append] at left
    rw [List.length_nil] at success
    rw [success, Option.map_some]
    have length := congrArg List.length left
    rw [Vector.length_toList, List.length_append, List.length_map, List.length_replicate,
      ← List.countP_eq_length_filter] at length
    constructor
    · rintro ⟨after, same, written⟩
      cases same
      have counted := written.count
      rw [← List.countP_eq_length_filter] at counted
      have size : items.length - 1 = items.countP fun item => ¬ test item := counted
      omega
    · intro single
      have none' : items.length - 1 - items.countP (fun item => ¬ test item) = 0 := by omega
      rw [none', List.replicate_zero, List.append_nil] at left
      exact ⟨_, rfl, left⟩
  · have overflow : copy (fun item => ¬ test item) (items.map some)
        (Vector.replicate (items.length - 1) none) 0 = none :=
      copy_overflows [] _ (Nat.lt_of_not_le fits)
    rw [overflow]
    refine iff_of_false ?_ (by omega)
    rintro ⟨after, impossible, -⟩
    cases impossible

end Operations

/-! ## Entries with distinct keys -/

/-- An entry that is there already is left as it is. -/
def insert (test : α → Bool) (value : α) (table : CellTable α) : Option (CellTable α) := do
  if ← table.isIn test then some table else some (table.append value)

def remove (test : α → Bool) (table : CellTable α) : Option (CellTable α) := do
  if ← table.isIn test then table.deduct test else some table

section Keys

variable {κ : Type} [DecidableEq κ] {key : α → κ} {array : KeyedArray key} {table : CellTable α}

theorem Holds.find_key (holds : Holds array.slots table) (target : κ) :
    table.find (fun item => key item = target) = some (array.find target) :=
  holds.find _

theorem Holds.isIn_key (holds : Holds array.slots table) (target : κ) :
    table.isIn (fun item => key item = target) = some (array.isIn target) :=
  holds.isIn _

theorem Holds.insert_present (holds : Holds array.slots table) {value : α}
    (present : array.isIn (key value) = true) :
    table.insert (fun item => key item = key value) value = some table := by
  rw [insert, holds.isIn_key, present]
  rfl

theorem Holds.insert (holds : Holds array.slots table) (value : α) :
    ∃ after, table.insert (fun item => key item = key value) value = some after ∧
      Holds (array.append value).slots after := by
  cases present : array.isIn (key value) with
  | true =>
      refine ⟨table, holds.insert_present present, ?_⟩
      rwa [KeyedArray.append, dif_pos present]
  | false =>
      refine ⟨table.append value, ?_, ?_⟩
      · rw [CellTable.insert, holds.isIn_key, present]
        rfl
      · rw [KeyedArray.append, dif_neg (by rw [present]; exact Bool.false_ne_true)]
        exact holds.append value

/-- A key that is there is there once. -/
theorem countP_key {target : κ} (present : target ∈ array.slots.map key) :
    array.slots.countP (fun item => key item = target) = 1 := by
  have once := List.count_eq_one_of_mem array.distinct present
  rw [List.count_eq_countP, List.countP_map] at once
  rw [← once]
  exact List.countP_congr fun item _ => by simp

theorem Holds.remove (holds : Holds array.slots table) (target : κ) :
    ∃ after, table.remove (fun item => key item = target) = some after ∧
      Holds (array.deduct target).slots after := by
  rw [KeyedArray.deduct_slots]
  cases present : array.isIn target with
  | true =>
      have member := (KeyedArray.isIn_iff_mem _ _).mp present
      obtain ⟨after, success, left⟩ := (holds.deduct_iff (List.ne_nil_of_mem
        (List.mem_map.mp member).choose_spec.1)).mpr (countP_key member)
      refine ⟨after, ?_, ?_⟩
      · rw [CellTable.remove, holds.isIn_key, present]
        exact success
      · simpa only [decide_eq_true_eq] using left
  | false =>
      have absent : target ∉ array.slots.map key := by
        rw [← KeyedArray.isIn_iff_mem, present]
        exact Bool.false_ne_true
      refine ⟨table, ?_, ?_⟩
      · rw [CellTable.remove, holds.isIn_key, present]
        rfl
      · rw [← KeyedArray.deduct_slots, KeyedArray.deduct_absent absent]
        exact holds

end Keys

end CellTable
