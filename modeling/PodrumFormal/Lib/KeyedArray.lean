import Mathlib.Data.List.Basic
import Mathlib.Data.List.Nodup

/-!
# Arrays of entries with distinct keys

An array with its own size field.  `append` adds an entry whose key is not
there yet, `deduct` copies the other entries into an array one shorter, `pop`
also returns the entry it left out, and `replace` writes over an entry.  That
the size is the number of entries and that the keys are distinct is carried by
the structure.
-/

set_option autoImplicit false

structure KeyedArray {κ α : Type} (key : α → κ) where
  slots : List α
  size : Nat
  exact : size = slots.length
  distinct : (slots.map key).Nodup

namespace KeyedArray

variable {κ α : Type} [DecidableEq κ] {key : α → κ}

/-- The removed entry is one entry: the keys are distinct. -/
theorem length_filter_ne (items : List α) (target : κ) (distinct : (items.map key).Nodup)
    (present : ∃ item ∈ items, key item = target) :
    (items.filter fun item => key item ≠ target).length = items.length - 1 := by
  induction items with
  | nil => simp at present
  | cons head rest ih =>
      rw [List.map_cons, List.nodup_cons] at distinct
      obtain ⟨absent, tailDistinct⟩ := distinct
      by_cases found : key head = target
      · have untouched : (rest.filter fun item => key item ≠ target) = rest := by
          apply List.filter_eq_self.mpr
          intro item member
          apply decide_eq_true
          intro same
          exact absent (List.mem_map.mpr ⟨item, member, same.trans found.symm⟩)
        rw [List.filter_cons_of_neg (by simp [found]), untouched, List.length_cons,
          Nat.add_sub_cancel]
      · obtain ⟨item, member, same⟩ := present
        have later : item ∈ rest := by
          rcases List.mem_cons.mp member with rfl | later
          · exact absurd same found
          · exact later
        have positive := List.length_pos_of_mem later
        rw [List.filter_cons_of_pos (by simp [found]), List.length_cons,
          ih tailDistinct ⟨item, later, same⟩, List.length_cons]
        omega

def empty : KeyedArray key := ⟨[], 0, rfl, List.nodup_nil⟩

def isIn (target : κ) (array : KeyedArray key) : Bool :=
  array.slots.any fun item => key item = target

theorem isIn_iff (target : κ) (array : KeyedArray key) :
    array.isIn target = true ↔ ∃ item ∈ array.slots, key item = target := by
  simp [isIn]

theorem isIn_iff_mem (target : κ) (array : KeyedArray key) :
    array.isIn target = true ↔ target ∈ array.slots.map key := by
  rw [isIn_iff, List.mem_map]

def append (value : α) (array : KeyedArray key) : KeyedArray key :=
  if present : array.isIn (key value) then array
  else {
    slots := array.slots ++ [value]
    size := array.size + 1
    exact := by rw [array.exact, List.length_append, List.length_singleton]
    distinct := by
      rw [isIn_iff_mem] at present
      rw [List.map_append, List.map_singleton]
      exact array.distinct.append (List.nodup_singleton _) (by simpa using present) }

def deduct (target : κ) (array : KeyedArray key) : KeyedArray key :=
  if present : array.isIn target then {
    slots := array.slots.filter fun item => key item ≠ target
    size := array.size - 1
    exact := by
      rw [array.exact]
      exact (length_filter_ne _ _ array.distinct ((isIn_iff _ _).mp present)).symm
    distinct := array.distinct.sublist (List.filter_sublist.map key) }
  else array

def find (target : κ) (array : KeyedArray key) : Option α :=
  array.slots.find? fun item => key item = target

/-- The entry of that key, `none` for the source's sentinel. -/
def pop (target : κ) (array : KeyedArray key) : Option α × KeyedArray key :=
  (array.find target, array.deduct target)

/-- A store through a pointer to the entry of the value's key. -/
def replace (value : α) (array : KeyedArray key) : KeyedArray key where
  slots := array.slots.map fun item => if key item = key value then value else item
  size := array.size
  exact := by rw [array.exact, List.length_map]
  distinct := by
    have keys : (array.slots.map fun item => if key item = key value then value else item).map key
        = array.slots.map key := by
      rw [List.map_map]
      apply List.map_congr_left
      intro item _
      simp only [Function.comp_apply]
      split
      · rename_i same
        exact same.symm
      · rfl
    rw [keys]
    exact array.distinct

/-- `none` where two of the changed entries have the same key. -/
def mapSlots (change : α → α) (array : KeyedArray key) : Option (KeyedArray key) :=
  if distinct : ((array.slots.map change).map key).Nodup then
    some {
      slots := array.slots.map change
      size := array.size
      exact := by rw [array.exact, List.length_map]
      distinct }
  else none

/-! ## The entries after each operation -/

theorem append_slots_present {value : α} {array : KeyedArray key}
    (present : key value ∈ array.slots.map key) : (array.append value).slots = array.slots := by
  rw [← isIn_iff_mem] at present
  rw [append, dif_pos present]

theorem append_slots_absent {value : α} {array : KeyedArray key}
    (absent : key value ∉ array.slots.map key) :
    (array.append value).slots = array.slots ++ [value] := by
  rw [← isIn_iff_mem] at absent
  rw [append, dif_neg absent]

theorem mem_append {value item : α} {array : KeyedArray key}
    (member : item ∈ (array.append value).slots) : item ∈ array.slots ∨ item = value := by
  by_cases present : key value ∈ array.slots.map key
  · rw [append_slots_present present] at member
    exact Or.inl member
  · rw [append_slots_absent present, List.mem_append, List.mem_singleton] at member
    exact member

/-- Whether or not it was there before, the key is there afterwards. -/
theorem key_append (value : α) (array : KeyedArray key) :
    ∃ item ∈ (array.append value).slots, key item = key value := by
  by_cases present : key value ∈ array.slots.map key
  · rw [append_slots_present present]
    exact List.mem_map.mp present
  · rw [append_slots_absent present]
    exact ⟨value, by simp, rfl⟩

theorem deduct_slots (target : κ) (array : KeyedArray key) :
    (array.deduct target).slots = array.slots.filter fun item => key item ≠ target := by
  rw [deduct]
  split
  · rfl
  · rename_i absent
    rw [isIn_iff_mem] at absent
    refine (List.filter_eq_self.mpr fun item member => decide_eq_true ?_).symm
    intro same
    exact absent (List.mem_map.mpr ⟨item, member, same⟩)

theorem mem_deduct (item : α) (target : κ) (array : KeyedArray key) :
    item ∈ (array.deduct target).slots ↔ item ∈ array.slots ∧ key item ≠ target := by
  rw [deduct_slots, List.mem_filter, decide_eq_true_iff]

theorem foldl_deduct_slots (targets : List κ) (array : KeyedArray key) :
    (targets.foldl (fun rest target => rest.deduct target) array).slots =
      array.slots.filter fun item => key item ∉ targets := by
  induction targets generalizing array with
  | nil => simp
  | cons target rest ih =>
      rw [List.foldl_cons, ih, deduct_slots, List.filter_filter]
      apply List.filter_congr
      intro item _
      by_cases same : key item = target <;> simp [same]

theorem mapSlots_slots {change : α → α} {array next : KeyedArray key}
    (success : array.mapSlots change = some next) : next.slots = array.slots.map change := by
  unfold mapSlots at success
  split at success
  · obtain rfl := Option.some.inj success
    rfl
  · cases success

theorem mapSlots_isSome {change : α → α} {array : KeyedArray key} :
    (∃ next, array.mapSlots change = some next) ↔
      ((array.slots.map change).map key).Nodup := by
  unfold mapSlots
  split
  · rename_i distinct
    exact ⟨fun _ => distinct, fun _ => ⟨_, rfl⟩⟩
  · rename_i shared
    constructor
    · intro success
      obtain ⟨next, success⟩ := success
      cases success
    · intro distinct
      exact absurd distinct shared

theorem deduct_absent {target : κ} {array : KeyedArray key}
    (absent : target ∉ array.slots.map key) : array.deduct target = array := by
  rw [← isIn_iff_mem] at absent
  rw [deduct, dif_neg absent]

theorem find_some {target : κ} {array : KeyedArray key} {item : α}
    (found : array.find target = some item) : item ∈ array.slots ∧ key item = target :=
  ⟨List.mem_of_find?_eq_some found, by simpa using List.find?_some found⟩

theorem find_none {target : κ} {array : KeyedArray key} :
    array.find target = none ↔ target ∉ array.slots.map key := by
  rw [find, List.find?_eq_none, List.mem_map]
  simp

/-- The keys being distinct, a key finds the entry that has it. -/
theorem find_of_mem {array : KeyedArray key} {item : α} (member : item ∈ array.slots) :
    array.find (key item) = some item := by
  cases found : array.find (key item) with
  | none => exact absurd (List.mem_map_of_mem member) (find_none.mp found)
  | some other =>
      obtain ⟨otherMember, same⟩ := find_some found
      exact congrArg some (List.inj_on_of_nodup_map array.distinct otherMember member same)

theorem find_deduct (target sought : κ) (array : KeyedArray key) :
    (array.deduct target).find sought = if sought = target then none else array.find sought := by
  split
  · rename_i same
    rw [find_none, List.mem_map]
    rintro ⟨item, member, found⟩
    exact ((mem_deduct _ _ _).mp member).2 (found.trans same)
  · rename_i other
    cases found : array.find sought with
    | none =>
        rw [find_none] at found ⊢
        intro present
        obtain ⟨item, member, same⟩ := List.mem_map.mp present
        exact found (List.mem_map.mpr ⟨item, ((mem_deduct _ _ _).mp member).1, same⟩)
    | some item =>
        obtain ⟨member, same⟩ := find_some found
        have kept := (mem_deduct item target array).mpr
          ⟨member, fun removed => other (same.symm.trans removed)⟩
        rw [← same]
        exact find_of_mem kept

theorem find_append (value : α) (array : KeyedArray key) (target : κ) :
    (array.append value).find target =
      (array.find target).or (if key value = target then some value else none) := by
  by_cases present : key value ∈ array.slots.map key
  · rw [find, append_slots_present present]
    split
    · rename_i same
      subst same
      cases found : array.find (key value) with
      | none => exact absurd present (find_none.mp found)
      | some item => exact found
    · rw [Option.or_none, find]
  · rw [find, append_slots_absent present, List.find?_append, find]
    congr 1
    by_cases same : key value = target <;> simp [same]

theorem find_replace (value : α) (array : KeyedArray key) (target : κ) :
    (array.replace value).find target =
      if key value = target then (array.find target).map fun _ => value
      else array.find target := by
  simp only [find, replace]
  generalize array.slots = items
  induction items with
  | nil => simp
  | cons head rest ih =>
      rw [List.map_cons, List.find?_cons, List.find?_cons]
      by_cases replaced : key head = key value
      · by_cases same : key value = target
        · simp [replaced, same]
        · simpa [replaced, same] using ih
      · by_cases found : key head = target
        · have other : key value ≠ target := fun same => replaced (found.trans same.symm)
          simp [found, other, other.symm]
        · simpa [replaced, found] using ih

end KeyedArray
