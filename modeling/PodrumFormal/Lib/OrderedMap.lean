import Mathlib.Data.List.Nodup
import PodrumFormal.Lib.KeyedArray

/-!
# Finite maps in insertion order

What an array of entries with distinct keys is for: the keys in the order they
came, and the entry of each.
-/

set_option autoImplicit false

@[ext] structure OrderedMap (κ α : Type) where
  keys : List κ
  distinct : keys.Nodup
  value : κ → Option α
  domain : ∀ key, (value key).isSome ↔ key ∈ keys

namespace OrderedMap

variable {κ α : Type}

def empty : OrderedMap κ α := ⟨[], List.nodup_nil, fun _ => none, by simp⟩

variable [DecidableEq κ]

/-- A key that is there keeps its entry and its place. -/
def insert (key : κ) (value : α) (map : OrderedMap κ α) : OrderedMap κ α :=
  if present : key ∈ map.keys then map
  else {
    keys := map.keys ++ [key]
    distinct := map.distinct.append (List.nodup_singleton key) (by simpa using present)
    value := fun other => if other = key then some value else map.value other
    domain := fun other => by
      by_cases same : other = key
      · simp [same]
      · simp [same, map.domain] }

def erase (key : κ) (map : OrderedMap κ α) : OrderedMap κ α where
  keys := map.keys.filter fun other => other ≠ key
  distinct := map.distinct.filter _
  value := fun other => if other = key then none else map.value other
  domain := fun other => by
    by_cases same : other = key
    · simp [same]
    · simp [same, map.domain]

/-! ## The map of an array -/

variable {key : α → κ}

def ofArray (array : KeyedArray key) : OrderedMap κ α where
  keys := array.slots.map key
  distinct := array.distinct
  value := fun target => array.find target
  domain := fun target => by
    rw [← not_iff_not, Option.not_isSome_iff_eq_none, KeyedArray.find_none]

theorem ofArray_append (value : α) (array : KeyedArray key) :
    ofArray (array.append value) = insert (key value) value (ofArray array) := by
  by_cases present : key value ∈ array.slots.map key
  · have same : array.append value = array := by
      rw [KeyedArray.append, dif_pos ((KeyedArray.isIn_iff_mem _ _).mpr present)]
    rw [insert, dif_pos (show key value ∈ (ofArray array).keys from present), same]
  · rw [insert, dif_neg (show key value ∉ (ofArray array).keys from present)]
    apply OrderedMap.ext
    · simp only [ofArray]
      rw [KeyedArray.append_slots_absent present, List.map_append, List.map_singleton]
    · funext target
      simp only [ofArray]
      rw [KeyedArray.find_append]
      by_cases same : target = key value
      · rw [same, KeyedArray.find_none.mpr present, Option.none_or, if_pos rfl]
      · rw [if_neg same, if_neg (Ne.symm same), Option.or_none]

theorem ofArray_deduct (target : κ) (array : KeyedArray key) :
    ofArray (array.deduct target) = erase target (ofArray array) := by
  apply OrderedMap.ext
  · simp only [ofArray, erase]
    rw [KeyedArray.deduct_slots, List.filter_map]
    rfl
  · funext other
    simp only [ofArray, erase]
    rw [KeyedArray.find_deduct]

end OrderedMap
