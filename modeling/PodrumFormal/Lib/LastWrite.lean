import Mathlib.Logic.Function.Basic

/-!
# Maps under writes

A plain map and the writes to it, each of which replaces the value at its key:
what a store of any shape is compared with.
-/

set_option autoImplicit false

namespace LastWrite

variable {Key Value : Type} [DecidableEq Key]

def written (content : Key → Value) (writes : List (Key × Value)) : Key → Value :=
  writes.foldl (fun content write => Function.update content write.1 write.2) content

theorem written_cons (content : Key → Value) (write : Key × Value)
    (writes : List (Key × Value)) :
    written content (write :: writes) =
      written (Function.update content write.1 write.2) writes := rfl

/-- A key that no write has keeps its value. -/
theorem written_of_not_mem {writes : List (Key × Value)} {key : Key}
    (absent : key ∉ writes.map Prod.fst) (content : Key → Value) :
    written content writes key = content key := by
  induction writes generalizing content with
  | nil => rfl
  | cons write writes ih =>
      rw [List.map_cons, List.mem_cons, not_or] at absent
      rw [written_cons, ih absent.2, Function.update_of_ne absent.1]

/-- A key has the value of the last write to it. -/
theorem written_last {before after : List (Key × Value)} {key : Key} {value : Value}
    (last : key ∉ after.map Prod.fst) (content : Key → Value) :
    written content (before ++ (key, value) :: after) key = value := by
  rw [written, List.foldl_append, List.foldl_cons, ← written, written_of_not_mem last,
    Function.update_self]

/-- Writes that agree with a map, on a content that agrees with it elsewhere. -/
theorem written_of_agree {writes : List (Key × Value)} {values content : Key → Value}
    (agree : ∀ write ∈ writes, write.2 = values write.1) {key : Key}
    (elsewhere : key ∉ writes.map Prod.fst → content key = values key) :
    written content writes key = values key := by
  induction writes generalizing content with
  | nil => exact elsewhere List.not_mem_nil
  | cons write writes ih =>
      rw [written_cons]
      refine ih (fun other member => agree other (List.mem_cons_of_mem _ member)) fun absent => ?_
      by_cases same : key = write.1
      · rw [same, Function.update_self]
        exact agree write List.mem_cons_self
      · rw [Function.update_of_ne same]
        exact elsewhere fun member => (List.mem_cons.mp member).elim same absent

end LastWrite
