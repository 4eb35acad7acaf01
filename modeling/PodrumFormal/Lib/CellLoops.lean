import Mathlib.Data.List.Basic

/-!
# Loops over checked cells

Writes and releases that fail outside their array, a release also where the
cell was released before, and what loops come to whose turns all name the same
cell.
-/

set_option autoImplicit false

namespace CellLoops

variable {α τ : Type}

def put (index : Nat) (value : α) (cells : List α) : Option (List α) :=
  if index < cells.length then some (cells.set index value) else none

/-- Each cell says whether it is still held. -/
def release (index : Nat) (held : List Bool) : Option (List Bool) :=
  if held[index]? = some true then some (held.set index false) else none

theorem put_put {index : Nat} {value : α} {cells : List α} :
    (put index value cells).bind (put index value) = put index value cells := by
  unfold put
  by_cases inside : index < cells.length
  · rw [if_pos inside, Option.bind_some, List.length_set, if_pos inside, List.set_set]
  · rw [if_neg inside, Option.bind_none]

theorem release_release {index : Nat} {held : List Bool} :
    (release index held).bind (release index) = none := by
  unfold release
  by_cases present : held[index]? = some true
  · have inside : index < held.length := (List.getElem?_eq_some_iff.mp present).1
    have gone : (held.set index false)[index]? ≠ some true := by
      rw [List.getElem?_set_self inside]
      decide
    rw [if_pos present, Option.bind_some, if_neg gone]
  · rw [if_neg present, Option.bind_none]

/-- Only the first turn changes the array. -/
theorem foldlM_put {index : Nat} {value : α} (turns : List τ) :
    ∀ cells : List α, turns.foldlM (fun cells _ => put index value cells) cells =
      if turns = [] then some cells else put index value cells := by
  induction turns with
  | nil => exact fun cells => rfl
  | cons turn turns ih =>
      intro cells
      rw [List.foldlM_cons, if_neg (List.cons_ne_nil turn turns), Option.bind_eq_bind,
        funext ih]
      by_cases last : turns = []
      · simp only [if_pos last, Option.bind_fun_some]
      · simp only [if_neg last]
        exact put_put

/-- The second turn finds the cell released. -/
theorem foldlM_release {index : Nat} (turns : List τ) (held : List Bool) :
    turns.foldlM (fun held _ => release index held) held =
      match turns with
      | [] => some held
      | [_] => release index held
      | _ => none := by
  match turns with
  | [] => rfl
  | [_] =>
      rw [List.foldlM_cons, Option.bind_eq_bind]
      exact Option.bind_fun_some _
  | first :: second :: turns =>
      rw [List.foldlM_cons, Option.bind_eq_bind]
      cases released : release index held with
      | none => rfl
      | some left =>
          have again := @release_release index held
          rw [released, Option.bind_some] at again
          rw [Option.bind_some, List.foldlM_cons, again]
          rfl

end CellLoops
