import Mathlib.Data.List.Basic

/-!
# Computations with a log

A computation that may end with a fault, and what it logs up to its end.  The
rules say when a law holds of every entry, part by part, and that the log does
not change the outcome.
-/

set_option autoImplicit false

structure Traced (τ ε α : Type) where
  log : List τ
  outcome : Except ε α

namespace Traced

variable {τ ε α β : Type}

/-- Behind a fault nothing is logged. -/
instance : Monad (Traced τ ε) where
  pure value := ⟨[], .ok value⟩
  bind first next := match first.outcome with
    | .ok value => ⟨first.log ++ (next value).log, (next value).outcome⟩
    | .error fault => ⟨first.log, .error fault⟩

def note (entry : τ) : Traced τ ε Unit := ⟨[entry], .ok ()⟩

/-- A part that logs nothing. -/
def silent (outcome : Except ε α) : Traced τ ε α := ⟨[], outcome⟩

def All (law : τ → Prop) (traced : Traced τ ε α) : Prop := ∀ entry ∈ traced.log, law entry

/-! ## Outcomes -/

section Outcome

variable {first : Traced τ ε α} {next : α → Traced τ ε β}

theorem bind_of_ok {value : α} (done : first.outcome = .ok value) :
    first >>= next = ⟨first.log ++ (next value).log, (next value).outcome⟩ := by
  obtain ⟨log, outcome⟩ := first
  cases done
  rfl

theorem bind_of_error {fault : ε} (failed : first.outcome = .error fault) :
    first >>= next = ⟨first.log, .error fault⟩ := by
  obtain ⟨log, outcome⟩ := first
  cases failed
  rfl

@[simp] theorem outcome_bind :
    (first >>= next).outcome = first.outcome >>= fun value => (next value).outcome := by
  cases done : first.outcome with
  | ok value => rw [bind_of_ok done]; rfl
  | error fault => rw [bind_of_error done]; rfl

@[simp] theorem outcome_pure (value : α) :
    (pure value : Traced τ ε α).outcome = .ok value := rfl

@[simp] theorem outcome_note (entry : τ) : (note entry : Traced τ ε Unit).outcome = .ok () := rfl

@[simp] theorem outcome_silent (outcome : Except ε α) :
    (silent outcome : Traced τ ε α).outcome = outcome := rfl

end Outcome

/-! ## Laws of the log -/

section Law

variable {law : τ → Prop} {first : Traced τ ε α} {next : α → Traced τ ε β}

theorem all_bind : All law (first >>= next) ↔
    All law first ∧ ∀ value, first.outcome = .ok value → All law (next value) := by
  cases done : first.outcome with
  | ok value =>
      rw [bind_of_ok done]
      constructor
      · intro holds
        obtain ⟨before, after⟩ := List.forall_mem_append.mp holds
        refine ⟨before, fun other same => ?_⟩
        cases same
        exact after
      · rintro ⟨before, after⟩
        exact List.forall_mem_append.mpr ⟨before, after value rfl⟩
  | error fault =>
      rw [bind_of_error done]
      exact ⟨fun holds => ⟨holds, fun value same => by cases same⟩, fun holds => holds.1⟩

theorem all_note_bind {entry : τ} {next : Unit → Traced τ ε β} :
    All law (note entry >>= next) ↔ law entry ∧ All law (next ()) := by
  rw [all_bind]
  refine and_congr List.forall_mem_singleton ?_
  exact ⟨fun holds => holds () rfl, fun holds _ _ => holds⟩

theorem all_silent_bind {outcome : Except ε α} :
    All law (silent outcome >>= next) ↔ ∀ value, outcome = .ok value → All law (next value) := by
  rw [all_bind]
  exact and_iff_right (List.forall_mem_nil law)

theorem all_pure (value : α) : All law (pure value : Traced τ ε α) := List.forall_mem_nil law

theorem all_silent (outcome : Except ε α) : All law (silent outcome : Traced τ ε α) :=
  List.forall_mem_nil law

end Law

end Traced
