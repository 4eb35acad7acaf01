import Mathlib.Data.List.Basic

/-!
# Laws of a history

A law judges an entry by the entries before it.  A list keeps a law when each
of its entries does, seen from the history it was appended to.
-/

set_option autoImplicit false

namespace History

variable {α : Type}

def Along (law : List α → α → Prop) : List α → List α → Prop
  | _, [] => True
  | history, entry :: rest => law history entry ∧ Along law (history ++ [entry]) rest

instance decidableAlong (law : List α → α → Prop) [∀ history entry, Decidable (law history entry)] :
    ∀ history entries, Decidable (Along law history entries)
  | _, [] => isTrue trivial
  | history, entry :: rest =>
      have := decidableAlong law (history ++ [entry]) rest
      inferInstanceAs (Decidable (law history entry ∧ Along law (history ++ [entry]) rest))

variable {law : List α → α → Prop}

theorem along_append (history first second : List α) :
    Along law history (first ++ second) ↔
      Along law history first ∧ Along law (history ++ first) second := by
  induction first generalizing history with
  | nil => simp [Along]
  | cons entry first ih =>
      rw [List.cons_append, Along, Along, ih, and_assoc, List.append_assoc, List.singleton_append]

theorem along_singleton (history : List α) (entry : α) :
    Along law history [entry] ↔ law history entry := by simp [Along]

/-- The law at one place of a list that keeps it. -/
theorem Along.at {history before after : List α} {entry : α}
    (holds : Along law history (before ++ entry :: after)) : law (history ++ before) entry :=
  ((along_append history before (entry :: after)).mp holds).2.1

/-- A list keeps a law when each entry does at its own place. -/
theorem along_iff {history entries : List α} :
    Along law history entries ↔
      ∀ before entry after, entries = before ++ entry :: after → law (history ++ before) entry := by
  constructor
  · rintro holds before entry after rfl
    exact holds.at
  · induction entries generalizing history with
    | nil => exact fun _ => trivial
    | cons entry rest ih =>
        intro each
        refine ⟨by simpa using each [] entry rest rfl, ih ?_⟩
        rintro before other after rfl
        simpa using each (entry :: before) other after rfl

/-- Entries that satisfy a law whatever came before keep it. -/
theorem along_of_forall {history entries : List α}
    (each : ∀ entry ∈ entries, ∀ before, law before entry) : Along law history entries := by
  rw [along_iff]
  rintro before entry after rfl
  exact each entry (by simp) _

end History
