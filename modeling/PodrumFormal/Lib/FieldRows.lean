import PodrumFormal.Lib.ByteWriter

/-!
# Rows of fields

A row is written field by field.  Where the fields in front tell which field
comes next, the bytes tell the fields, and where the row ends.
-/

set_option autoImplicit false

namespace FieldRows

open ByteReader ByteWriter

variable {α β : Type} (put : α → Option (List UInt8)) (seen : α → β)

/-- Whatever follows either row, equal bytes are of fields that look the same. -/
def Separates (first second : List α) : Prop :=
  ∀ ⦃block other rest others : List UInt8⦄, joined (first.map put) = some block →
    joined (second.map put) = some other → block ++ rest = other ++ others →
    first.map seen = second.map seen ∧ rest = others

namespace Separates

variable {put seen} {field field' : α} {first second more others : List α}

theorem nil : Separates put seen [] [] := by
  intro block other rest others written written' same
  cases written
  cases written'
  exact ⟨rfl, same⟩

/-- A reader that takes both fields. -/
theorem cons {reader : Reader β} (head : Encodes (put field) reader (seen field))
    (head' : Encodes (put field') reader (seen field'))
    (tail : seen field = seen field' → Separates put seen first second) :
    Separates put seen (field :: first) (field' :: second) := by
  intro block other rest others written written' same
  obtain ⟨start, later, present, writtenLater, rfl⟩ := joined_cons.mp written
  obtain ⟨start', later', present', writtenLater', rfl⟩ := joined_cons.mp written'
  rw [List.append_assoc, List.append_assoc] at same
  have read := head start present (later ++ rest)
  rw [same, head' start' present'] at read
  obtain ⟨equal, behind⟩ := Prod.mk.inj (Option.some.inj read)
  obtain ⟨fields, ends⟩ := tail equal.symm writtenLater writtenLater' behind.symm
  exact ⟨by rw [List.map_cons, List.map_cons, equal, fields], ends⟩

theorem append (head : Separates put seen first second)
    (tail : first.map seen = second.map seen → Separates put seen more others) :
    Separates put seen (first ++ more) (second ++ others) := by
  intro block other rest others' written written' same
  rw [List.map_append] at written written'
  obtain ⟨start, later, present, writtenLater, rfl⟩ := joined_append.mp written
  obtain ⟨start', later', present', writtenLater', rfl⟩ := joined_append.mp written'
  rw [List.append_assoc, List.append_assoc] at same
  obtain ⟨fields, behind⟩ := head present present' same
  obtain ⟨fieldsLater, ends⟩ := tail fields writtenLater writtenLater' behind
  exact ⟨by rw [List.map_append, List.map_append, fields, fieldsLater], ends⟩

/-- Rows of the same kinds. -/
theorem ofKinds {get : α → Reader β} {fits : α → Prop}
    (encodes : ∀ field, fits field → Encodes (put field) (get field) (seen field)) :
    ∀ {first second : List α}, first.map get = second.map get →
      (∀ field ∈ first, fits field) → (∀ field ∈ second, fits field) →
      Separates put seen first second := by
  intro first
  induction first with
  | nil =>
      intro second kinds _ _
      obtain rfl := List.map_eq_nil_iff.mp kinds.symm
      exact nil
  | cons field first ih =>
      intro second kinds holds holds'
      cases second with
      | nil => cases kinds
      | cons field' second =>
          obtain ⟨kind, others⟩ := List.cons.inj kinds
          obtain ⟨head, tail⟩ := List.forall_mem_cons.mp holds
          obtain ⟨head', tail'⟩ := List.forall_mem_cons.mp holds'
          have reads' := encodes field' head'
          rw [← kind] at reads'
          exact cons (encodes field head) reads' fun _ => ih others tail tail'

end Separates

end FieldRows
