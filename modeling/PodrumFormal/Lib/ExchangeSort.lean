import Mathlib.Data.List.Perm.Basic

/-!
# Exchange sort

For each position the array is scanned to its right, and every smaller element
is swapped in on sight.  On lists: `sink` carries the element at the position
through the rest, leaving the larger of the two behind at each comparison.
-/

set_option autoImplicit false

namespace ExchangeSort

variable {α : Type} [LT α] [DecidableLT α]

def sink (held : α) : List α → α × List α
  | [] => (held, [])
  | next :: rest =>
      if held > next then ((sink next rest).1, held :: (sink next rest).2)
      else ((sink held rest).1, next :: (sink held rest).2)

def sortFrom : Nat → List α → List α
  | 0, items => items
  | _ + 1, [] => []
  | positions + 1, head :: rest => (sink head rest).1 :: sortFrom positions (sink head rest).2

def exchangeSort (items : List α) : List α := sortFrom items.length items

theorem sink_perm (held : α) (items : List α) :
    ((sink held items).1 :: (sink held items).2).Perm (held :: items) := by
  induction items generalizing held with
  | nil => exact List.Perm.refl _
  | cons next rest ih =>
      simp only [sink]
      split
      · exact (List.Perm.swap ..).trans ((ih next).cons held)
      · exact (List.Perm.swap ..).trans (((ih held).cons next).trans (List.Perm.swap ..))

theorem sink_length (held : α) (items : List α) : (sink held items).2.length = items.length := by
  simpa using (sink_perm held items).length_eq

theorem sortFrom_perm (positions : Nat) (items : List α) :
    (sortFrom positions items).Perm items := by
  induction positions generalizing items with
  | zero => exact List.Perm.refl _
  | succ positions ih =>
      cases items with
      | nil => exact List.Perm.refl _
      | cons head rest => exact ((ih _).cons _).trans (sink_perm head rest)

theorem exchangeSort_perm (items : List α) : (exchangeSort items).Perm items :=
  sortFrom_perm _ items

section Ordered

variable [LE α] [Std.IsLinearOrder α] [Std.LawfulOrderLT α]

/-- What comes out at the end of the scan is least. -/
theorem sink_least (held : α) (items : List α) :
    (sink held items).1 ≤ held ∧ ∀ item ∈ (sink held items).2, (sink held items).1 ≤ item := by
  induction items generalizing held with
  | nil => exact ⟨Std.le_refl held, fun item member => absurd member List.not_mem_nil⟩
  | cons next rest ih =>
      simp only [sink]
      split
      · rename_i larger
        obtain ⟨below, least⟩ := ih next
        have smaller : (sink next rest).1 ≤ held := Std.le_trans below (Std.le_of_lt larger)
        exact ⟨smaller, List.forall_mem_cons.mpr ⟨smaller, least⟩⟩
      · rename_i notLarger
        obtain ⟨below, least⟩ := ih held
        exact ⟨below, List.forall_mem_cons.mpr ⟨Std.le_trans below (Std.not_lt.mp notLarger), least⟩⟩

theorem sortFrom_sorted (positions : Nat) (items : List α) (enough : items.length ≤ positions) :
    (sortFrom positions items).Pairwise (· ≤ ·) := by
  induction positions generalizing items with
  | zero =>
      have empty : items = [] := List.eq_nil_of_length_eq_zero (by omega)
      simp [empty, sortFrom]
  | succ positions ih =>
      cases items with
      | nil => exact List.Pairwise.nil
      | cons head rest =>
          have shorter : (sink head rest).2.length ≤ positions := by
            rw [sink_length]
            simpa using enough
          refine List.pairwise_cons.mpr ⟨?_, ih _ shorter⟩
          intro item member
          exact (sink_least head rest).2 item ((sortFrom_perm _ _).mem_iff.mp member)

theorem exchangeSort_sorted (items : List α) : (exchangeSort items).Pairwise (· ≤ ·) :=
  sortFrom_sorted _ items (Nat.le_refl _)

end Ordered

end ExchangeSort
