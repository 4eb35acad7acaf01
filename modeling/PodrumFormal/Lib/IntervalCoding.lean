import Mathlib.Data.List.Perm.Subperm
import Mathlib.Data.List.Nodup

/-!
# Interval coding of sorted numbers

`cover` scans a sorted list with one open interval: a number next to its end
extends it, a number further on closes it and opens another, a repeated number
changes nothing.  The intervals list exactly the distinct numbers, ascending.
-/

set_option autoImplicit false

namespace IntervalCoding

structure Interval where
  first : Nat
  last : Nat
  deriving DecidableEq, Repr

/-- `first .. last`, none when `last` is below `first`. -/
def Interval.numbers (interval : Interval) : List Nat :=
  List.range' interval.first (interval.last + 1 - interval.first)

@[simp] theorem Interval.mem_numbers (interval : Interval) (number : Nat) :
    number ∈ interval.numbers ↔ interval.first ≤ number ∧ number ≤ interval.last := by
  simp only [numbers, List.mem_range'_1]
  omega

def cover (first last : Nat) : List Nat → List Interval
  | [] => [⟨first, last⟩]
  | next :: rest =>
      if next = last + 1 then cover first next rest
      else if last + 1 < next then ⟨first, last⟩ :: cover next next rest
      else cover first last rest

def listed (intervals : List Interval) : List Nat := intervals.flatMap Interval.numbers

/-- The open interval is nonempty and the numbers still to come are sorted and
not below its end. -/
def Ahead (first last : Nat) (numbers : List Nat) : Prop :=
  first ≤ last ∧ (last :: numbers).Pairwise (· ≤ ·)

theorem Ahead.extend {first last next : Nat} {rest : List Nat}
    (ahead : Ahead first last (next :: rest)) : Ahead first next rest := by
  obtain ⟨nonempty, sorted⟩ := ahead
  have above := (List.pairwise_cons.mp sorted).1 next (List.mem_cons_self ..)
  exact ⟨Nat.le_trans nonempty above, (List.pairwise_cons.mp sorted).2⟩

theorem Ahead.open {first last next : Nat} {rest : List Nat}
    (ahead : Ahead first last (next :: rest)) : Ahead next next rest :=
  ⟨Nat.le_refl next, (List.pairwise_cons.mp ahead.2).2⟩

theorem Ahead.repeat {first last next : Nat} {rest : List Nat}
    (ahead : Ahead first last (next :: rest)) : Ahead first last rest := by
  obtain ⟨nonempty, sorted⟩ := ahead
  exact ⟨nonempty, sorted.sublist (List.Sublist.cons_cons last (List.sublist_cons_self next rest))⟩

theorem Ahead.le_next {first last next : Nat} {rest : List Nat}
    (ahead : Ahead first last (next :: rest)) : last ≤ next :=
  (List.pairwise_cons.mp ahead.2).1 next (List.mem_cons_self ..)

/-- Every interval of the cover is nonempty, within bounds of the input. -/
theorem cover_nonempty : ∀ (numbers : List Nat) (first last : Nat),
    Ahead first last numbers →
    ∀ interval ∈ cover first last numbers, interval.first ≤ interval.last := by
  intro numbers
  induction numbers with
  | nil =>
      intro first last ahead interval member
      obtain rfl := List.mem_singleton.mp member
      exact ahead.1
  | cons next rest ih =>
      intro first last ahead
      simp only [cover]
      split
      · exact ih first next ahead.extend
      · split
        · exact List.forall_mem_cons.mpr ⟨ahead.1, ih next next ahead.open⟩
        · exact ih first last ahead.repeat

theorem mem_listed_cover : ∀ (numbers : List Nat) (first last number : Nat),
    Ahead first last numbers →
    (number ∈ listed (cover first last numbers) ↔
      (first ≤ number ∧ number ≤ last) ∨ number ∈ numbers) := by
  intro numbers
  induction numbers with
  | nil => intro first last number _; simp [cover, listed]
  | cons next rest ih =>
      intro first last number ahead
      have above := ahead.le_next
      have nonempty := ahead.1
      simp only [cover]
      split
      · rename_i adjacent
        rw [ih first next number ahead.extend, List.mem_cons]
        constructor
        · intro either
          rcases either with ⟨low, high⟩ | later
          · by_cases fresh : number = next
            · exact Or.inr (Or.inl fresh)
            · exact Or.inl ⟨low, by omega⟩
          · exact Or.inr (Or.inr later)
        · intro either
          rcases either with ⟨low, high⟩ | rfl | later
          · exact Or.inl ⟨low, by omega⟩
          · exact Or.inl ⟨by omega, Nat.le_refl _⟩
          · exact Or.inr later
      · split
        · have tail := ih next next number ahead.open
          simp only [listed, List.flatMap_cons, List.mem_append, Interval.mem_numbers,
            List.mem_cons] at tail ⊢
          rw [tail]
          constructor
          · intro either
            rcases either with inside | ⟨low, high⟩ | later
            · exact Or.inl inside
            · exact Or.inr (Or.inl (by omega))
            · exact Or.inr (Or.inr later)
          · intro either
            rcases either with inside | rfl | later
            · exact Or.inl inside
            · exact Or.inr (Or.inl ⟨Nat.le_refl _, Nat.le_refl _⟩)
            · exact Or.inr (Or.inr later)
        · have same : next = last := by omega
          rw [ih first last number ahead.repeat, List.mem_cons, same]
          constructor
          · intro either
            rcases either with inside | later
            · exact Or.inl inside
            · exact Or.inr (Or.inr later)
          · intro either
            rcases either with inside | rfl | later
            · exact Or.inl inside
            · exact Or.inl ⟨nonempty, Nat.le_refl _⟩
            · exact Or.inr later

theorem listed_cover_increasing : ∀ (numbers : List Nat) (first last : Nat),
    Ahead first last numbers → (listed (cover first last numbers)).Pairwise (· < ·) := by
  intro numbers
  induction numbers with
  | nil =>
      intro first last _
      simpa [cover, listed, Interval.numbers] using List.pairwise_lt_range'
  | cons next rest ih =>
      intro first last ahead
      simp only [cover]
      split
      · exact ih first next ahead.extend
      · split
        · rename_i beyond
          have tail := ih next next ahead.open
          simp only [listed, List.flatMap_cons] at tail ⊢
          refine List.pairwise_append.mpr ⟨List.pairwise_lt_range', tail, ?_⟩
          intro low lowMember high highMember
          have below := (Interval.mem_numbers ⟨first, last⟩ low).mp lowMember
          have opened : (next ≤ high ∧ high ≤ next) ∨ high ∈ rest :=
            (mem_listed_cover rest next next high ahead.open).mp highMember
          have above : next ≤ high := by
            rcases opened with inside | later
            · exact inside.1
            · exact (List.pairwise_cons.mp ahead.open.2).1 high later
          dsimp only at below
          omega
        · exact ih first last ahead.repeat

/-- Nonempty intervals list at least one number each. -/
theorem length_le_listed (intervals : List Interval)
    (nonempty : ∀ interval ∈ intervals, interval.first ≤ interval.last) :
    intervals.length ≤ (listed intervals).length := by
  induction intervals with
  | nil => simp
  | cons interval rest ih =>
      have tail := ih fun other member => nonempty other (List.mem_cons_of_mem _ member)
      have head := nonempty interval (List.mem_cons_self ..)
      simp only [listed, List.flatMap_cons, List.length_append, List.length_cons,
        Interval.numbers, List.length_range'] at tail ⊢
      omega

/-! ## The cover of a whole sorted list -/

section Sorted

variable {first : Nat} {rest : List Nat}

theorem ahead_of_sorted (sorted : (first :: rest).Pairwise (· ≤ ·)) : Ahead first first rest :=
  ⟨Nat.le_refl first, sorted⟩

theorem mem_listed_sorted (sorted : (first :: rest).Pairwise (· ≤ ·)) (number : Nat) :
    number ∈ listed (cover first first rest) ↔ number ∈ first :: rest := by
  rw [mem_listed_cover rest first first number (ahead_of_sorted sorted), List.mem_cons]
  constructor
  · intro either
    rcases either with inside | later
    · exact Or.inl (by omega)
    · exact Or.inr later
  · intro either
    rcases either with rfl | later
    · exact Or.inl ⟨Nat.le_refl _, Nat.le_refl _⟩
    · exact Or.inr later

theorem listed_sorted_length_le (sorted : (first :: rest).Pairwise (· ≤ ·)) :
    (listed (cover first first rest)).length ≤ (first :: rest).length := by
  have distinct : (listed (cover first first rest)).Nodup :=
    (listed_cover_increasing rest first first (ahead_of_sorted sorted)).imp Nat.ne_of_lt
  have included : listed (cover first first rest) ⊆ first :: rest :=
    fun number member => (mem_listed_sorted sorted number).mp member
  exact (distinct.subperm included).length_le

end Sorted

end IntervalCoding
