import Mathlib.Data.List.Nodup

/-!
# Numbers inside runs of equal values

Each value with its place in the run of equal values it belongs to, counted
modulo a bound.  The pairs are distinct exactly where no value returns after
its run and no run is longer than the bound.
-/

set_option autoImplicit false

namespace RunNumbers

variable {α : Type}

/-- A run starts at 0 and counts modulo `modulus`. -/
structure Numbered (modulus : Nat) (entries : List (α × Nat)) : Prop where
  first : ∀ entry, entries[0]? = some entry → entry.2 = 0
  again : ∀ index entry next, entries[index]? = some entry → entries[index + 1]? = some next →
    next.1 = entry.1 → next.2 = (entry.2 + 1) % modulus
  changed : ∀ index entry next, entries[index]? = some entry → entries[index + 1]? = some next →
    next.1 ≠ entry.1 → next.2 = 0

/-- Equal values are less than `limit` apart, with no other value between them. -/
def ShortRuns (limit : Nat) (values : List α) : Prop :=
  ∀ first last value, first ≤ last → values[first]? = some value → values[last]? = some value →
    last - first < limit ∧
      ∀ between, first ≤ between → between ≤ last → values[between]? = some value

/-- The entries from `first` to `last` have the value. -/
def Constant (entries : List (α × Nat)) (first last : Nat) (value : α) : Prop :=
  ∀ between, first ≤ between → between ≤ last → ∃ number, entries[between]? = some (value, number)

namespace Numbered

variable {modulus : Nat} {entries : List (α × Nat)}

theorem take (numbered : Numbered modulus entries) (count : Nat) :
    Numbered modulus (entries.take count) := by
  have kept : ∀ {index : Nat} {entry : α × Nat},
      (entries.take count)[index]? = some entry → entries[index]? = some entry := by
    intro index entry present
    rw [List.getElem?_take] at present
    split at present
    · exact present
    · cases present
  exact
    { first := fun entry present => numbered.first entry (kept present)
      again := fun index entry next present follows =>
        numbered.again index entry next (kept present) (kept follows)
      changed := fun index entry next present follows =>
        numbered.changed index entry next (kept present) (kept follows) }

theorem number_lt (numbered : Numbered modulus entries) (positive : 0 < modulus) {index : Nat}
    {value : α} {number : Nat} (present : entries[index]? = some (value, number)) :
    number < modulus := by
  cases index with
  | zero =>
    have zero : number = 0 := numbered.first _ present
    rwa [zero]
  | succ index =>
    have inside : index < entries.length :=
      Nat.lt_of_succ_lt (List.getElem?_eq_some_iff.mp present).1
    have before := List.getElem?_eq_getElem inside
    by_cases same : value = entries[index].1
    · have next : number = _ := numbered.again index _ _ before present same
      rw [next]
      exact Nat.mod_lt _ positive
    · have next : number = 0 := numbered.changed index _ _ before present same
      rwa [next]

/-- The number counts on through a run. -/
theorem run (numbered : Numbered modulus entries) (positive : 0 < modulus) {first : Nat}
    {value : α} {number : Nat} (present : entries[first]? = some (value, number))
    (distance : Nat) (constant : Constant entries first (first + distance) value) :
    entries[first + distance]? = some (value, (number + distance) % modulus) := by
  induction distance with
  | zero => rwa [Nat.add_zero, Nat.add_zero, Nat.mod_eq_of_lt (numbered.number_lt positive present)]
  | succ distance ih =>
    have before := ih fun between lower upper => constant between lower (by omega)
    obtain ⟨next, follows⟩ := constant (first + (distance + 1)) (by omega) (Nat.le_refl _)
    have counted : next = _ := numbered.again _ _ _ before follows rfl
    rw [follows, counted, Nat.mod_add_mod, Nat.add_assoc]

/-- A run begins with number 0. -/
theorem start (numbered : Numbered modulus entries) {last : Nat} :
    ∀ {value : α} {number : Nat}, entries[last]? = some (value, number) →
      ∃ first ≤ last, entries[first]? = some (value, 0) ∧ Constant entries first last value := by
  induction last with
  | zero =>
    intro value number present
    have zero : number = 0 := numbered.first _ present
    subst zero
    refine ⟨0, Nat.le_refl 0, present, fun between lower upper => ?_⟩
    rw [Nat.le_zero.mp upper]
    exact ⟨0, present⟩
  | succ last ih =>
    intro value number present
    have inside : last < entries.length :=
      Nat.lt_of_succ_lt (List.getElem?_eq_some_iff.mp present).1
    have before := List.getElem?_eq_getElem inside
    by_cases same : value = entries[last].1
    · obtain ⟨first, below, begins, constant⟩ := @ih value entries[last].2 (by rw [before, same])
      refine ⟨first, Nat.le_succ_of_le below, begins, fun between lower upper => ?_⟩
      rcases Nat.le_succ_iff.mp upper with inner | rfl
      · exact constant between lower inner
      · exact ⟨number, present⟩
    · have zero : number = 0 := numbered.changed last _ _ before present same
      subst zero
      refine ⟨last + 1, Nat.le_refl _, present, fun between lower upper => ?_⟩
      rw [Nat.le_antisymm upper lower]
      exact ⟨0, present⟩

theorem getElem?_value {index : Nat} {value : α} :
    (entries.map Prod.fst)[index]? = some value ↔
      ∃ number, entries[index]? = some (value, number) := by
  rw [List.getElem?_map, Option.map_eq_some_iff]
  constructor
  · rintro ⟨⟨found, number⟩, present, rfl⟩
    exact ⟨number, present⟩
  · rintro ⟨number, present⟩
    exact ⟨_, present, rfl⟩

/-- Two runs of one value would both begin with number 0, and a long run comes
back to a number that it had. -/
theorem shortRuns_of_nodup (numbered : Numbered modulus entries) (positive : 0 < modulus)
    (distinct : entries.Nodup) : ShortRuns modulus (entries.map Prod.fst) := by
  intro first last value ordered left right
  obtain ⟨leftNumber, left⟩ := getElem?_value.mp left
  obtain ⟨rightNumber, right⟩ := getElem?_value.mp right
  obtain ⟨leftStart, leftLe, leftZero, -⟩ := numbered.start left
  obtain ⟨rightStart, rightLe, rightZero, constant⟩ := numbered.start right
  -- Both runs begin with number 0, so they are one run.
  have same : leftStart = rightStart :=
    (List.getElem?_inj (List.getElem?_eq_some_iff.mp leftZero).1 distinct).mp
      (leftZero.trans rightZero.symm)
  have between : ∀ index, first ≤ index → index ≤ last →
      (entries.map Prod.fst)[index]? = some value := fun index lower upper =>
    getElem?_value.mpr (constant index (by omega) upper)
  refine ⟨?_, between⟩
  by_contra long
  have wraps := numbered.run positive left modulus fun index lower upper =>
    constant index (by omega) (by omega)
  have kept := numbered.number_lt positive left
  rw [Nat.add_mod_right, Nat.mod_eq_of_lt kept] at wraps
  have equal : first = first + modulus :=
    (List.getElem?_inj (List.getElem?_eq_some_iff.mp left).1 distinct).mp
      (left.trans wraps.symm)
  omega

/-- In one short run the numbers go up by the distance. -/
theorem nodup_of_shortRuns (numbered : Numbered modulus entries) (positive : 0 < modulus)
    (short : ShortRuns modulus (entries.map Prod.fst)) : entries.Nodup := by
  rw [List.nodup_iff_getElem?_ne_getElem?]
  intro first last ordered inside equal
  obtain ⟨⟨value, number⟩, right⟩ : ∃ entry, entries[last]? = some entry :=
    ⟨_, List.getElem?_eq_getElem inside⟩
  have left := equal.trans right
  obtain ⟨near, constant⟩ := short first last value (Nat.le_of_lt ordered)
    (getElem?_value.mpr ⟨number, left⟩) (getElem?_value.mpr ⟨number, right⟩)
  obtain ⟨distance, rfl⟩ := Nat.exists_eq_add_of_lt ordered
  have counted := numbered.run positive left (distance + 1)
    fun index lower upper => getElem?_value.mp (constant index lower upper)
  have kept := numbered.number_lt positive left
  have same : number = (number + (distance + 1)) % modulus :=
    congrArg Prod.snd (Option.some.inj (right.symm.trans counted))
  rcases Nat.lt_or_ge (number + (distance + 1)) modulus with less | more
  · rw [Nat.mod_eq_of_lt less] at same
    omega
  · rw [Nat.mod_eq_sub_mod more, Nat.mod_eq_of_lt (by omega)] at same
    omega

theorem nodup_iff (numbered : Numbered modulus entries) (positive : 0 < modulus) :
    entries.Nodup ↔ ShortRuns modulus (entries.map Prod.fst) :=
  ⟨numbered.shortRuns_of_nodup positive, numbered.nodup_of_shortRuns positive⟩

end Numbered

end RunNumbers
