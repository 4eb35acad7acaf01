import Mathlib.Logic.Function.Basic

/-!
# Extents of sectors

A device of sectors whose first ones are reserved, and keys that own extents
of the others.  An allocation is sound if the extents are inside the device
and apart from each other, and a sector is free exactly when no key owns it.
Giving an extent back, taking one and growing the device keep it sound.
-/

set_option autoImplicit false

namespace Extents

structure Extent where
  start : Nat
  count : Nat
  deriving DecidableEq, Repr

def Extent.Covers (extent : Extent) (sector : Nat) : Prop :=
  extent.start ≤ sector ∧ sector < extent.start + extent.count

variable {Key : Type}

def Owned (layout : Key → Option Extent) (sector : Nat) : Prop :=
  ∃ key extent, layout key = some extent ∧ extent.Covers sector

structure Allocated (reserved size : Nat) (layout : Key → Option Extent)
    (free : Nat → Prop) : Prop where
  inside : ∀ key extent, layout key = some extent →
    reserved ≤ extent.start ∧ extent.start + extent.count ≤ size
  apart : ∀ first second left right sector, layout first = some left →
    layout second = some right → left.Covers sector → right.Covers sector → first = second
  free_iff : ∀ sector, sector < size → (free sector ↔ reserved ≤ sector ∧ ¬Owned layout sector)

namespace Allocated

variable {reserved size : Nat} {layout : Key → Option Extent} {free : Nat → Prop}

theorem congr (allocated : Allocated reserved size layout free) {other : Nat → Prop}
    (same : ∀ sector, sector < size → (other sector ↔ free sector)) :
    Allocated reserved size layout other where
  inside := allocated.inside
  apart := allocated.apart
  free_iff sector bound := (same sector bound).trans (allocated.free_iff sector bound)

/-- Two extents of different keys share no sector, so one ends before the
other starts. -/
theorem extents_apart (allocated : Allocated reserved size layout free) {first second : Key}
    {left right : Extent} (different : first ≠ second) (one : layout first = some left)
    (other : layout second = some right) (leftSome : 1 ≤ left.count)
    (rightSome : 1 ≤ right.count) :
    left.start + left.count ≤ right.start ∨ right.start + right.count ≤ left.start := by
  by_contra overlap
  apply different
  by_cases order : left.start ≤ right.start
  · exact allocated.apart first second left right right.start one other ⟨by omega, by omega⟩
      ⟨by omega, by omega⟩
  · exact allocated.apart first second left right left.start one other ⟨by omega, by omega⟩
      ⟨by omega, by omega⟩

theorem grow (allocated : Allocated reserved size layout free) {more : Nat}
    (enough : reserved ≤ size) (larger : size ≤ more) :
    Allocated reserved more layout fun sector => size ≤ sector ∨ free sector where
  inside key extent held := by
    obtain ⟨first, last⟩ := allocated.inside key extent held
    exact ⟨first, Nat.le_trans last larger⟩
  apart := allocated.apart
  free_iff sector bound := by
    by_cases old : sector < size
    · rw [← allocated.free_iff sector old]
      exact or_iff_right (Nat.not_le.mpr old)
    · refine iff_of_true (.inl (Nat.not_lt.mp old)) ⟨by omega, ?_⟩
      rintro ⟨key, extent, held, covers⟩
      have inside := (allocated.inside key extent held).2
      exact old (Nat.lt_of_lt_of_le covers.2 inside)

variable [DecidableEq Key]

theorem owned_update {key : Key} {extent : Option Extent} {sector : Nat} :
    Owned (Function.update layout key extent) sector ↔
      (∃ held, extent = some held ∧ held.Covers sector) ∨
        ∃ other held, other ≠ key ∧ layout other = some held ∧ held.Covers sector := by
  constructor
  · rintro ⟨other, held, holds, covers⟩
    by_cases same : other = key
    · subst same
      rw [Function.update_self] at holds
      exact .inl ⟨held, holds, covers⟩
    · rw [Function.update_of_ne same] at holds
      exact .inr ⟨other, held, same, holds, covers⟩
  · rintro (⟨held, rfl, covers⟩ | ⟨other, held, different, holds, covers⟩)
    · exact ⟨key, held, Function.update_self .., covers⟩
    · exact ⟨other, held, by rw [Function.update_of_ne different, holds], covers⟩

theorem release (allocated : Allocated reserved size layout free) (key : Key) :
    Allocated reserved size (Function.update layout key none) fun sector =>
      free sector ∨ ∃ extent, layout key = some extent ∧ extent.Covers sector where
  inside other extent held := by
    by_cases same : other = key
    · subst same
      rw [Function.update_self] at held
      cases held
    · rw [Function.update_of_ne same] at held
      exact allocated.inside other extent held
  apart first second left right sector one two onLeft onRight := by
    by_cases head : first = key
    · subst head
      rw [Function.update_self] at one
      cases one
    · by_cases tail : second = key
      · subst tail
        rw [Function.update_self] at two
        cases two
      · rw [Function.update_of_ne head] at one
        rw [Function.update_of_ne tail] at two
        exact allocated.apart first second left right sector one two onLeft onRight
  free_iff sector bound := by
    rw [allocated.free_iff sector bound, owned_update]
    constructor
    · rintro (⟨late, unowned⟩ | ⟨extent, held, covers⟩)
      · refine ⟨late, ?_⟩
        rintro (⟨_, impossible, _⟩ | ⟨other, extent, _, held, covers⟩)
        · cases impossible
        · exact unowned ⟨other, extent, held, covers⟩
      · refine ⟨Nat.le_trans (allocated.inside key extent held).1 covers.1, ?_⟩
        rintro (⟨_, impossible, _⟩ | ⟨other, taken, different, holds, also⟩)
        · cases impossible
        · exact different
            (allocated.apart other key taken extent sector holds held also covers)
    · rintro ⟨late, unowned⟩
      by_cases owned : Owned layout sector
      · obtain ⟨other, extent, held, covers⟩ := owned
        by_cases same : other = key
        · subst same
          exact .inr ⟨extent, held, covers⟩
        · exact absurd (.inr ⟨other, extent, same, held, covers⟩) unowned
      · exact .inl ⟨late, owned⟩

theorem claim (allocated : Allocated reserved size layout free) (key : Key) (extent : Extent)
    (vacant : layout key = none) (some : 1 ≤ extent.count)
    (inside : extent.start + extent.count ≤ size)
    (unused : ∀ sector, extent.Covers sector → free sector) :
    Allocated reserved size (Function.update layout key (Option.some extent)) fun sector =>
      free sector ∧ ¬extent.Covers sector := by
  have unowned : ∀ sector, extent.Covers sector → reserved ≤ sector ∧ ¬Owned layout sector :=
    fun sector covers => (allocated.free_iff sector (Nat.lt_of_lt_of_le covers.2 inside)).mp
      (unused sector covers)
  refine ⟨?_, ?_, ?_⟩
  · intro other held holds
    by_cases same : other = key
    · subst same
      rw [Function.update_self] at holds
      cases holds
      exact ⟨(unowned extent.start ⟨Nat.le_refl _, by omega⟩).1, inside⟩
    · rw [Function.update_of_ne same] at holds
      exact allocated.inside other held holds
  · intro first second left right sector one two onLeft onRight
    by_cases head : first = key
    · by_cases tail : second = key
      · rw [head, tail]
      · subst head
        rw [Function.update_self] at one
        rw [Function.update_of_ne tail] at two
        cases one
        exact absurd ⟨second, right, two, onRight⟩ (unowned sector onLeft).2
    · rw [Function.update_of_ne head] at one
      by_cases tail : second = key
      · subst tail
        rw [Function.update_self] at two
        cases two
        exact absurd ⟨first, left, one, onLeft⟩ (unowned sector onRight).2
      · rw [Function.update_of_ne tail] at two
        exact allocated.apart first second left right sector one two onLeft onRight
  · intro sector bound
    rw [allocated.free_iff sector bound, owned_update]
    constructor
    · rintro ⟨⟨late, free⟩, outside⟩
      refine ⟨late, ?_⟩
      rintro (⟨_, same, covers⟩ | ⟨other, held, _, holds, covers⟩)
      · exact outside (Option.some.inj same ▸ covers)
      · exact free ⟨other, held, holds, covers⟩
    · rintro ⟨late, unowned⟩
      refine ⟨⟨late, ?_⟩, fun covers => unowned (.inl ⟨extent, rfl, covers⟩)⟩
      rintro ⟨other, held, holds, covers⟩
      by_cases same : other = key
      · subst same
        rw [vacant] at holds
        cases holds
      · exact unowned (.inr ⟨other, held, same, holds, covers⟩)

end Allocated

end Extents
