import Mathlib.Algebra.Group.Nat.Defs
import Mathlib.Logic.Function.Iterate

/-!
# Downward loops over a byte

`for (uint8_t i = start; i >= 0; --i)` over an array.  The condition holds of
every byte, so only a turn that stops ends the loop: without one the index
wraps from 0 to 255.
-/

set_option autoImplicit false

namespace DownwardLoop

variable {α β σ : Type}

/-- A turn goes on with a state or stops with a result.  `none` is an access
outside the items, which at most 256 turns reach unless one stops. -/
def downward (items : List α) (turn : UInt8 → α → σ → Option (σ ⊕ β)) :
    Nat → UInt8 → σ → Option β
  | 0, _, _ => none
  | fuel + 1, i, state => do
    let item ← items[i.toNat]?
    match ← turn i item state with
    | .inl next => downward items turn fuel (i - 1) next
    | .inr result => some result

/-- The turn at the index goes on, whatever the state. -/
def Passes (items : List α) (turn : UInt8 → α → σ → Option (σ ⊕ β)) (next : σ → σ)
    (index : Nat) : Prop :=
  ∀ item, items[index]? = some item → ∀ state,
    turn (UInt8.ofNat index) item state = some (.inl (next state))

section

variable {items : List α} {turn : UInt8 → α → σ → Option (σ ⊕ β)} {next : σ → σ}

theorem ofNat_pred {index : Nat} (small : index + 1 < 256) :
    UInt8.ofNat (index + 1) - 1 = UInt8.ofNat index := by
  apply UInt8.toNat_inj.mp
  have above : (UInt8.ofNat (index + 1)).toNat = index + 1 := UInt8.toNat_ofNat_of_lt' small
  have below : (UInt8.ofNat index).toNat = index :=
    UInt8.toNat_ofNat_of_lt' (Nat.lt_of_succ_lt small)
  rw [UInt8.toNat_sub, above, below, UInt8.toNat_one]
  omega

theorem downward_passes {index : Nat} (small : index < 256)
    (passes : Passes items turn next index) (inside : index < items.length) (fuel : Nat)
    (state : σ) :
    downward items turn (fuel + 1) (UInt8.ofNat index) state =
      downward items turn fuel (UInt8.ofNat index - 1) (next state) := by
  have present := List.getElem?_eq_getElem inside
  have position : (UInt8.ofNat index).toNat = index := UInt8.toNat_ofNat_of_lt' small
  simp only [downward, position, present, Option.bind_eq_bind, Option.bind_some,
    passes _ present state]

theorem downward_outside {index : Nat} (small : index < 256) (outside : items.length ≤ index)
    (fuel : Nat) (state : σ) : downward items turn fuel (UInt8.ofNat index) state = none := by
  have position : (UInt8.ofNat index).toNat = index := UInt8.toNat_ofNat_of_lt' small
  cases fuel with
  | zero => rfl
  | succ fuel =>
    rw [downward, position, List.getElem?_eq_none outside]
    rfl

/-- Where no turn stops, the index wraps and leaves the items. -/
theorem downward_none (short : items.length ≤ 255) {start : Nat} :
    start < 256 → (∀ index ≤ start, Passes items turn next index) →
      ∀ (fuel : Nat) (state : σ), downward items turn fuel (UInt8.ofNat start) state = none := by
  induction start with
  | zero =>
    intro small passes fuel state
    cases fuel with
    | zero => rfl
    | succ fuel =>
      by_cases inside : 0 < items.length
      · rw [downward_passes small (passes 0 (Nat.le_refl 0)) inside]
        exact @downward_outside _ _ _ _ _ 255 (by decide) short fuel _
      · exact downward_outside small (Nat.le_of_not_lt inside) _ _
  | succ start ih =>
    intro small passes fuel state
    cases fuel with
    | zero => rfl
    | succ fuel =>
      by_cases inside : start + 1 < items.length
      · rw [downward_passes small (passes _ (Nat.le_refl _)) inside, ofNat_pred small]
        exact ih (Nat.lt_of_succ_lt small) (fun index below => passes index (by omega)) fuel _
      · exact downward_outside small (Nat.le_of_not_lt inside) _ _

/-- The loop gives what its greatest index that stops gives. -/
theorem downward_stops {start stop : Nat} {item : α} {result : β} (le : stop ≤ start) :
    start < 256 → start < items.length →
      (∀ index, stop < index → index ≤ start → Passes items turn next index) →
      items[stop]? = some item → ∀ {fuel : Nat} {state : σ}, start < fuel →
      turn (UInt8.ofNat stop) item (next^[start - stop] state) = some (.inr result) →
      downward items turn fuel (UInt8.ofNat start) state = some result := by
  induction le with
  | refl =>
    intro small _ _ present fuel state enough stopped
    obtain ⟨fuel, rfl⟩ := Nat.exists_eq_succ_of_ne_zero (Nat.ne_zero_of_lt enough)
    have position : (UInt8.ofNat stop).toNat = stop := UInt8.toNat_ofNat_of_lt' small
    rw [Nat.sub_self, Function.iterate_zero_apply] at stopped
    simp only [downward, position, present, Option.bind_eq_bind, Option.bind_some, stopped]
  | @step start above ih =>
    intro small inside passes present fuel state enough stopped
    obtain ⟨fuel, rfl⟩ := Nat.exists_eq_succ_of_ne_zero (Nat.ne_zero_of_lt enough)
    rw [downward_passes small (passes _ (Nat.lt_succ_of_le above) (Nat.le_refl _)) inside,
      ofNat_pred small]
    rw [Nat.succ_sub above, Function.iterate_succ_apply] at stopped
    exact ih (Nat.lt_of_succ_lt small) (Nat.lt_of_succ_lt inside)
      (fun index lower upper => passes index lower (Nat.le_succ_of_le upper)) present
      (Nat.lt_of_succ_lt_succ enough) stopped

end

end DownwardLoop
