import Mathlib.Algebra.Group.Nat.Defs
import PodrumFormal.Lib.RunNumbers
import PodrumFormal.Nbt.Tag

/-!
# Block states

The table that `get_resources` builds from the names of the block states: a
runtime id is a position in it, and the metadata of a state counts the entries
of its name before it, on a byte.
-/

set_option autoImplicit false

namespace PodrumMinecraft.BlockStates

open PodrumMisc.CString PodrumNbt.Tag RunNumbers

/-- The name is without its terminator. -/
structure MappingBlockState where
  name : List UInt8
  metadata : UInt8
  deriving DecidableEq

/-- The loop over the names of a compound, which stops at the first `name`.
Without one the program exits. -/
def compoundName : NbtMulti → Except Fault (List UInt8)
  | .compound entries =>
    match entries.find? fun entry => cString entry.1 = bytes "name" with
    | some (_, .string text) => .ok (cString text)
    | some _ => .error .wrongMember
    | none => .error .exit
  | _ => .error .wrongMember

/-- The loop over the block states, with `old_name` and `metadata_counter`. -/
def blockStatesFrom : List NbtMulti → List UInt8 → UInt8 → Except Fault (List MappingBlockState)
  | [], _, _ => .ok []
  | data :: rest, oldName, metadataCounter => do
    let name ← compoundName data
    let metadata := if oldName ≠ name then 0 else metadataCounter
    let states ← blockStatesFrom rest name (metadata + 1)
    .ok ({ name, metadata } :: states)

/-- The part of `get_resources` behind the block states' compound. -/
def getBlockStates (blockStatesCompound : List (List UInt8 × NbtMulti)) :
    Except Fault (List MappingBlockState) :=
  blockStatesFrom (blockStatesCompound.map Prod.snd) (bytes "") 0

def runtimeIdToBlockState (runtimeId : Int32) (states : List MappingBlockState) :
    Except Fault MappingBlockState :=
  if 0 ≤ runtimeId.toInt then orFault .outOfBounds states[runtimeId.toInt.toNat]?
  else .error .outOfBounds

/-- The position is cut to 32 bits. -/
def blockStateToRuntimeId (name : List UInt8) (metadata : UInt8)
    (states : List MappingBlockState) : Int32 :=
  match states.findIdx? fun state => state.name = name ∧ state.metadata = metadata with
  | some runtimeId => Int32.ofNat runtimeId
  | none => -1

/-- Every runtime id below the size is what its own state is looked up as. -/
def Invertible (states : List MappingBlockState) : Prop :=
  ∀ runtimeId : Int32, 0 ≤ runtimeId.toInt → runtimeId.toInt < states.length →
    ∃ state, runtimeIdToBlockState runtimeId states = .ok state ∧
      blockStateToRuntimeId state.name state.metadata states = runtimeId

/-! ## The table -/

def entryOf (state : MappingBlockState) : List UInt8 × Nat := (state.name, state.metadata.toNat)

theorem entryOf_injective : Function.Injective entryOf := by
  rintro ⟨name, metadata⟩ ⟨otherName, otherMetadata⟩ same
  simp only [entryOf, Prod.mk.injEq, UInt8.toNat_inj] at same
  obtain ⟨rfl, rfl⟩ := same
  rfl

/-- The names of the table are those of the compound, in order. -/
theorem blockStatesFrom_names {data : List NbtMulti} :
    ∀ {names : List (List UInt8)} (oldName : List UInt8) (metadataCounter : UInt8),
      data.mapM compoundName = .ok names →
      ∃ states, blockStatesFrom data oldName metadataCounter = .ok states ∧
        states.map MappingBlockState.name = names := by
  induction data with
  | nil =>
    intro names oldName metadataCounter named
    cases named
    exact ⟨[], rfl, rfl⟩
  | cons value rest ih =>
    intro names oldName metadataCounter named
    rw [List.mapM_cons] at named
    obtain ⟨name, head, named⟩ := bind_eq_ok.mp named
    obtain ⟨others, tail, named⟩ := bind_eq_ok.mp named
    cases named
    obtain ⟨states, built, same⟩ :=
      ih name ((if oldName ≠ name then 0 else metadataCounter) + 1) tail
    refine ⟨⟨name, if oldName ≠ name then 0 else metadataCounter⟩ :: states, ?_, ?_⟩
    · rw [blockStatesFrom, head, ok_bind]
      dsimp only
      rw [built]
      rfl
    · rw [List.map_cons, same]

theorem next_metadata (metadata : UInt8) :
    (metadata + 1).toNat = (metadata.toNat + 1) % 256 := by
  rw [UInt8.toNat_add, UInt8.toNat_one]

theorem blockStatesFrom_head {data : List NbtMulti} {oldName : List UInt8}
    {metadataCounter : UInt8} {states : List MappingBlockState}
    (built : blockStatesFrom data oldName metadataCounter = .ok states)
    {state : MappingBlockState} (head : states[0]? = some state) :
    state.metadata = if oldName ≠ state.name then 0 else metadataCounter := by
  cases data with
  | nil => cases built; cases head
  | cons value rest =>
    obtain ⟨name, -, built⟩ := bind_eq_ok.mp built
    obtain ⟨others, -, built⟩ := bind_eq_ok.mp built
    cases built
    cases head
    rfl

/-- Each entry counts on from the one before it. -/
theorem blockStatesFrom_next {data : List NbtMulti} :
    ∀ {oldName : List UInt8} {metadataCounter : UInt8} {states : List MappingBlockState},
      blockStatesFrom data oldName metadataCounter = .ok states →
      ∀ {index : Nat} {state next : MappingBlockState}, states[index]? = some state →
        states[index + 1]? = some next →
        next.metadata = if state.name ≠ next.name then 0 else state.metadata + 1 := by
  induction data with
  | nil =>
    intro oldName metadataCounter states built
    cases built
    intro _ _ _ present
    cases present
  | cons value rest ih =>
    intro oldName metadataCounter states built index state next present follows
    obtain ⟨name, -, built⟩ := bind_eq_ok.mp built
    obtain ⟨others, tail, built⟩ := bind_eq_ok.mp built
    cases built
    rw [List.getElem?_cons_succ] at follows
    cases index with
    | zero =>
      cases present
      exact blockStatesFrom_head tail follows
    | succ index =>
      rw [List.getElem?_cons_succ] at present
      exact ih tail present follows

theorem entryOf_present {states : List MappingBlockState} {index : Nat}
    {entry : List UInt8 × Nat} (present : (states.map entryOf)[index]? = some entry) :
    ∃ state, states[index]? = some state ∧ entryOf state = entry := by
  rwa [List.getElem?_map, Option.map_eq_some_iff] at present

theorem getBlockStates_numbered {compound : List (List UInt8 × NbtMulti)}
    {states : List MappingBlockState} (built : getBlockStates compound = .ok states) :
    Numbered 256 (states.map entryOf) where
  first entry present := by
    obtain ⟨state, head, rfl⟩ := entryOf_present present
    have zero := blockStatesFrom_head built head
    rw [ite_self] at zero
    simp only [entryOf, zero, UInt8.toNat_zero]
  again index entry next present follows same := by
    obtain ⟨state, here, rfl⟩ := entryOf_present present
    obtain ⟨after, there, rfl⟩ := entryOf_present follows
    have counted := blockStatesFrom_next built here there
    have kept : state.name = after.name := same.symm
    rw [if_neg (not_not_intro kept)] at counted
    simp only [entryOf, counted, next_metadata]
  changed index entry next present follows other := by
    obtain ⟨state, here, rfl⟩ := entryOf_present present
    obtain ⟨after, there, rfl⟩ := entryOf_present follows
    have counted := blockStatesFrom_next built here there
    have differs : state.name ≠ after.name := fun same => other same.symm
    rw [if_pos differs] at counted
    simp only [entryOf, counted, UInt8.toNat_zero]

/-! ## The two lookups -/

/-- The lookup of a state finds its first entry. -/
theorem lookup_first {states : List MappingBlockState} {index : Nat} {state : MappingBlockState}
    (present : states[index]? = some state) :
    ∃ first ≤ index, states[first]? = some state ∧
      blockStateToRuntimeId state.name state.metadata states = Int32.ofNat first := by
  obtain ⟨inside, here⟩ := List.getElem?_eq_some_iff.mp present
  cases found : states.findIdx?
      fun other => other.name = state.name ∧ other.metadata = state.metadata with
  | none =>
    have never := List.findIdx?_eq_none_iff.mp found state (List.mem_of_getElem? present)
    simp at never
  | some first =>
    obtain ⟨bound, matched, before⟩ := List.findIdx?_eq_some_iff_getElem.mp found
    have equal : states[first] = state := by
      obtain ⟨name, metadata⟩ := of_decide_eq_true matched
      exact entryOf_injective (by rw [entryOf, entryOf, name, metadata])
    refine ⟨first, ?_, List.getElem?_eq_some_iff.mpr ⟨bound, equal⟩, ?_⟩
    · by_contra later
      have missed := before index (Nat.lt_of_not_le later)
      rw [here] at missed
      simp at missed
    · rw [blockStateToRuntimeId, found]

theorem runtimeIdToBlockState_ok {runtimeId : Int32} {states : List MappingBlockState}
    {state : MappingBlockState} (positive : 0 ≤ runtimeId.toInt) :
    runtimeIdToBlockState runtimeId states = .ok state ↔
      states[runtimeId.toInt.toNat]? = some state := by
  rw [runtimeIdToBlockState, if_pos positive, orFault_eq_ok]

theorem invertible_iff (states : List MappingBlockState) :
    Invertible states ↔ (states.take (2 ^ 31)).Nodup := by
  rw [List.nodup_iff_getElem?_ne_getElem?]
  constructor
  · intro invertible first last ordered inside equal
    rw [List.length_take, Nat.lt_min] at inside
    have number : (Int32.ofNat last).toInt = last := Int32.toInt_ofNat_of_lt inside.1
    obtain ⟨state, found, same⟩ := invertible (Int32.ofNat last) (by omega) (by omega)
    rw [runtimeIdToBlockState_ok (by omega), number, Int.toNat_natCast] at found
    rw [List.getElem?_take_of_lt (Nat.lt_trans ordered inside.1),
      List.getElem?_take_of_lt inside.1, found] at equal
    obtain ⟨index, early, -, looked⟩ := lookup_first equal
    rw [looked] at same
    have numbers := congrArg Int32.toInt same
    rw [number, Int32.toInt_ofNat_of_lt (by omega)] at numbers
    omega
  · intro distinct runtimeId positive below
    have inside : runtimeId.toInt.toNat < states.length := by omega
    have small : runtimeId.toInt < 2 ^ 31 := runtimeId.toInt_lt
    have present := List.getElem?_eq_getElem inside
    refine ⟨_, (runtimeIdToBlockState_ok positive).mpr present, ?_⟩
    obtain ⟨first, early, found, looked⟩ := lookup_first present
    have same : first = runtimeId.toInt.toNat := by
      by_contra other
      have limit : runtimeId.toInt.toNat < 2 ^ 31 := by omega
      refine distinct first runtimeId.toInt.toNat (Nat.lt_of_le_of_ne early other) ?_ ?_
      · rw [List.length_take, Nat.lt_min]
        exact ⟨limit, inside⟩
      · rw [List.getElem?_take_of_lt (Nat.lt_of_le_of_lt early limit),
          List.getElem?_take_of_lt limit, found, present]
    rw [looked, same]
    apply Int32.toInt_inj.mp
    rw [Int32.toInt_ofNat_of_lt (by omega)]
    omega

/-- Among the positions that a runtime id names, the lookups are inverse
exactly where no name returns after its run and no run has more than 256
entries: the metadata is a byte. -/
theorem blockStates_iff {compound : List (List UInt8 × NbtMulti)} {names : List (List UInt8)}
    (named : (compound.map Prod.snd).mapM compoundName = .ok names) :
    (∃ states, getBlockStates compound = .ok states ∧ Invertible states) ↔
      ShortRuns 256 (names.take (2 ^ 31)) := by
  obtain ⟨states, built, same⟩ := blockStatesFrom_names (bytes "") 0 named
  have numbered := (getBlockStates_numbered built).take (2 ^ 31)
  have runs := numbered.nodup_iff (by decide)
  have cut : ((states.map entryOf).take (2 ^ 31)).map Prod.fst = names.take (2 ^ 31) := by
    rw [List.map_take, List.map_map, ← same]
    rfl
  have distinct : Invertible states ↔ ((states.map entryOf).take (2 ^ 31)).Nodup := by
    rw [invertible_iff, ← List.map_take, List.nodup_map_iff entryOf_injective]
  rw [cut, ← distinct] at runs
  rw [← runs]
  constructor
  · rintro ⟨other, again, invertible⟩
    rw [getBlockStates, built] at again
    cases again
    exact invertible
  · exact fun invertible => ⟨states, built, invertible⟩

/-- An entry of the compound with a name only. -/
def namedState (name : List UInt8) : List UInt8 × NbtMulti :=
  ([], .compound [(bytes "name", .string name)])

theorem blockStates_iff_three :
    (∃ states, getBlockStates [namedState [97], namedState [97], namedState [98]] = .ok states ∧
        Invertible states) ↔
      ShortRuns 256 (([[97], [97], [98]] : List (List UInt8)).take (2 ^ 31)) :=
  @blockStates_iff [namedState [97], namedState [97], namedState [98]] [[97], [97], [98]] rfl

def cobblestoneWall : List UInt8 := bytes "minecraft:cobblestone_wall"

theorem names_replicate (count : Nat) :
    ((List.replicate count (namedState cobblestoneWall)).map Prod.snd).mapM compoundName =
      .ok (List.replicate count cobblestoneWall) := by
  have name : compoundName (namedState cobblestoneWall).2 = .ok cobblestoneWall := rfl
  induction count with
  | zero => rfl
  | succ count ih =>
    rw [List.replicate_succ, List.map_cons, List.mapM_cons, name, ok_bind, ih]
    rfl

/-- The 257th entry of one name has the metadata of the first, and is looked up
as that. -/
theorem longRun_collides :
    ∃ states,
      getBlockStates (List.replicate 257 (namedState cobblestoneWall)) = .ok states ∧
      states.length = 257 ∧ ∃ state, runtimeIdToBlockState 256 states = .ok state ∧
        blockStateToRuntimeId state.name state.metadata states = 0 := by
  obtain ⟨states, built, same⟩ := blockStatesFrom_names (bytes "") 0 (names_replicate 257)
  have numbered := getBlockStates_numbered built
  have length : states.length = 257 := by
    rw [← List.length_map MappingBlockState.name, same, List.length_replicate]
  have constant : Constant (states.map entryOf) 0 256 cobblestoneWall := by
    intro index _ below
    obtain ⟨state, present⟩ : ∃ state, states[index]? = some state :=
      ⟨_, List.getElem?_eq_getElem (by omega)⟩
    have member : state.name ∈ states.map MappingBlockState.name :=
      List.mem_map_of_mem (List.mem_of_getElem? present)
    rw [same] at member
    refine ⟨state.metadata.toNat, ?_⟩
    rw [List.getElem?_map, present, ← List.eq_of_mem_replicate member]
    rfl
  obtain ⟨number, head⟩ := constant 0 (Nat.le_refl 0) (by decide)
  have zero : number = 0 := numbered.first _ head
  subst zero
  have wraps := numbered.run (by decide) head 256 constant
  obtain ⟨first, present, entry⟩ := entryOf_present head
  obtain ⟨last, there, repeated⟩ := entryOf_present wraps
  have equal : last = first := entryOf_injective (repeated.trans entry.symm)
  obtain ⟨index, early, -, looked⟩ := lookup_first present
  refine ⟨states, built, length, last, (runtimeIdToBlockState_ok (by decide)).mpr there, ?_⟩
  rw [equal, looked, Nat.le_zero.mp early]
  rfl

end PodrumMinecraft.BlockStates
