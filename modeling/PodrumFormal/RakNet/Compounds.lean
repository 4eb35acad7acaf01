import Mathlib.Data.List.Perm.Subperm
import PodrumFormal.RakNet.Reassembly

/-!
# Completed compounds

A compound is complete when the holder has as many entries of its id as the
latest fragment announces.  The indices are not looked at: what is handed on is
the message exactly where all of them are below the announced size.
-/

set_option autoImplicit false

namespace PodrumRakNet.Compounds

open PodrumRakNet.Frame PodrumRakNet.Connections PodrumRakNet.Handler PodrumRakNet.Reassembly

/-! ## Calls of `handle_frame` -/

/-- The fragment that completed a compound, the holders around it and the frame
that was handed on. -/
structure Completion where
  frame : MiscFrame
  before : FrameHolder
  after : FrameHolder
  output : MiscFrame

def Completion.held (completion : Completion) : FrameHolder :=
  completion.before.append completion.frame

def Completion.size (completion : Completion) : Nat := completion.frame.compoundSize.toNat

def Completion.keyAt (completion : Completion) (i : Nat) : UInt16 × UInt32 :=
  (completion.frame.compoundId, UInt32.ofNat i)

def completions : List MiscFrame → FrameHolder → List Completion
  | [], _ => []
  | frame :: rest, before =>
      let handled := handleFragmentedFrame frame before
      handled.2.toList.map (fun output => ⟨frame, before, handled.1, output⟩) ++
        completions rest handled.1

/-- They are the calls that `deliver` lists. -/
theorem completions_deliver (frames : List MiscFrame) (frameHolder : FrameHolder) :
    (completions frames frameHolder).map
        (fun completion => (completion.frame.compoundId, completion.output)) =
      (deliver frames frameHolder).2 := by
  induction frames generalizing frameHolder with
  | nil => rfl
  | cons frame rest ih =>
      rw [completions, List.map_append, List.map_map, ih, deliver]
      rfl

theorem mem_completions {frames : List MiscFrame} {start : FrameHolder} {completion : Completion}
    (member : completion ∈ completions frames start) :
    handleFragmentedFrame completion.frame completion.before =
      (completion.after, some completion.output) := by
  induction frames generalizing start with
  | nil => cases member
  | cons frame rest ih =>
      rcases List.mem_append.mp member with now | later
      · obtain ⟨output, called, rfl⟩ := List.mem_map.mp now
        exact Prod.ext rfl (Option.mem_toList.mp called)
      · exact ih later

/-! ## The message -/

/-- The bytes of an entry, none where it is missing. -/
def payloadAt (held : FrameHolder) (key : UInt16 × UInt32) : List UInt8 :=
  ((held.find key).map MiscFrame.stream).getD []

/-- Every index was there, the payloads are joined in their order, and no entry
of the id is left. -/
structure Reassembled (completion : Completion) : Prop where
  every : ∀ i < completion.size, ∃ entry ∈ completion.held.slots,
    frameKey entry = completion.keyAt i
  payload : completion.output.stream =
    ((List.range completion.size).map fun i =>
      payloadAt completion.held (completion.keyAt i)).flatten
  cleared : ∀ entry ∈ completion.after.slots,
    entry.compoundId ≠ completion.frame.compoundId

/-- All entries of the id, the new one as well, are below the announced size. -/
def InRange (completion : Completion) : Prop :=
  completion.frame.index.toNat < completion.size ∧
    ∀ entry ∈ completion.before.slots, entry.compoundId = completion.frame.compoundId →
      entry.index.toNat < completion.size

/-- Distinct numbers fill the range of their count where none is outside it. -/
theorem full_iff {indices : List Nat} (distinct : indices.Nodup) :
    (∀ i < indices.length, i ∈ indices) ↔ ∀ i ∈ indices, i < indices.length := by
  constructor
  · intro full
    have covered : List.range indices.length ⊆ indices :=
      fun i member => full i (List.mem_range.mp member)
    have enough : indices.length ≤ (List.range indices.length).length := by
      rw [List.length_range]
    have same := (List.subperm_of_subset List.nodup_range covered).perm_of_length_le enough
    exact fun i member => List.mem_range.mp (same.mem_iff.mpr member)
  · intro inside
    have covered : indices ⊆ List.range indices.length :=
      fun i member => List.mem_range.mpr (inside i member)
    have enough : (List.range indices.length).length ≤ indices.length := by
      rw [List.length_range]
    have same := (List.subperm_of_subset distinct covered).perm_of_length_le enough
    exact fun i small => same.mem_iff.mpr (List.mem_range.mpr small)

/-- The indices of the entries of an id. -/
def indicesOf (compoundId : UInt16) (held : FrameHolder) : List Nat :=
  (held.slots.filter fun frame => frame.compoundId = compoundId).map fun frame =>
    frame.index.toNat

theorem mem_indicesOf {compoundId : UInt16} {held : FrameHolder} {i : Nat} :
    i ∈ indicesOf compoundId held ↔
      ∃ entry ∈ held.slots, entry.compoundId = compoundId ∧ entry.index.toNat = i := by
  simp only [indicesOf, List.mem_map, List.mem_filter, decide_eq_true_eq, and_assoc]

theorem indicesOf_nodup (compoundId : UInt16) (held : FrameHolder) :
    (indicesOf compoundId held).Nodup := by
  have entries := (List.Nodup.of_map _ held.distinct).filter
    fun frame => frame.compoundId = compoundId
  refine List.Nodup.map_on ?_ entries
  intro left leftMember right rightMember same
  obtain ⟨leftHeld, leftId⟩ := List.mem_filter.mp leftMember
  obtain ⟨rightHeld, rightId⟩ := List.mem_filter.mp rightMember
  rw [decide_eq_true_eq] at leftId rightId
  refine List.inj_on_of_nodup_map held.distinct leftHeld rightHeld ?_
  exact Prod.ext (leftId.trans rightId.symm) (UInt32.toNat_inj.mp same)

theorem length_indicesOf (compoundId : UInt16) (held : FrameHolder) :
    (indicesOf compoundId held).length = getRaknetCompoundSize compoundId held := by
  rw [indicesOf, List.length_map, getRaknetCompoundSize, List.countP_eq_length_filter]

/-! ## What is popped -/

/-- Induction on the turns: a turn finds what was there before all of them. -/
theorem pop_turns (compoundId : UInt16) (held : FrameHolder) : ∀ turns ≤ 2 ^ 32,
    ((List.range turns).foldl (popCompoundEntry compoundId) ([], held)).1 =
        ((List.range turns).map fun i => payloadAt held (compoundId, UInt32.ofNat i)).flatten ∧
      ∀ key, ((List.range turns).foldl (popCompoundEntry compoundId) ([], held)).2.find key =
        if ∃ i < turns, key = (compoundId, UInt32.ofNat i) then none else held.find key := by
  intro turns
  induction turns with
  | zero => intro _; simp
  | succ turns ih =>
      intro enough
      obtain ⟨payload, finds⟩ := ih (Nat.le_of_succ_le enough)
      rw [List.range_succ, List.foldl_append, List.foldl_cons, List.foldl_nil]
      generalize (List.range turns).foldl (popCompoundEntry compoundId) ([], held) =
        joined at payload finds
      have fresh : ¬∃ i < turns,
          ((compoundId, UInt32.ofNat turns) : UInt16 × UInt32) = (compoundId, UInt32.ofNat i) := by
        rintro ⟨i, early, same⟩
        have equal := ofNat_inj_of_lt (by omega) (by omega) (Prod.mk.inj same).2
        omega
      have here := finds (compoundId, UInt32.ofNat turns)
      rw [if_neg fresh] at here
      constructor
      · simp only [popCompoundEntry, KeyedArray.pop, here, payload, List.map_append,
          List.flatten_append, List.map_cons, List.map_nil, List.flatten_cons, List.flatten_nil,
          List.append_nil, payloadAt]
      · intro key
        simp only [popCompoundEntry, KeyedArray.pop, KeyedArray.find_deduct, finds]
        by_cases now : key = (compoundId, UInt32.ofNat turns)
        · rw [if_pos now, if_pos ⟨turns, Nat.lt_succ_self _, now⟩]
        · rw [if_neg now]
          refine if_congr ?_ rfl rfl
          constructor
          · rintro ⟨i, early, same⟩
            exact ⟨i, Nat.lt_succ_of_lt early, same⟩
          · rintro ⟨i, early, same⟩
            rcases Nat.lt_succ_iff_lt_or_eq.mp early with earlier | rfl
            · exact ⟨i, earlier, same⟩
            · exact absurd same now

section Completed

variable {completion : Completion}

/-- All that a call of `handle_frame` for a compound says. -/
theorem completed (called : handleFragmentedFrame completion.frame completion.before =
      (completion.after, some completion.output)) :
    getRaknetCompoundSize completion.frame.compoundId completion.held = completion.size ∧
      completion.output.stream = ((List.range completion.size).map fun i =>
        payloadAt completion.held (completion.keyAt i)).flatten ∧
      ∀ key, completion.after.find key =
        if ∃ i < completion.size, key = completion.keyAt i then none
        else completion.held.find key := by
  have bound : completion.size ≤ 2 ^ 32 := Nat.le_of_lt (UInt32.toNat_lt _)
  obtain ⟨payload, finds⟩ := pop_turns completion.frame.compoundId completion.held _ bound
  simp only [handleFragmentedFrame] at called
  split at called
  · rename_i full
    obtain ⟨holders, outputs⟩ := Prod.mk.inj called
    refine ⟨full, ?_, fun key => ?_⟩
    · rw [← Option.some.inj outputs]
      exact payload
    · rw [← holders]
      exact finds key
  · cases (Prod.mk.inj called).2

theorem inRange_iff : InRange completion ↔
    ∀ entry ∈ completion.held.slots, entry.compoundId = completion.frame.compoundId →
      entry.index.toNat < completion.size := by
  constructor
  · rintro ⟨own, others⟩ entry member sameId
    rcases KeyedArray.mem_append member with kept | rfl
    · exact others entry kept sameId
    · exact own
  · intro every
    constructor
    · obtain ⟨entry, member, same⟩ :=
        KeyedArray.key_append completion.frame completion.before
      have index : entry.index = completion.frame.index := (Prod.mk.inj same).2
      rw [← index]
      exact every entry member (Prod.mk.inj same).1
    · intro entry member sameId
      exact every entry (mem_append_holder_of_mem _ member) sameId

/-- All indices are there exactly where none is out of range. -/
theorem every_iff
    (full : getRaknetCompoundSize completion.frame.compoundId completion.held = completion.size) :
    (∀ i < completion.size, ∃ entry ∈ completion.held.slots,
        frameKey entry = completion.keyAt i) ↔ InRange completion := by
  have size := length_indicesOf completion.frame.compoundId completion.held
  have filled := full_iff (indicesOf_nodup completion.frame.compoundId completion.held)
  rw [size, full] at filled
  rw [inRange_iff]
  constructor
  · intro every entry member sameId
    refine filled.mp (fun i small => ?_) _ (mem_indicesOf.mpr ⟨entry, member, sameId, rfl⟩)
    obtain ⟨found, held, same⟩ := every i small
    have index : found.index = UInt32.ofNat i := (Prod.mk.inj same).2
    refine mem_indicesOf.mpr ⟨found, held, (Prod.mk.inj same).1, ?_⟩
    rw [index]
    exact UInt32.toNat_ofNat_of_lt' (Nat.lt_trans small (UInt32.toNat_lt _))
  · intro inside i small
    have indices : ∀ i ∈ indicesOf completion.frame.compoundId completion.held,
        i < completion.size := by
      intro i member
      obtain ⟨entry, held, sameId, rfl⟩ := mem_indicesOf.mp member
      exact inside entry held sameId
    obtain ⟨entry, held, sameId, index⟩ := mem_indicesOf.mp (filled.mpr indices i small)
    exact ⟨entry, held, Prod.ext sameId (by rw [← index]; exact UInt32.ofNat_toNat.symm)⟩

/-- Entries below the announced size are all popped. -/
theorem cleared_of_inRange (inside : InRange completion)
    (finds : ∀ key, completion.after.find key =
      if ∃ i < completion.size, key = completion.keyAt i then none
      else completion.held.find key) :
    ∀ entry ∈ completion.after.slots, entry.compoundId ≠ completion.frame.compoundId := by
  intro entry member sameId
  have found := KeyedArray.find_of_mem member
  rw [finds] at found
  split at found
  · cases found
  · rename_i kept
    have small := inRange_iff.mp inside entry (KeyedArray.find_some found).1 sameId
    refine kept ⟨entry.index.toNat, small, Prod.ext sameId ?_⟩
    exact UInt32.ofNat_toNat.symm

end Completed

/-! ## Every run -/

/-- In every run of fragments, each call of `handle_frame` for a compound has
the whole message exactly where the entries of its id were below the announced
size. -/
theorem reassembled_iff (frames : List MiscFrame) (start : FrameHolder) :
    ∀ completion ∈ completions frames start, Reassembled completion ↔ InRange completion := by
  intro completion member
  obtain ⟨full, payload, finds⟩ := completed (mem_completions member)
  constructor
  · intro reassembled
    exact (every_iff full).mp reassembled.every
  · intro inside
    exact ⟨(every_iff full).mpr inside, payload, cleared_of_inRange inside finds⟩

def fragmentAt (compoundSize index : UInt32) : MiscFrame :=
  { isFragmented := 1, compoundSize, index, stream := [index.toUInt8] }

/-- The fragments of a message out of order, with one of another compound
between them. -/
def shuffled : List MiscFrame :=
  [fragmentAt 3 2, { fragmentAt 2 0 with compoundId := 7 }, fragmentAt 3 0, fragmentAt 3 1]

def shuffledCompletion : Completion where
  frame := fragmentAt 3 1
  before := (deliver (shuffled.take 3) KeyedArray.empty).1
  after := (deliver shuffled KeyedArray.empty).1
  output := { isFragmented := 0, stream := [0, 1, 2] }

theorem reassembled_iff_shuffled : Reassembled shuffledCompletion ↔ InRange shuffledCompletion :=
  reassembled_iff shuffled KeyedArray.empty shuffledCompletion (List.Mem.head _)

/-- Two entries complete a compound of two fragments, the index 5 among them. -/
theorem farIndex_completes :
    ∃ completion ∈ completions [fragmentAt 2 5, fragmentAt 2 0] KeyedArray.empty,
      completion.output.stream = [0] ∧ fragmentAt 2 5 ∈ completion.after.slots ∧
        ¬Reassembled completion := by
  refine ⟨_, List.Mem.head _, rfl, List.Mem.head _, fun reassembled => ?_⟩
  exact reassembled.cleared _ (List.Mem.head _) rfl

end PodrumRakNet.Compounds
