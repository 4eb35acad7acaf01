import PodrumFormal.RakNet.ReceiveWindow

/-!
# Reassembly

The fragments of a message, delivered in any order with duplicates and among
other fragments, are held until the last distinct one arrives, which hands the
joined payload to `handle_frame` and clears the holder of them.
-/

set_option autoImplicit false

namespace PodrumRakNet.Reassembly

open PodrumRakNet.Frame PodrumRakNet.FrameSet PodrumRakNet.Packet PodrumRakNet.Connections
open PodrumRakNet.SendQueue PodrumRakNet.SendLedger PodrumRakNet.Fragments PodrumRakNet.Handler
open PodrumRakNet.ReceiveWindow

/-! ## Delivering fragments -/

/-- The holder after the fragments, and each frame `handle_frame` was called
with, under the compound id of the fragment that completed it. -/
def deliver : List MiscFrame → FrameHolder → FrameHolder × List (UInt16 × MiscFrame)
  | [], frameHolder => (frameHolder, [])
  | frame :: rest, frameHolder =>
      let handled := handleFragmentedFrame frame frameHolder
      let final := deliver rest handled.1
      (final.1, handled.2.toList.map (fun output => (frame.compoundId, output)) ++ final.2)

theorem deliver_append (before after : List MiscFrame) (frameHolder : FrameHolder) :
    deliver (before ++ after) frameHolder =
      ((deliver after (deliver before frameHolder).1).1,
        (deliver before frameHolder).2 ++ (deliver after (deliver before frameHolder).1).2) := by
  induction before generalizing frameHolder with
  | nil => rfl
  | cons frame rest ih => simp only [List.cons_append, deliver, ih, List.append_assoc]

/-- `handle_frame` on a fragment changes the holder as
`handle_fragmented_frame` does: what it hands on leaves the holder alone. -/
theorem handleFrame_frameHolder {environment : Environment} {frame : MiscFrame}
    {connection next : Connection} {server nextServer : RaknetServer}
    (fragmented : frame.isFragmented ≠ 0)
    (success : handleFrame environment frame connection server = some (next, nextServer)) :
    next.frameHolder = (handleFragmentedFrame frame connection.frameHolder).1 := by
  simp only [handleFrame, if_pos fragmented] at success
  split at success
  · exact (handleWholeFrame_receiver success).frameHolder
  · cases success
    rfl

/-! ## What handling does to the entries -/

/-- The entries of that id are exactly the ones listed. -/
def Holds (compoundId : UInt16) (frameHolder : FrameHolder) (held : List MiscFrame) : Prop :=
  ∀ frame, frame.compoundId = compoundId → (frame ∈ frameHolder.slots ↔ frame ∈ held)

theorem mem_append_holder (frameHolder : FrameHolder) (added frame : MiscFrame) :
    frame ∈ (frameHolder.append added).slots →
      frame ∈ frameHolder.slots ∨ frame = added := by
  intro member
  by_cases present : frameKey added ∈ frameHolder.slots.map frameKey
  · rw [KeyedArray.append_slots_present present] at member
    exact Or.inl member
  · rw [KeyedArray.append_slots_absent present, List.mem_append, List.mem_singleton] at member
    exact member

theorem mem_append_holder_of_mem {frameHolder : FrameHolder} {frame : MiscFrame}
    (added : MiscFrame) (member : frame ∈ frameHolder.slots) :
    frame ∈ (frameHolder.append added).slots := by
  by_cases present : frameKey added ∈ frameHolder.slots.map frameKey
  · rwa [KeyedArray.append_slots_present present]
  · rw [KeyedArray.append_slots_absent present]
    exact List.mem_append_left _ member

/-- After an append the key is there, be it by an entry that was there before. -/
theorem key_append_holder (frameHolder : FrameHolder) (added : MiscFrame) :
    ∃ frame ∈ (frameHolder.append added).slots, frameKey frame = frameKey added := by
  by_cases present : frameKey added ∈ frameHolder.slots.map frameKey
  · obtain ⟨frame, member, same⟩ := List.mem_map.mp present
    exact ⟨frame, mem_append_holder_of_mem added member, same⟩
  · rw [KeyedArray.append_slots_absent present]
    exact ⟨added, List.mem_append_right _ (List.mem_singleton.mpr rfl), rfl⟩

/-- Popping entries of one id leaves the others. -/
theorem foldl_pop_other (compoundId : UInt16) (indices : List Nat)
    (joined : List UInt8 × FrameHolder) (frame : MiscFrame) (other : frame.compoundId ≠ compoundId) :
    frame ∈ (indices.foldl (popCompoundEntry compoundId) joined).2.slots ↔
      frame ∈ joined.2.slots := by
  induction indices generalizing joined with
  | nil => rfl
  | cons index rest ih =>
      rw [List.foldl_cons, ih]
      simp only [popCompoundEntry, KeyedArray.pop, KeyedArray.mem_deduct]
      exact and_iff_left fun same => other (Prod.mk.inj same).1

theorem handleFragmentedFrame_other {compoundId : UInt16} {frame : MiscFrame}
    (foreign : frame.compoundId ≠ compoundId) (frameHolder : FrameHolder)
    {held : List MiscFrame} (holds : Holds compoundId frameHolder held) :
    Holds compoundId (handleFragmentedFrame frame frameHolder).1 held := by
  intro own sameId
  rw [← holds own sameId]
  have appended : own ∈ (frameHolder.append frame).slots ↔ own ∈ frameHolder.slots := by
    constructor
    · intro member
      rcases mem_append_holder _ _ _ member with kept | rfl
      · exact kept
      · exact absurd sameId foreign
    · exact mem_append_holder_of_mem frame
  rw [← appended]
  simp only [handleFragmentedFrame]
  split
  · exact foldl_pop_other _ _ _ _ fun same => foreign (same.symm.trans sameId)
  · rfl

/-- A frame that announces no fragments completes nothing. -/
theorem handleFragmentedFrame_zero {frame : MiscFrame} (empty : frame.compoundSize = 0)
    (frameHolder : FrameHolder) : (handleFragmentedFrame frame frameHolder).2 = none := by
  obtain ⟨entry, member, same⟩ := key_append_holder frameHolder frame
  have positive : 0 < getRaknetCompoundSize frame.compoundId (frameHolder.append frame) :=
    List.countP_pos_iff.mpr ⟨entry, member, decide_eq_true (Prod.mk.inj same).1⟩
  have different : getRaknetCompoundSize frame.compoundId (frameHolder.append frame) ≠
      frame.compoundSize.toNat := by
    rw [empty]
    exact Nat.pos_iff_ne_zero.mp positive
  simp only [handleFragmentedFrame, if_neg different]

/-! ## The fragments of one message -/

theorem ofNat_inj_of_lt {i j : Nat} (iSmall : i < 2 ^ 32) (jSmall : j < 2 ^ 32)
    (same : UInt32.ofNat i = UInt32.ofNat j) : i = j := by
  have numbers := congrArg UInt32.toNat same
  rwa [UInt32.toNat_ofNat_of_lt' (by simpa using iSmall),
    UInt32.toNat_ofNat_of_lt' (by simpa using jSmall)] at numbers

/-- `fragment 0 .. fragment (count - 1)` under one compound id. -/
structure FragmentRun (compoundId : UInt16) (count : Nat) (fragment : Nat → MiscFrame) : Prop where
  fits : count < 2 ^ 32
  id : ∀ i, (fragment i).compoundId = compoundId
  index : ∀ i, (fragment i).index = UInt32.ofNat i
  size : ∀ i, (fragment i).compoundSize = UInt32.ofNat count

section Run

variable {compoundId : UInt16} {count : Nat} {fragment : Nat → MiscFrame}

def fragmentList (count : Nat) (fragment : Nat → MiscFrame) : List MiscFrame :=
  (List.range count).map fragment

theorem mem_fragmentList {frame : MiscFrame} :
    frame ∈ fragmentList count fragment ↔ ∃ i, i < count ∧ fragment i = frame := by
  simp [fragmentList]

theorem fragmentList_succ :
    fragmentList (count + 1) fragment = fragmentList count fragment ++ [fragment count] := by
  rw [fragmentList, List.range_succ, List.map_append]
  rfl

theorem FragmentRun.key (run : FragmentRun compoundId count fragment) (i : Nat) :
    frameKey (fragment i) = (compoundId, UInt32.ofNat i) := by
  rw [frameKey, run.id, run.index]

theorem FragmentRun.nodup (run : FragmentRun compoundId count fragment) :
    (fragmentList count fragment).Nodup := by
  refine List.Nodup.map_on ?_ List.nodup_range
  intro i iMember j jMember same
  have indices := congrArg MiscFrame.index same
  rw [run.index, run.index] at indices
  have fits := run.fits
  exact ofNat_inj_of_lt (Nat.lt_trans (List.mem_range.mp iMember) fits)
    (Nat.lt_trans (List.mem_range.mp jMember) fits) indices

/-- Fragments of one message with the same key are the same fragment. -/
theorem FragmentRun.eq_of_key (run : FragmentRun compoundId count fragment)
    {left right : MiscFrame} (leftMember : left ∈ fragmentList count fragment)
    (rightMember : right ∈ fragmentList count fragment) (same : frameKey left = frameKey right) :
    left = right := by
  obtain ⟨i, iSmall, rfl⟩ := mem_fragmentList.mp leftMember
  obtain ⟨j, jSmall, rfl⟩ := mem_fragmentList.mp rightMember
  rw [run.key, run.key] at same
  have fits := run.fits
  rw [ofNat_inj_of_lt (Nat.lt_trans iSmall fits) (Nat.lt_trans jSmall fits)
    (Prod.mk.inj same).2]

/-- The entries of an id that holds only fragments are counted by their
list. -/
theorem FragmentRun.compoundSize_eq {frameHolder : FrameHolder}
    {held : List MiscFrame} (run : FragmentRun compoundId count fragment)
    (holds : Holds compoundId frameHolder held) (distinct : held.Nodup)
    (only : ∀ frame ∈ held, frame ∈ fragmentList count fragment) :
    getRaknetCompoundSize compoundId frameHolder = held.length := by
  rw [getRaknetCompoundSize, List.countP_eq_length_filter]
  refine List.Perm.length_eq ((List.perm_ext_iff_of_nodup ?_ distinct).mpr fun frame => ?_)
  · exact (List.Nodup.of_map _ frameHolder.distinct).filter _
  · rw [List.mem_filter, decide_eq_true_iff]
    constructor
    · rintro ⟨member, sameId⟩
      exact (holds frame sameId).mp member
    · intro member
      obtain ⟨i, _, rfl⟩ := mem_fragmentList.mp (only frame member)
      exact ⟨(holds _ (run.id i)).mpr member, run.id i⟩

/-- Induction on the turns: turn `i` finds fragment `i`, the turns before
having removed other keys. -/
theorem FragmentRun.pop_all (run : FragmentRun compoundId count fragment)
    (held : FrameHolder) (present : ∀ i < count, fragment i ∈ held.slots) :
    ∀ turns ≤ count,
      ((List.range turns).foldl (popCompoundEntry compoundId) ([], held)).1 =
          ((List.range turns).map fun i => (fragment i).stream).flatten ∧
      ∀ frame, frame ∈
          ((List.range turns).foldl (popCompoundEntry compoundId) ([], held)).2.slots ↔
        frame ∈ held.slots ∧ ∀ i < turns, frameKey frame ≠ (compoundId, UInt32.ofNat i) := by
  intro turns
  induction turns with
  | zero => intro _; simp
  | succ turns ih =>
      intro enough
      obtain ⟨payload, members⟩ := ih (by omega)
      rw [List.range_succ, List.foldl_append, List.foldl_cons, List.foldl_nil]
      generalize (List.range turns).foldl (popCompoundEntry compoundId) ([], held) =
        joined at payload members
      have here : fragment turns ∈ joined.2.slots := by
        refine (members _).mpr ⟨present turns (by omega), fun i early same => ?_⟩
        rw [run.key] at same
        have fits := run.fits
        have equal := ofNat_inj_of_lt (by omega) (by omega) (Prod.mk.inj same).2
        omega
      have found := KeyedArray.find_of_mem here
      rw [run.key] at found
      refine ⟨?_, fun frame => ?_⟩
      · simp [popCompoundEntry, KeyedArray.pop, found, payload]
      · simp only [popCompoundEntry, KeyedArray.pop, KeyedArray.mem_deduct, members]
        constructor
        · rintro ⟨⟨member, before⟩, now⟩
          refine ⟨member, fun i early => ?_⟩
          rcases Nat.lt_succ_iff_lt_or_eq.mp early with earlier | rfl
          · exact before i earlier
          · exact now
        · rintro ⟨member, every⟩
          exact ⟨⟨member, fun i early => every i (by omega)⟩, every turns (by omega)⟩

/-! ## One fragment of the message -/

theorem FragmentRun.append_holds (run : FragmentRun compoundId count fragment)
    {frameHolder : FrameHolder} {held : List MiscFrame} {frame : MiscFrame}
    (holds : Holds compoundId frameHolder held)
    (only : ∀ other ∈ held, other ∈ fragmentList count fragment)
    (member : frame ∈ fragmentList count fragment) :
    Holds compoundId (frameHolder.append frame) (held ++ [frame]) := by
  intro other sameId
  rw [List.mem_append, List.mem_singleton, ← holds other sameId]
  constructor
  · exact mem_append_holder _ _ _
  · intro either
    rcases either with kept | rfl
    · exact mem_append_holder_of_mem frame kept
    · obtain ⟨entry, entryMember, sameKey⟩ := key_append_holder frameHolder other
      rcases mem_append_holder _ _ _ entryMember with kept | rfl
      · have entryId : entry.compoundId = compoundId := (Prod.mk.inj sameKey).1.trans sameId
        have entryHeld := only entry ((holds entry entryId).mp kept)
        obtain rfl := run.eq_of_key entryHeld member sameKey
        exact entryMember
      · exact entryMember

/-- The fragments that have arrived. -/
def arrived (count : Nat) (fragment : Nat → MiscFrame) (delivered : List MiscFrame) :
    List MiscFrame :=
  (fragmentList count fragment).filter fun frame => frame ∈ delivered

theorem mem_arrived {delivered : List MiscFrame} {frame : MiscFrame} :
    frame ∈ arrived count fragment delivered ↔
      frame ∈ fragmentList count fragment ∧ frame ∈ delivered := by
  rw [arrived, List.mem_filter, decide_eq_true_iff]

theorem FragmentRun.append_arrived (run : FragmentRun compoundId count fragment)
    {frameHolder : FrameHolder} {delivered : List MiscFrame} {frame : MiscFrame}
    (holds : Holds compoundId frameHolder (arrived count fragment delivered))
    (member : frame ∈ fragmentList count fragment) :
    Holds compoundId (frameHolder.append frame)
      (arrived count fragment (delivered ++ [frame])) := by
  intro other sameId
  rw [run.append_holds holds (fun entry held => (mem_arrived.mp held).1) member other sameId,
    List.mem_append, List.mem_singleton, mem_arrived, mem_arrived, List.mem_append,
    List.mem_singleton]
  constructor
  · intro either
    rcases either with ⟨listed, early⟩ | rfl
    · exact ⟨listed, Or.inl early⟩
    · exact ⟨member, Or.inr rfl⟩
  · rintro ⟨listed, early | now⟩
    · exact Or.inl ⟨listed, early⟩
    · exact Or.inr now

theorem FragmentRun.append_size (run : FragmentRun compoundId count fragment)
    {frameHolder : FrameHolder} {delivered : List MiscFrame} {frame : MiscFrame}
    (holds : Holds compoundId frameHolder (arrived count fragment delivered))
    (member : frame ∈ fragmentList count fragment) :
    getRaknetCompoundSize frame.compoundId (frameHolder.append frame) =
      (arrived count fragment (delivered ++ [frame])).length := by
  obtain ⟨i, _, rfl⟩ := mem_fragmentList.mp member
  rw [run.id]
  exact run.compoundSize_eq (run.append_arrived holds member) (run.nodup.filter _)
    fun other held => (mem_arrived.mp held).1

theorem FragmentRun.announced (run : FragmentRun compoundId count fragment) {frame : MiscFrame}
    (member : frame ∈ fragmentList count fragment) : frame.compoundSize.toNat = count := by
  obtain ⟨i, _, rfl⟩ := mem_fragmentList.mp member
  rw [run.size]
  exact UInt32.toNat_ofNat_of_lt' run.fits

/-- A fragment is held while another one is missing. -/
theorem FragmentRun.handle_incomplete (run : FragmentRun compoundId count fragment)
    {frameHolder : FrameHolder} {delivered : List MiscFrame} {frame missing : MiscFrame}
    (holds : Holds compoundId frameHolder (arrived count fragment delivered))
    (member : frame ∈ fragmentList count fragment)
    (missingMember : missing ∈ fragmentList count fragment)
    (absent : missing ∉ delivered ++ [frame]) :
    handleFragmentedFrame frame frameHolder = (frameHolder.append frame, none) := by
  have fewer : (arrived count fragment (delivered ++ [frame])).length < count := by
    have shorter : (arrived count fragment (delivered ++ [frame])).length <
        (fragmentList count fragment).length :=
      List.length_filter_lt_length_iff_exists.mpr ⟨missing, missingMember, by simpa using absent⟩
    simpa [fragmentList] using shorter
  have different : getRaknetCompoundSize frame.compoundId (frameHolder.append frame) ≠
      frame.compoundSize.toNat := by
    rw [run.append_size holds member, run.announced member]
    exact Nat.ne_of_lt fewer
  simp only [handleFragmentedFrame, if_neg different]

/-- The last one completes the message and clears the id. -/
theorem FragmentRun.handle_last (run : FragmentRun compoundId count fragment)
    {frameHolder : FrameHolder} {delivered : List MiscFrame} {last : MiscFrame}
    (holds : Holds compoundId frameHolder (arrived count fragment delivered))
    (member : last ∈ fragmentList count fragment)
    (complete : ∀ frame ∈ fragmentList count fragment, frame ∈ delivered ++ [last]) :
    (handleFragmentedFrame last frameHolder).2 = some {
        isFragmented := 0
        stream := ((fragmentList count fragment).map MiscFrame.stream).flatten } ∧
      Holds compoundId (handleFragmentedFrame last frameHolder).1 [] := by
  have all : arrived count fragment (delivered ++ [last]) = fragmentList count fragment :=
    List.filter_eq_self.mpr fun frame listed => decide_eq_true (complete frame listed)
  have appended := run.append_arrived holds member
  have size := run.append_size holds member
  rw [all] at appended size
  have full : getRaknetCompoundSize last.compoundId (frameHolder.append last) =
      last.compoundSize.toNat := by
    rw [size, run.announced member]
    simp [fragmentList]
  rw [run.announced member] at full
  have sameId : last.compoundId = compoundId := by
    obtain ⟨i, _, rfl⟩ := mem_fragmentList.mp member
    exact run.id i
  have present : ∀ i < count, fragment i ∈ (frameHolder.append last).slots := fun i small =>
    (appended _ (run.id i)).mpr (mem_fragmentList.mpr ⟨i, small, rfl⟩)
  obtain ⟨payload, members⟩ := run.pop_all (frameHolder.append last) present count (Nat.le_refl _)
  rw [sameId] at full
  simp only [handleFragmentedFrame, run.announced member, sameId, if_pos full]
  refine ⟨?_, fun frame own => ?_⟩
  · rw [payload, fragmentList, List.map_map]
    rfl
  · refine iff_of_false (fun left => ?_) List.not_mem_nil
    obtain ⟨kept, popped⟩ := (members frame).mp left
    obtain ⟨i, small, rfl⟩ := mem_fragmentList.mp ((appended frame own).mp kept)
    exact popped i small (run.key i)

/-! ## Deliveries -/

/-- A frame of another id hands nothing on for this one. -/
theorem deliver_cons_foreign {frame : MiscFrame} {rest : List MiscFrame}
    {frameHolder : FrameHolder} (other : frame.compoundId ≠ compoundId)
    (later : ∀ handed ∈ (deliver rest (handleFragmentedFrame frame frameHolder).1).2,
      handed.1 ≠ compoundId) :
    ∀ handed ∈ (deliver (frame :: rest) frameHolder).2, handed.1 ≠ compoundId := by
  intro handed member
  rcases List.mem_append.mp member with now | rest
  · obtain ⟨output, _, rfl⟩ := List.mem_map.mp now
    exact other
  · exact later handed rest

theorem deliver_foreign : ∀ (frames : List MiscFrame) (frameHolder : FrameHolder)
    (held : List MiscFrame), (∀ frame ∈ frames, frame.compoundId ≠ compoundId) →
    Holds compoundId frameHolder held →
    Holds compoundId (deliver frames frameHolder).1 held ∧
      ∀ handed ∈ (deliver frames frameHolder).2, handed.1 ≠ compoundId := by
  intro frames
  induction frames with
  | nil => intro frameHolder held _ holds; exact ⟨holds, by simp [deliver]⟩
  | cons frame rest ih =>
      intro frameHolder held foreign holds
      have here := foreign frame (List.mem_cons_self ..)
      obtain ⟨final, others⟩ := ih _ held
        (fun other member => foreign other (List.mem_cons_of_mem _ member))
        (handleFragmentedFrame_other here frameHolder holds)
      exact ⟨final, deliver_cons_foreign here others⟩

theorem arrived_foreign {frameHolder : FrameHolder} {delivered : List MiscFrame}
    {frame : MiscFrame} (other : frame.compoundId ≠ compoundId)
    (holds : Holds compoundId frameHolder (arrived count fragment delivered)) :
    Holds compoundId (handleFragmentedFrame frame frameHolder).1
      (arrived count fragment (delivered ++ [frame])) := by
  intro entry entryId
  rw [handleFragmentedFrame_other other frameHolder holds entry entryId, mem_arrived,
    mem_arrived, List.mem_append, List.mem_singleton]
  constructor
  · exact fun held => ⟨held.1, Or.inl held.2⟩
  · rintro ⟨listed, early | rfl⟩
    · exact ⟨listed, early⟩
    · exact absurd entryId other

/-- Nothing of the id is handed on while a fragment is missing. -/
theorem FragmentRun.deliver_incomplete (run : FragmentRun compoundId count fragment)
    {missing : MiscFrame} (missingMember : missing ∈ fragmentList count fragment) :
    ∀ (frames delivered : List MiscFrame) (frameHolder : FrameHolder),
      Holds compoundId frameHolder (arrived count fragment delivered) →
      (∀ frame ∈ frames, frame.compoundId = compoundId → frame ∈ fragmentList count fragment) →
      missing ∉ delivered ++ frames →
      Holds compoundId (deliver frames frameHolder).1
          (arrived count fragment (delivered ++ frames)) ∧
        ∀ handed ∈ (deliver frames frameHolder).2, handed.1 ≠ compoundId := by
  intro frames
  induction frames with
  | nil =>
      intro delivered frameHolder holds _ _
      exact ⟨by simpa [deliver] using holds, by simp [deliver]⟩
  | cons frame rest ih =>
      intro delivered frameHolder holds own absent
      have splitDelivered : delivered ++ frame :: rest = (delivered ++ [frame]) ++ rest := by simp
      rw [splitDelivered] at absent ⊢
      have absentHere : missing ∉ delivered ++ [frame] :=
        fun member => absent (List.mem_append_left _ member)
      have ownRest : ∀ other ∈ rest, other.compoundId = compoundId →
          other ∈ fragmentList count fragment :=
        fun other member => own other (List.mem_cons_of_mem _ member)
      by_cases sameId : frame.compoundId = compoundId
      · have member := own frame (List.mem_cons_self ..) sameId
        have handled := run.handle_incomplete holds member missingMember absentHere
        have final := ih (delivered ++ [frame]) _ (run.append_arrived holds member) ownRest absent
        simpa [deliver, handled] using final
      · obtain ⟨final, others⟩ :=
          ih (delivered ++ [frame]) _ (arrived_foreign sameId holds) ownRest absent
        exact ⟨final, deliver_cons_foreign sameId others⟩

/-- Every fragment arrives, `last` being the last one to arrive for the first
time; no fragment of the id comes after it. -/
structure Delivery (compoundId : UInt16) (fragments before : List MiscFrame) (last : MiscFrame)
    (after : List MiscFrame) : Prop where
  own : ∀ frame ∈ before, frame.compoundId = compoundId → frame ∈ fragments
  each : ∀ frame ∈ fragments, frame ∈ before ++ [last]
  lastMember : last ∈ fragments
  lastNew : last ∉ before
  foreign : ∀ frame ∈ after, frame.compoundId ≠ compoundId

/-- `handle_frame` was called once for the id, with that payload unfragmented,
and no entry of the id is left. -/
def HandedOnce (compoundId : UInt16) (payload : List UInt8)
    (final : FrameHolder × List (UInt16 × MiscFrame)) : Prop :=
  ∃ output, final.2.filter (fun handed => handed.1 = compoundId) = [(compoundId, output)] ∧
    output.isFragmented = 0 ∧ output.stream = payload ∧
    ∀ frame ∈ final.1.slots, frame.compoundId ≠ compoundId

theorem FragmentRun.handedOnce (run : FragmentRun compoundId count fragment)
    {before after : List MiscFrame} {last : MiscFrame} {frameHolder : FrameHolder}
    (unheld : ∀ frame ∈ frameHolder.slots, frame.compoundId ≠ compoundId)
    (delivery : Delivery compoundId (fragmentList count fragment) before last after) :
    HandedOnce compoundId ((fragmentList count fragment).map MiscFrame.stream).flatten
      (deliver (before ++ last :: after) frameHolder) := by
  have initial : Holds compoundId frameHolder (arrived count fragment []) := by
    intro frame sameId
    exact iff_of_false (fun member => unheld frame member sameId) (by simp [arrived])
  obtain ⟨held, early⟩ := run.deliver_incomplete delivery.lastMember before [] frameHolder
    initial delivery.own delivery.lastNew
  rw [List.nil_append] at held
  obtain ⟨completed, cleared⟩ := run.handle_last held delivery.lastMember delivery.each
  obtain ⟨final, late⟩ := deliver_foreign after _ [] delivery.foreign cleared
  have lastId : last.compoundId = compoundId := by
    obtain ⟨i, _, same⟩ := mem_fragmentList.mp delivery.lastMember
    exact same ▸ run.id i
  have silent (handed : List (UInt16 × MiscFrame)) (others : ∀ pair ∈ handed, pair.1 ≠ compoundId) :
      handed.filter (fun pair => pair.1 = compoundId) = [] :=
    List.filter_eq_nil_iff.mpr fun pair member same =>
      others pair member (of_decide_eq_true same)
  rw [deliver_append, deliver, completed]
  refine ⟨{ isFragmented := 0
            stream := ((fragmentList count fragment).map MiscFrame.stream).flatten },
    ?_, rfl, rfl, ?_⟩
  · simp [List.filter_append, silent _ early, silent _ late, lastId]
  · intro frame member sameId
    exact absurd ((final frame sameId).mp member) List.not_mem_nil

end Run

/-! ## The fragments the sender builds -/

def sentFrames : Datagram → List MiscFrame
  | .frameSet packet => packet.frames
  | .acknowledge _ _ => []

/-- The frames that were sent, then those that are pending. -/
def outgoing (connection : Connection) (server : RaknetServer) : List MiscFrame :=
  (server.sent.flatMap fun entry => sentFrames entry.2) ++ connection.queue.frames

theorem ledger_outgoing {start server : RaknetServer} {address : MiscAddress} {first : UInt32}
    {connection : Connection} {sets : List PacketFrameSet}
    (ledger : Ledger start address first connection server sets) :
    outgoing connection server =
      (start.sent.flatMap fun entry => sentFrames entry.2) ++ queued sets connection := by
  rw [outgoing, ledger.sent, List.flatMap_append, List.flatMap_map, List.append_assoc]
  rfl

section Sender

variable {frame : MiscFrame} {connection next : Connection} {server nextServer : RaknetServer}

theorem addToRaknetQueue_outgoing
    (success : addToRaknetQueue frame connection server = some (next, nextServer)) :
    ∃ indexed counted, indexFrame frame connection = some (indexed, counted) ∧
      outgoing next nextServer = outgoing connection server ++ builtFrames indexed counted := by
  have opened := Ledger.open connection server
  obtain ⟨indexed, counted, after, indexing, ledger, appended, _⟩ :=
    addToRaknetQueue_adds success opened
  refine ⟨indexed, counted, indexing, ?_⟩
  rw [ledger_outgoing ledger, appended, ledger_outgoing opened, List.append_assoc]

theorem indexFrame_compoundId {indexed : MiscFrame} {counted : Connection}
    (success : indexFrame frame connection = some (indexed, counted)) :
    counted.compoundId = connection.compoundId ∧ indexed.stream = frame.stream := by
  obtain ⟨-, cell, -, rfl, rfl⟩ | ⟨-, -, cell, -, rfl, rfl⟩ | ⟨-, rfl, rfl⟩ :=
    indexFrame_cases success
  · exact ⟨rfl, rfl⟩
  · exact ⟨rfl, rfl⟩
  · exact ⟨rfl, rfl⟩

theorem fragmentAt_compoundId (frame : MiscFrame) (maxSize : Nat) (connection : Connection)
    (i : Nat) : (fragmentAt frame maxSize connection i).compoundId =
      connection.compoundId.toUInt16 := by
  simp only [fragmentAt, compoundEntry, advanceReliable]
  split <;> rfl

theorem fragmentRun_built (frame : MiscFrame) (maxSize : Nat) (connection : Connection)
    (fewer : frameCount frame.stream.length maxSize < 2 ^ 32) :
    FragmentRun connection.compoundId.toUInt16 (frameCount frame.stream.length maxSize)
      (fragmentAt frame maxSize connection) where
  fits := fewer
  id := fragmentAt_compoundId frame maxSize connection
  index _ := rfl
  size _ := rfl

theorem builtFrames_long (indexed : MiscFrame) (counted : Connection)
    (long : indexed.stream.length > (maxSize counted.mtuSize).toNat) :
    builtFrames indexed counted =
      fragmentList (frameCount indexed.stream.length (maxSize counted.mtuSize).toNat)
        (fragmentAt indexed (maxSize counted.mtuSize).toNat counted) := by
  simp only [builtFrames, if_pos long, fragmentList]

end Sender

/-- A payload split into fewer than `2 ^ 32` fragments is handed on once, whole,
for every delivery of its fragments. -/
theorem fragments_reassemble (frame : MiscFrame) (connection next : Connection)
    (server nextServer : RaknetServer) (fragments before after : List MiscFrame)
    (last : MiscFrame) (frameHolder : FrameHolder) (mtuFits : 61 ≤ connection.mtuSize.toNat)
    (long : connection.mtuSize.toNat - 60 < frame.stream.length)
    (fewer : frame.stream.length / (connection.mtuSize.toNat - 60) + 1 < 2 ^ 32)
    (added : addToRaknetQueue frame connection server = some (next, nextServer))
    (built : outgoing next nextServer = outgoing connection server ++ fragments)
    (unheld : ∀ held ∈ frameHolder.slots, held.compoundId ≠ connection.compoundId.toUInt16)
    (delivery : Delivery connection.compoundId.toUInt16 fragments before last after) :
    HandedOnce connection.compoundId.toUInt16 frame.stream
      (deliver (before ++ last :: after) frameHolder) := by
  obtain ⟨indexed, counted, indexing, appended⟩ := addToRaknetQueue_outgoing added
  obtain ⟨sameId, sameStream⟩ := indexFrame_compoundId indexing
  have sameMtu := (indexFrame_receiver indexing).1.mtuSize
  have size : (maxSize counted.mtuSize).toNat = connection.mtuSize.toNat - 60 := by
    rw [sameMtu, maxSize_toNat (Nat.le_of_succ_le mtuFits)]
  have longIndexed : indexed.stream.length > (maxSize counted.mtuSize).toNat := by
    rw [size, sameStream]
    exact long
  have exact : fragments = fragmentList
      (frameCount indexed.stream.length (maxSize counted.mtuSize).toNat)
      (fragmentAt indexed (maxSize counted.mtuSize).toNat counted) := by
    rw [← builtFrames_long indexed counted longIndexed]
    exact List.append_cancel_left (built.symm.trans appended)
  have runFragments := fragmentRun_built indexed (maxSize counted.mtuSize).toNat counted
    (by rw [size, sameStream]; exact fewer)
  rw [sameId] at runFragments
  rw [exact] at delivery
  have handed := runFragments.handedOnce unheld delivery
  have payload : ((fragmentList (frameCount indexed.stream.length
      (maxSize counted.mtuSize).toNat)
      (fragmentAt indexed (maxSize counted.mtuSize).toNat counted)).map
        MiscFrame.stream).flatten = frame.stream := by
    rw [fragmentList, List.map_map, ← sameStream]
    exact flatten_pieces indexed.stream _ (by rw [size]; omega)
  rwa [payload] at handed

/-- A fragment of a two-byte payload at the smallest fragment size. -/
def smallFragment (index : UInt32) (stream : List UInt8) : MiscFrame :=
  { isFragmented := 1, compoundSize := 3, index, stream }

theorem fragments_reassemble_small :
    HandedOnce 0 [7, 8] (deliver
      ([smallFragment 2 [], smallFragment 0 [7], smallFragment 2 []] ++ smallFragment 1 [8] :: [])
      KeyedArray.empty) := by
  have computed : (addToRaknetQueue { stream := [7, 8] } (newConnection ⟨4, [0x31], 19132⟩ 61)
      {}).map (fun state => outgoing state.1 state.2) =
        some [smallFragment 0 [7], smallFragment 1 [8], smallFragment 2 []] := by decide
  obtain ⟨⟨next, nextServer⟩, added, built⟩ := Option.map_eq_some_iff.mp computed
  exact fragments_reassemble { stream := [7, 8] } (newConnection ⟨4, [0x31], 19132⟩ 61) next {}
    nextServer [smallFragment 0 [7], smallFragment 1 [8], smallFragment 2 []] _ [] _
    KeyedArray.empty (by decide) (by decide) (by decide) added built (by decide)
    ⟨by decide, by decide, by decide, by decide, by decide⟩

/-! ## A count that wraps -/

theorem deliver_zero : ∀ (frames : List MiscFrame) (frameHolder : FrameHolder),
    (∀ frame ∈ frames, frame.compoundSize = 0) → (deliver frames frameHolder).2 = [] := by
  intro frames
  induction frames with
  | nil => intro frameHolder _; rfl
  | cons frame rest ih =>
      intro frameHolder zero
      have silent := handleFragmentedFrame_zero (zero frame (List.mem_cons_self ..)) frameHolder
      have later := ih (handleFragmentedFrame frame frameHolder).1
        fun other member => zero other (List.mem_cons_of_mem _ member)
      simp only [deliver, silent, later]
      rfl

/-- All fragments in order, each once. -/
theorem delivery_inOrder {compoundId : UInt16} {count : Nat} {fragment : Nat → MiscFrame}
    (fits : count + 1 ≤ 2 ^ 32) (index : ∀ i, (fragment i).index = UInt32.ofNat i) :
    Delivery compoundId (fragmentList (count + 1) fragment) (fragmentList count fragment)
      (fragment count) [] where
  own := by
    intro frame member _
    rw [fragmentList_succ]
    exact List.mem_append_left _ member
  each := by
    intro frame member
    rwa [← fragmentList_succ]
  lastMember := mem_fragmentList.mpr ⟨count, Nat.lt_succ_self count, rfl⟩
  lastNew := by
    intro member
    obtain ⟨i, small, same⟩ := mem_fragmentList.mp member
    have indices := congrArg MiscFrame.index same
    rw [index, index] at indices
    have equal := ofNat_inj_of_lt (by omega) (by omega) indices
    omega
  foreign := by
    intro frame member
    exact absurd member List.not_mem_nil

/-- With `2 ^ 32` fragments `compound_size` is zero, which no count of entries
equals. -/
theorem fragments_uncounted :
    ¬ ∀ (frame : MiscFrame) (connection next : Connection) (server nextServer : RaknetServer)
      (fragments before after : List MiscFrame) (last : MiscFrame) (frameHolder : FrameHolder),
      61 ≤ connection.mtuSize.toNat → connection.mtuSize.toNat ≤ 8251 →
      connection.mtuSize.toNat - 60 < frame.stream.length →
      addToRaknetQueue frame connection server = some (next, nextServer) →
      outgoing next nextServer = outgoing connection server ++ fragments →
      (∀ held ∈ frameHolder.slots, held.compoundId ≠ connection.compoundId.toUInt16) →
      Delivery connection.compoundId.toUInt16 fragments before last after →
      HandedOnce connection.compoundId.toUInt16 frame.stream
        (deliver (before ++ last :: after) frameHolder) := by
  intro reassemble
  obtain ⟨payload, size⟩ : ∃ payload : List UInt8, payload.length = 2 ^ 32 - 1 :=
    ⟨List.replicate (2 ^ 32 - 1) 0, List.length_replicate⟩
  let connection := newConnection ⟨4, [0x31], 19132⟩ 61
  obtain ⟨⟨next, nextServer⟩, added⟩ := @addToRaknetQueue_defined connection
    { stream := payload } {} (by decide) (show (0 : UInt8).toNat < 32 by decide)
  obtain ⟨indexed, counted, indexing, appended⟩ := addToRaknetQueue_outgoing added
  obtain ⟨sameId, sameStream⟩ := indexFrame_compoundId indexing
  have sameMtu : counted.mtuSize = 61 := (indexFrame_receiver indexing).1.mtuSize
  have maximum : (maxSize counted.mtuSize).toNat = 1 := by rw [sameMtu]; rfl
  have count : frameCount indexed.stream.length 1 = (2 ^ 32 - 1) + 1 := by
    rw [sameStream, frameCount, Nat.div_one, size]
  have long : indexed.stream.length > (maxSize counted.mtuSize).toNat := by
    rw [maximum, sameStream, size]
    decide
  rw [builtFrames_long indexed counted long, maximum, count] at appended
  let fragment := fragmentAt indexed 1 counted
  have delivery : Delivery connection.compoundId.toUInt16
      (fragmentList ((2 ^ 32 - 1) + 1) fragment) _ _ [] :=
    delivery_inOrder (by decide) fun _ => rfl
  obtain ⟨output, handed, _⟩ := reassemble { stream := payload } connection next {} nextServer
    (fragmentList ((2 ^ 32 - 1) + 1) fragment) _ [] _ KeyedArray.empty (by decide) (by decide)
    (by rw [size]; decide) added appended (by simp [KeyedArray.empty]) delivery
  have uncounted : ∀ frame ∈ fragmentList (2 ^ 32 - 1) fragment ++ [fragment (2 ^ 32 - 1)],
      frame.compoundSize = 0 := by
    intro frame member
    rw [← fragmentList_succ] at member
    obtain ⟨i, _, rfl⟩ := mem_fragmentList.mp member
    change UInt32.ofNat (frameCount indexed.stream.length 1) = 0
    rw [count]
    rfl
  rw [deliver_zero _ KeyedArray.empty uncounted] at handed
  exact absurd handed (by simp)

end PodrumRakNet.Reassembly
