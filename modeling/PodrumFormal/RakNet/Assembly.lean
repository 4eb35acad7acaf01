import PodrumFormal.RakNet.HandlerEffects
import PodrumFormal.RakNet.Reassembly

/-!
# What a receiver makes of its frames

Whole frames pass through and fragments wait until their message is complete.
`assemble` is that alone, over the frames of all datagrams in the order of
arrival; `handle_frame_set` posts to the workers what it puts out, less what
RakNet answers itself.
-/

set_option autoImplicit false

namespace PodrumRakNet.Assembly

open PodrumRakNet.Frame PodrumRakNet.FrameSet PodrumRakNet.Packet PodrumRakNet.Connections
open PodrumRakNet.SendQueue PodrumRakNet.Handler PodrumRakNet.ReceiveWindow
open PodrumRakNet.Recovery PodrumRakNet.HandlerEffects PodrumRakNet.Reassembly

/-! ## The frames that are put out -/

/-- The holder afterwards and the whole frame `handle_frame` goes on with, if
there is one. -/
def takeFrame (frame : MiscFrame) (frameHolder : FrameHolder) : FrameHolder × Option MiscFrame :=
  if frame.isFragmented ≠ 0 then handleFragmentedFrame frame frameHolder
  else (frameHolder, some frame)

def assemble : List MiscFrame → FrameHolder → FrameHolder × List MiscFrame
  | [], frameHolder => (frameHolder, [])
  | frame :: rest, frameHolder =>
      let taken := takeFrame frame frameHolder
      let final := assemble rest taken.1
      (final.1, taken.2.toList ++ final.2)

theorem assemble_append (before after : List MiscFrame) (frameHolder : FrameHolder) :
    assemble (before ++ after) frameHolder =
      ((assemble after (assemble before frameHolder).1).1,
        (assemble before frameHolder).2 ++ (assemble after (assemble before frameHolder).1).2) := by
  induction before generalizing frameHolder with
  | nil => rfl
  | cons frame rest ih => simp only [List.cons_append, assemble, ih, List.append_assoc]

theorem assemble_snoc (before : List MiscFrame) (frame : MiscFrame) (frameHolder : FrameHolder) :
    assemble (before ++ [frame]) frameHolder =
      ((takeFrame frame (assemble before frameHolder).1).1,
        (assemble before frameHolder).2 ++
          (takeFrame frame (assemble before frameHolder).1).2.toList) := by
  simp only [assemble_append, assemble, List.append_nil]

/-! ## The handlers post them -/

instance (frame : MiscFrame) : Decidable (ForRaknet frame) :=
  inferInstanceAs (Decidable (∃ packetId ∈ ownPacketIds, frame.stream.head? = some packetId))

def forWorkers (frames : List MiscFrame) : List MiscFrame :=
  frames.filter fun frame => ¬ ForRaknet frame

def postedFrame : InternalMessage → Option MiscFrame
  | .frame frame _ => some frame
  | _ => none

/-- The frames that wait for the workers. -/
def postedFrames (server : RaknetServer) : List MiscFrame :=
  server.mainToThreaded.filterMap postedFrame

theorem forWorkers_append (first second : List MiscFrame) :
    forWorkers (first ++ second) = forWorkers first ++ forWorkers second :=
  List.filter_append ..

section Handlers

variable {environment : Environment} {connection next : Connection}
  {server nextServer : RaknetServer}

theorem postedFrames_post (message : InternalMessage) :
    postedFrames { server with mainToThreaded := server.mainToThreaded ++ [message] } =
      postedFrames server ++ (postedFrame message).toList := by
  simp only [postedFrames, List.filterMap_append]
  cases message <;> rfl

/-- A frame that RakNet answers itself is not posted, any other is. -/
theorem handleWholeFrame_posted {frame : MiscFrame}
    (connected : hasRaknetConnection connection.address server = true)
    (success : handleWholeFrame environment frame connection server = some (next, nextServer)) :
    postedFrames nextServer = postedFrames server ++ forWorkers [frame] := by
  obtain ⟨packetId, first, handled⟩ := Option.bind_eq_some_iff.mp success
  by_cases own : packetId ∈ ownPacketIds
  · have forRaknet : ForRaknet frame := ⟨packetId, own, first⟩
    have unposted : forWorkers [frame] = [] := by simp [forWorkers, forRaknet]
    rw [unposted, List.append_nil]
    obtain ⟨stream, added⟩ | ⟨rfl, rfl⟩ | ⟨rfl, rfl⟩ | ⟨other, same, foreign, -, -⟩ :=
      handleWholeFrame_cases success
    · obtain ⟨sets, sends⟩ := addToRaknetQueue_sending added
      have others : nextServer = _ := sends.server
      rw [others]
      rfl
    · rfl
    · rw [postedFrames_post]
      exact List.append_nil _
    · obtain rfl := Option.some.inj (first.symm.trans same)
      exact absurd own foreign
  · have notOwn : ¬ ForRaknet frame := by
      rintro ⟨other, member, same⟩
      obtain rfl := Option.some.inj (first.symm.trans same)
      exact own member
    have posted : forWorkers [frame] = [frame] := by simp [forWorkers, notOwn]
    simp only [ownPacketIds, List.mem_cons, List.not_mem_nil, or_false, not_or] at own
    rcases own with ⟨notRequest, notPing, notGoodbye, notArrival⟩
    rw [if_neg notRequest, if_neg notPing, if_neg notGoodbye, if_neg notArrival, sendRaknetFrame,
      if_pos connected] at handled
    cases handled
    rw [postedFrames_post, posted]
    rfl

theorem handleFrame_assemble {frame : MiscFrame}
    (connected : hasRaknetConnection connection.address server = true)
    (success : handleFrame environment frame connection server = some (next, nextServer)) :
    next.frameHolder = (takeFrame frame connection.frameHolder).1 ∧
      postedFrames nextServer = postedFrames server ++
        forWorkers (takeFrame frame connection.frameHolder).2.toList := by
  by_cases fragmented : frame.isFragmented ≠ 0
  · have holder := handleFrame_frameHolder fragmented success
    rw [takeFrame, if_pos fragmented]
    refine ⟨holder, ?_⟩
    simp only [handleFrame, if_pos fragmented] at success
    split at success
    · rename_i output completed
      rw [completed, Option.toList_some]
      have still : hasRaknetConnection
          ({ connection with frameHolder :=
            (handleFragmentedFrame frame connection.frameHolder).1 } : Connection).address
          server = true := connected
      exact handleWholeFrame_posted still success
    · rename_i incomplete
      cases success
      rw [incomplete, Option.toList_none]
      exact (List.append_nil _).symm
  · rw [handleFrame, if_neg fragmented] at success
    rw [takeFrame, if_neg fragmented]
    exact ⟨(handleWholeFrame_receiver success).frameHolder, handleWholeFrame_posted connected success⟩

theorem handleFrames_assemble (frames : List MiscFrame)
    (connected : hasRaknetConnection connection.address server = true)
    (success : handleFrames environment connection.address frames connection server =
      some (next, nextServer)) :
    next.frameHolder = (assemble frames connection.frameHolder).1 ∧
      postedFrames nextServer = postedFrames server ++
        forWorkers (assemble frames connection.frameHolder).2 := by
  induction frames generalizing connection server with
  | nil =>
      cases success
      exact ⟨rfl, (List.append_nil _).symm⟩
  | cons frame rest ih =>
      simp only [handleFrames, if_pos connected] at success
      obtain ⟨⟨middle, middleServer⟩, handled, success⟩ := Option.bind_eq_some_iff.mp success
      have posts := handleFrame_posts handled
      have address : connection.address = middle.address := posts.address.symm
      have still : hasRaknetConnection middle.address middleServer = true :=
        posts.connected.trans connected
      obtain ⟨holder, posted⟩ := handleFrame_assemble connected handled
      rw [address] at success
      obtain ⟨final, later⟩ := ih still success
      rw [holder] at final later
      simp only [assemble]
      exact ⟨final, by rw [later, posted, forWorkers_append, List.append_assoc]⟩

theorem receiveSequenceNumber_frameHolder {sequenceNumber : UInt32}
    (success : receiveSequenceNumber sequenceNumber connection = some next) :
    next.frameHolder = connection.frameHolder := by
  obtain ⟨ackQueue, _, success⟩ := Option.bind_eq_some_iff.mp success
  obtain ⟨nackQueue, _, success⟩ := Option.bind_eq_some_iff.mp success
  cases success
  rfl

theorem handleFrameSet_assemble {stream rest : List UInt8} {decoded : PacketFrameSet}
    (read : getPacketFrameSet stream = some (decoded, rest))
    (connected : hasRaknetConnection connection.address server = true)
    (success : handleFrameSet environment stream connection server = some (next, nextServer)) :
    next.frameHolder = (assemble decoded.frames connection.frameHolder).1 ∧
      postedFrames nextServer = postedFrames server ++
        forWorkers (assemble decoded.frames connection.frameHolder).2 := by
  simp only [handleFrameSet, read, Option.bind_eq_bind, Option.bind_some] at success
  obtain ⟨received, windowed, success⟩ := Option.bind_eq_some_iff.mp success
  have address := (receiveSequenceNumber_address windowed).1
  rw [← receiveSequenceNumber_frameHolder windowed]
  rw [← address] at success connected
  exact handleFrames_assemble decoded.frames connected success

end Handlers

/-! ## What is put out of the frames of one sender -/

/-- A message that was split. -/
structure Compound where
  compoundId : UInt16
  count : Nat
  fragment : Nat → MiscFrame
  numbered : FragmentRun compoundId count fragment
  positive : 0 < count
  fragmented : ∀ i, (fragment i).isFragmented ≠ 0

def Compound.fragments (compound : Compound) : List MiscFrame :=
  fragmentList compound.count compound.fragment

def Compound.payload (compound : Compound) : List UInt8 :=
  (compound.fragments.map MiscFrame.stream).flatten

/-- The frame `handle_fragmented_frame` makes of it. -/
def Compound.joined (compound : Compound) : MiscFrame :=
  { isFragmented := 0, stream := compound.payload }

/-- Every fragment has arrived. -/
def Compound.Complete (compound : Compound) (arrived : List MiscFrame) : Prop :=
  ∀ frame ∈ compound.fragments, frame ∈ arrived

instance (compound : Compound) (arrived : List MiscFrame) :
    Decidable (compound.Complete arrived) :=
  inferInstanceAs (Decidable (∀ frame ∈ compound.fragments, frame ∈ arrived))

theorem Compound.complete_mono {compound : Compound} {early late : List MiscFrame}
    (complete : compound.Complete early) (more : ∀ frame ∈ early, frame ∈ late) :
    compound.Complete late := fun frame member => more frame (complete frame member)

theorem Compound.fragment_id {compound : Compound} {frame : MiscFrame}
    (member : frame ∈ compound.fragments) : frame.compoundId = compound.compoundId := by
  obtain ⟨i, -, rfl⟩ := mem_fragmentList.mp member
  exact compound.numbered.id i

theorem Compound.fragment_fragmented {compound : Compound} {frame : MiscFrame}
    (member : frame ∈ compound.fragments) : frame.isFragmented ≠ 0 := by
  obtain ⟨i, -, rfl⟩ := mem_fragmentList.mp member
  exact compound.fragmented i

/-- What one sender's frames are, no id being used twice. -/
structure Channel where
  compounds : List Compound
  distinct : (compounds.map Compound.compoundId).Nodup

/-- A whole frame, or a fragment of one of the messages. -/
def Channel.Carries (channel : Channel) (frame : MiscFrame) : Prop :=
  frame.isFragmented = 0 ∨ ∃ compound ∈ channel.compounds, frame ∈ compound.fragments

theorem Channel.unique (channel : Channel) {first second : Compound}
    (firstMember : first ∈ channel.compounds) (secondMember : second ∈ channel.compounds)
    (same : first.compoundId = second.compoundId) : first = second :=
  List.inj_on_of_nodup_map channel.distinct firstMember secondMember same

/-- The holder has what arrived of the messages that are not complete, and
nothing else. -/
structure Waiting (channel : Channel) (arrived : List MiscFrame) (frameHolder : FrameHolder) :
    Prop where
  only : ∀ frame ∈ frameHolder.slots,
    frame ∈ arrived ∧ ∃ compound ∈ channel.compounds, frame ∈ compound.fragments
  held : ∀ compound ∈ channel.compounds, ¬ compound.Complete arrived →
    ∀ frame ∈ compound.fragments, frame ∈ arrived → frame ∈ frameHolder.slots

theorem Waiting.empty (channel : Channel) : Waiting channel [] KeyedArray.empty where
  only _ member := absurd member List.not_mem_nil
  held _ _ _ _ _ member := absurd member List.not_mem_nil

section Take

variable {channel : Channel} {arrived : List MiscFrame} {frameHolder : FrameHolder}
  {compound : Compound} {frame : MiscFrame}

/-- The entries of a message's id are fragments of the message. -/
theorem Waiting.holds (waiting : Waiting channel arrived frameHolder)
    (member : compound ∈ channel.compounds) :
    Holds compound.compoundId frameHolder
      (Reassembly.arrived compound.count compound.fragment frameHolder.slots) := by
  intro entry sameId
  rw [mem_arrived]
  refine ⟨fun held => ⟨?_, held⟩, fun both => both.2⟩
  obtain ⟨-, other, otherMember, fragment⟩ := waiting.only entry held
  have same := (Compound.fragment_id fragment).symm.trans sameId
  rwa [channel.unique otherMember member same] at fragment

theorem mem_of_handled (frameHolder : FrameHolder) {entry : MiscFrame}
    (other : entry.compoundId ≠ frame.compoundId) :
    entry ∈ (handleFragmentedFrame frame frameHolder).1.slots ↔ entry ∈ frameHolder.slots :=
  @handleFragmentedFrame_other _ _ other.symm frameHolder frameHolder.slots (fun _ _ => Iff.rfl)
    entry rfl

/-- A fragment of a message completes that message only. -/
theorem complete_other (member : compound ∈ channel.compounds)
    (fragment : frame ∈ compound.fragments) {other : Compound}
    (otherMember : other ∈ channel.compounds) (different : other ≠ compound) :
    other.Complete (arrived ++ [frame]) ↔ other.Complete arrived := by
  refine ⟨fun complete entry listed => ?_, fun complete =>
    Compound.complete_mono complete fun _ early => List.mem_append_left _ early⟩
  rcases List.mem_append.mp (complete entry listed) with early | now
  · exact early
  · obtain rfl := List.mem_singleton.mp now
    have same := (Compound.fragment_id listed).symm.trans (Compound.fragment_id fragment)
    exact absurd (channel.unique otherMember member same) different

/-- While one is missing, the fragment joins the others. -/
theorem Waiting.incomplete (waiting : Waiting channel arrived frameHolder)
    (member : compound ∈ channel.compounds) (fragment : frame ∈ compound.fragments)
    (missing : ¬ compound.Complete (frameHolder.slots ++ [frame])) :
    handleFragmentedFrame frame frameHolder = (frameHolder.append frame, none) ∧
      (compound.Complete (arrived ++ [frame]) → compound.Complete arrived) ∧
      ∀ entry ∈ compound.fragments,
        entry ∈ frameHolder.slots ++ [frame] → entry ∈ (frameHolder.append frame).slots := by
  have holds := waiting.holds member
  simp only [Compound.Complete, not_forall] at missing
  obtain ⟨absent, absentMember, absentHere⟩ := missing
  refine ⟨compound.numbered.handle_incomplete holds fragment absentMember absentHere, ?_, ?_⟩
  · intro complete
    by_contra before
    rcases List.mem_append.mp (complete absent absentMember) with early | now
    · exact absentHere (List.mem_append_left _
        (waiting.held compound member before absent absentMember early))
    · exact absentHere (List.mem_append_right _ now)
  · intro entry listed here
    have sameId := Compound.fragment_id listed
    exact (compound.numbered.append_arrived holds fragment entry sameId).mpr
      (mem_arrived.mpr ⟨listed, here⟩)

/-- The last one takes all of them out. -/
theorem Waiting.completes (waiting : Waiting channel arrived frameHolder)
    (member : compound ∈ channel.compounds) (fragment : frame ∈ compound.fragments)
    (complete : compound.Complete (frameHolder.slots ++ [frame])) :
    (handleFragmentedFrame frame frameHolder).2 = some compound.joined ∧
      ∀ entry ∈ (handleFragmentedFrame frame frameHolder).1.slots,
        entry.compoundId ≠ compound.compoundId := by
  obtain ⟨joined, cleared⟩ :=
    compound.numbered.handle_last (waiting.holds member) fragment complete
  exact ⟨joined, fun entry held sameId =>
    absurd ((cleared entry sameId).mp held) List.not_mem_nil⟩

end Take

/-- What came out, and what waits. -/
structure Assembled (channel : Channel) (arrived : List MiscFrame)
    (result : FrameHolder × List MiscFrame) : Prop extends Waiting channel arrived result.1 where
  out : ∀ frame, frame ∈ result.2 ↔ frame.isFragmented = 0 ∧ frame ∈ arrived ∨
    ∃ compound ∈ channel.compounds, compound.Complete arrived ∧ frame = compound.joined

section Assembled

variable {channel : Channel} {arrived : List MiscFrame} {result : FrameHolder × List MiscFrame}
  {frame : MiscFrame}

theorem Assembled.whole (assembled : Assembled channel arrived result)
    (whole : frame.isFragmented = 0) :
    Assembled channel (arrived ++ [frame]) (result.1, result.2 ++ [frame]) := by
  have complete_iff (compound : Compound) :
      compound.Complete (arrived ++ [frame]) ↔ compound.Complete arrived := by
    refine ⟨fun complete entry listed => ?_, fun complete =>
      Compound.complete_mono complete fun _ early => List.mem_append_left _ early⟩
    rcases List.mem_append.mp (complete entry listed) with early | now
    · exact early
    · obtain rfl := List.mem_singleton.mp now
      exact absurd whole (Compound.fragment_fragmented listed)
  refine ⟨⟨fun entry held => ?_, fun compound member before entry listed here => ?_⟩,
    fun output => ?_⟩
  · exact ⟨List.mem_append_left _ (assembled.only entry held).1, (assembled.only entry held).2⟩
  · rw [complete_iff] at before
    rcases List.mem_append.mp here with early | now
    · exact assembled.held compound member before entry listed early
    · obtain rfl := List.mem_singleton.mp now
      exact absurd whole (Compound.fragment_fragmented listed)
  · simp only [List.mem_append, List.mem_singleton, assembled.out, complete_iff]
    constructor
    · rintro ((⟨unsplit, early⟩ | joined) | rfl)
      · exact Or.inl ⟨unsplit, Or.inl early⟩
      · exact Or.inr joined
      · exact Or.inl ⟨whole, Or.inr rfl⟩
    · rintro (⟨unsplit, early | rfl⟩ | joined)
      · exact Or.inl (Or.inl ⟨unsplit, early⟩)
      · exact Or.inr rfl
      · exact Or.inl (Or.inr joined)

/-- What is put out, when it is known which messages the frame completes. -/
theorem Assembled.out_fragment (assembled : Assembled channel arrived result)
    {compound : Compound} (member : compound ∈ channel.compounds)
    (fragment : frame ∈ compound.fragments) (output : MiscFrame) :
    (output.isFragmented = 0 ∧ output ∈ arrived ++ [frame] ∨
      ∃ other ∈ channel.compounds, other.Complete (arrived ++ [frame]) ∧ output = other.joined) ↔
      output ∈ result.2 ∨ compound.Complete (arrived ++ [frame]) ∧ output = compound.joined := by
  have split := Compound.fragment_fragmented fragment
  rw [assembled.out]
  constructor
  · rintro (⟨unsplit, here⟩ | ⟨other, otherMember, complete, joined⟩)
    · rcases List.mem_append.mp here with early | now
      · exact Or.inl (Or.inl ⟨unsplit, early⟩)
      · obtain rfl := List.mem_singleton.mp now
        exact absurd unsplit split
    · by_cases same : other = compound
      · subst same
        exact Or.inr ⟨complete, joined⟩
      · rw [complete_other member fragment otherMember same] at complete
        exact Or.inl (Or.inr ⟨other, otherMember, complete, joined⟩)
  · rintro ((⟨unsplit, early⟩ | ⟨other, otherMember, complete, joined⟩) | ⟨complete, joined⟩)
    · exact Or.inl ⟨unsplit, List.mem_append_left _ early⟩
    · exact Or.inr ⟨other, otherMember,
        Compound.complete_mono complete fun _ early => List.mem_append_left _ early, joined⟩
    · exact Or.inr ⟨compound, member, complete, joined⟩

theorem Assembled.fragment (assembled : Assembled channel arrived result)
    {compound : Compound} (member : compound ∈ channel.compounds)
    (fragment : frame ∈ compound.fragments) :
    Assembled channel (arrived ++ [frame]) ((handleFragmentedFrame frame result.1).1,
      result.2 ++ (handleFragmentedFrame frame result.1).2.toList) := by
  have frameId := Compound.fragment_id fragment
  -- Entries of other messages stay as they are.
  have others (entry : MiscFrame) (other : entry.compoundId ≠ compound.compoundId) :
      entry ∈ (handleFragmentedFrame frame result.1).1.slots ↔ entry ∈ result.1.slots :=
    mem_of_handled result.1 (frameId.symm ▸ other)
  have heldOther (other : Compound) (otherMember : other ∈ channel.compounds)
      (different : other ≠ compound) (before : ¬ other.Complete (arrived ++ [frame]))
      (entry : MiscFrame) (listed : entry ∈ other.fragments) (here : entry ∈ arrived ++ [frame]) :
      entry ∈ (handleFragmentedFrame frame result.1).1.slots := by
    have entryId := Compound.fragment_id listed
    have foreign : entry.compoundId ≠ compound.compoundId := fun same =>
      different (channel.unique otherMember member (entryId.symm.trans same))
    rw [complete_other member fragment otherMember different] at before
    rw [others entry foreign]
    rcases List.mem_append.mp here with early | now
    · exact assembled.held other otherMember before entry listed early
    · obtain rfl := List.mem_singleton.mp now
      exact absurd frameId foreign
  by_cases complete : compound.Complete (result.1.slots ++ [frame])
  · obtain ⟨joined, cleared⟩ := assembled.toWaiting.completes member fragment complete
    have all : compound.Complete (arrived ++ [frame]) := fun entry listed => by
      rcases List.mem_append.mp (complete entry listed) with held | now
      · exact List.mem_append_left _ (assembled.only entry held).1
      · exact List.mem_append_right _ now
    refine ⟨⟨fun entry held => ?_, fun other otherMember before => ?_⟩, fun output => ?_⟩
    · obtain ⟨early, known⟩ := assembled.only entry ((others entry (cleared entry held)).mp held)
      exact ⟨List.mem_append_left _ early, known⟩
    · have different : other ≠ compound := by
        rintro rfl
        exact before all
      exact heldOther other otherMember different before
    · rw [assembled.out_fragment member fragment, joined, Option.toList_some, List.mem_append,
        List.mem_singleton, and_iff_right all]
  · obtain ⟨handled, before, held⟩ := assembled.toWaiting.incomplete member fragment complete
    refine ⟨⟨fun entry present => ?_, fun other otherMember missing entry listed here => ?_⟩,
      fun output => ?_⟩
    · rw [handled] at present
      rcases mem_append_holder _ _ _ present with old | rfl
      · exact ⟨List.mem_append_left _ (assembled.only entry old).1, (assembled.only entry old).2⟩
      · exact ⟨List.mem_append_right _ (List.mem_singleton.mpr rfl), compound, member, fragment⟩
    · by_cases same : other = compound
      · subst same
        rw [handled]
        apply held entry listed
        rcases List.mem_append.mp here with early | now
        · have open' : ¬ other.Complete arrived := fun full => missing
            (Compound.complete_mono full fun _ => List.mem_append_left _)
          exact List.mem_append_left _ (assembled.held other otherMember open' entry listed early)
        · exact List.mem_append_right _ now
      · exact heldOther other otherMember same missing entry listed here
    · rw [assembled.out_fragment member fragment, handled, Option.toList_none, List.append_nil]
      constructor
      · exact Or.inl
      · rintro (put | ⟨full, rfl⟩)
        · exact put
        · exact (assembled.out _).mpr (Or.inr ⟨compound, member, before full, rfl⟩)

/-- Induction on the frames in the order of arrival. -/
theorem assembled (channel : Channel) (frames : List MiscFrame)
    (carried : ∀ frame ∈ frames, channel.Carries frame) :
    Assembled channel frames (assemble frames KeyedArray.empty) := by
  induction frames using List.reverseRecOn with
  | nil =>
      refine ⟨Waiting.empty channel, fun frame => ⟨fun put => absurd put List.not_mem_nil, ?_⟩⟩
      rintro (⟨-, here⟩ | ⟨compound, -, complete, -⟩)
      · exact absurd here List.not_mem_nil
      · exact absurd (complete (compound.fragment 0)
          (mem_fragmentList.mpr ⟨0, compound.positive, rfl⟩)) List.not_mem_nil
  | append_singleton frames frame ih =>
      have before := ih fun other early => carried other (List.mem_append_left _ early)
      rw [assemble_snoc, takeFrame]
      rcases carried frame (by simp) with whole | ⟨compound, member, fragment⟩
      · rw [if_neg (not_not.mpr whole)]
        exact before.whole whole
      · rw [if_pos (Compound.fragment_fragmented fragment)]
        exact before.fragment member fragment

/-! ## Each fragment once -/

/-- A test that one more item passes. -/
theorem filter_gain {α : Type} {before after : α → Bool} {items : List α} {item : α}
    (distinct : items.Nodup) (member : item ∈ items) (gained : before item = false)
    (passes : after item = true) (same : ∀ other ∈ items, other ≠ item → after other = before other) :
    (items.filter after).Perm (items.filter before ++ [item]) := by
  obtain ⟨front, back, rfl⟩ := List.append_of_mem member
  have middle := List.nodup_middle.mp distinct
  rw [List.nodup_cons, List.mem_append, not_or] at middle
  have frontSame : front.filter after = front.filter before :=
    List.filter_congr fun other listed => same other (List.mem_append_left _ listed) fun equal =>
      middle.1.1 (equal ▸ listed)
  have backSame : back.filter after = back.filter before :=
    List.filter_congr fun other listed => same other
      (List.mem_append_right _ (List.mem_cons_of_mem _ listed)) fun equal =>
        middle.1.2 (equal ▸ listed)
  simp only [List.filter_append, List.filter_cons, passes, gained, if_true, frontSame, backSame,
    Bool.false_eq_true, if_false, List.append_assoc]
  exact List.Perm.append_left _ (List.perm_append_singleton item _).symm

def wholeFrames (frames : List MiscFrame) : List MiscFrame :=
  frames.filter fun frame => frame.isFragmented = 0

def fragmentFrames (frames : List MiscFrame) : List MiscFrame :=
  frames.filter fun frame => frame.isFragmented ≠ 0

/-- The messages that are complete. -/
def Channel.completed (channel : Channel) (arrived : List MiscFrame) : List Compound :=
  channel.compounds.filter fun compound => compound.Complete arrived

theorem Channel.completed_whole (channel : Channel) (whole : frame.isFragmented = 0) :
    channel.completed (arrived ++ [frame]) = channel.completed arrived := by
  refine List.filter_congr fun compound _ => decide_eq_decide.mpr ⟨fun complete entry listed => ?_,
    fun complete => Compound.complete_mono complete fun _ => List.mem_append_left _⟩
  rcases List.mem_append.mp (complete entry listed) with early | now
  · exact early
  · obtain rfl := List.mem_singleton.mp now
    exact absurd whole (Compound.fragment_fragmented listed)

/-- No frame is put out twice when no fragment arrives twice. -/
theorem assembled_perm (channel : Channel) (frames : List MiscFrame)
    (carried : ∀ frame ∈ frames, channel.Carries frame) (once : (fragmentFrames frames).Nodup) :
    (assemble frames KeyedArray.empty).2.Perm
      (wholeFrames frames ++ (channel.completed frames).map Compound.joined) := by
  induction frames using List.reverseRecOn with
  | nil =>
      have none : channel.completed [] = [] := by
        refine List.filter_eq_nil_iff.mpr fun compound _ complete => ?_
        exact absurd (of_decide_eq_true complete (compound.fragment 0)
          (mem_fragmentList.mpr ⟨0, compound.positive, rfl⟩)) List.not_mem_nil
      rw [none]
      exact List.Perm.refl _
  | append_singleton frames frame ih =>
      have early : ∀ other ∈ frames, channel.Carries other :=
        fun other member => carried other (List.mem_append_left _ member)
      rw [fragmentFrames, List.filter_append] at once
      have before := ih early once.of_append_left
      have state := (assembled channel frames early).toWaiting
      rw [assemble_snoc, takeFrame, wholeFrames, List.filter_append]
      rcases carried frame (by simp) with whole | ⟨compound, member, fragment⟩
      · rw [if_neg (not_not.mpr whole), channel.completed_whole whole]
        simp only [whole, decide_true, List.filter_cons_of_pos, List.filter_nil, Option.toList_some]
        refine (before.append_right _).trans ?_
        rw [List.append_assoc, List.append_assoc]
        exact List.Perm.append_left _ List.perm_append_comm
      · have split := Compound.fragment_fragmented fragment
        have new : frame ∉ frames := by
          intro old
          have listed : frame ∈ fragmentFrames frames :=
            List.mem_filter.mpr ⟨old, decide_eq_true split⟩
          exact (List.nodup_append.mp once).2.2 frame listed frame (by simp [split]) rfl
        have open' : ¬ compound.Complete frames := fun complete => new (complete frame fragment)
        rw [if_pos split]
        simp only [split, decide_false, List.filter_cons_of_neg, Bool.false_eq_true,
          not_false_eq_true, List.filter_nil, List.append_nil]
        by_cases complete : compound.Complete
            ((assemble frames KeyedArray.empty).1.slots ++ [frame])
        · have all : compound.Complete (frames ++ [frame]) := fun entry listed => by
            rcases List.mem_append.mp (complete entry listed) with held | now
            · exact List.mem_append_left _ (state.only entry held).1
            · exact List.mem_append_right _ now
          have gained : (channel.completed (frames ++ [frame])).Perm
              (channel.completed frames ++ [compound]) :=
            filter_gain channel.distinct.of_map member (decide_eq_false open')
              (decide_eq_true all) fun other otherMember different =>
                decide_eq_decide.mpr (complete_other member fragment otherMember different)
          rw [(state.completes member fragment complete).1, Option.toList_some]
          refine (before.append_right _).trans ?_
          rw [List.append_assoc]
          refine List.Perm.append_left _ (.trans ?_ (gained.map Compound.joined).symm)
          rw [List.map_append]
          exact List.Perm.refl _
        · obtain ⟨handled, closed, -⟩ := state.incomplete member fragment complete
          have unchanged : channel.completed (frames ++ [frame]) = channel.completed frames := by
            refine List.filter_congr fun other otherMember => decide_eq_decide.mpr ?_
            by_cases same : other = compound
            · subst same
              exact ⟨closed, fun full => absurd full open'⟩
            · exact complete_other member fragment otherMember same
          rw [handled, Option.toList_none, List.append_nil, unchanged]
          exact before

end Assembled

end PodrumRakNet.Assembly
