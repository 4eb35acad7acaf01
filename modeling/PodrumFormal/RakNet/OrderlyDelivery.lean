import PodrumFormal.RakNet.LinkDelivery

/-!
# Delivery over a channel that loses and repeats nothing

While nothing is sent again, a channel that only reorders hands each message to
the workers once, and one that keeps the order hands them over in order.
-/

set_option autoImplicit false

namespace PodrumRakNet.OrderlyDelivery

open EventRun PodrumRakNet.Frame PodrumRakNet.FrameSet PodrumRakNet.Packet
open PodrumRakNet.Connections PodrumRakNet.SendQueue PodrumRakNet.SendLedger
open PodrumRakNet.Handler PodrumRakNet.Recovery PodrumRakNet.HandlerEffects
open PodrumRakNet.Reassembly PodrumRakNet.AckSafety PodrumRakNet.Assembly
open PodrumRakNet.SentMessages PodrumRakNet.LinkDelivery
open PodrumRakNet.NackQueue (stillEnvironment)

/-! ## Runs without a NACK -/

section Run

variable {environment : Environment} {senderAddress receiverAddress : MiscAddress}
  {mtuSize receiverMtu : UInt16} {sender receiver : RaknetServer} {events : List LinkEvent}
  {link next : Link}

/-- What the receiver has sent stays in the channel. -/
theorem linkStep_answers {event : LinkEvent}
    (stepped : linkStep environment link event = some next) :
    ∃ more, next.receiver.2.sent = link.receiver.2.sent ++ more := by
  have acts {sent : SenderEvent} (acted : senderActs sent link = some next) :
      ∃ more, next.receiver.2.sent = link.receiver.2.sent ++ more := by
    obtain ⟨moved, -, rfl⟩ := Option.map_eq_some_iff.mp acted
    exact ⟨[], (List.append_nil _).symm⟩
  have posts {kind : Datagram → Prop} {party : Connection × RaknetServer}
      (posts : Posts kind link.receiver party) :
      ∃ more, party.2.sent = link.receiver.2.sent ++ more := by
    obtain ⟨datagrams, -, logged⟩ := posts.sent
    exact ⟨_, logged⟩
  cases event with
  | add frame => exact acts stepped
  | flush => exact acts stepped
  | deliver i =>
      simp only [linkStep] at stepped
      split at stepped
      · obtain ⟨party, handled, rfl⟩ := Option.map_eq_some_iff.mp stepped
        exact posts (handleFrameSet_posts handled)
      · cases stepped
        exact ⟨[], (List.append_nil _).symm⟩
  | sendAckQueue =>
      cases stepped
      exact posts (sendRaknetAckQueue_posts _ _)
  | sendNackQueue =>
      cases stepped
      exact posts (sendRaknetNackQueue_posts _ _)
  | answer i =>
      simp only [linkStep] at stepped
      split at stepped
      · exact acts stepped
      · exact acts stepped
      · cases stepped
        exact ⟨[], (List.append_nil _).symm⟩

theorem run_once (mtuFits : 61 ≤ mtuSize.toNat) (short : mtuSize.toNat ≤ 8251)
    (sendable : ∀ message ∈ addedMessages events, Sendable mtuSize message)
    (connected : hasRaknetConnection senderAddress receiver = true)
    (reached : run (linkStep environment) events
      (newLink senderAddress receiverAddress mtuSize receiverMtu sender receiver) = some link)
    (quiet : NoNack link) :
    ∃ log sets, Delivering sender receiver senderAddress receiverAddress mtuSize
      (addedMessages events) log sets link ∧ EachOnce log sets link.sender.1 := by
  refine run_induction (fun history state =>
    (∀ message ∈ addedMessages history, Sendable mtuSize message) → NoNack state →
    ∃ log sets, Delivering sender receiver senderAddress receiverAddress mtuSize
      (addedMessages history) log sets state ∧ EachOnce log sets state.sender.1)
    (fun _ _ => ⟨[], [], delivering_new mtuSize receiverMtu connected, rfl⟩) ?_ reached
    sendable quiet
  intro history state event after _ before stepped allowed silent
  obtain ⟨answers, grown⟩ := linkStep_answers stepped
  rw [addedMessages, List.filterMap_append] at allowed
  obtain ⟨log, sets, holds, once⟩ := before
    (fun message member => allowed message (List.mem_append_left _ member))
    fun entry member => silent entry (grown ▸ List.mem_append_left _ member)
  obtain ⟨more, added, result, still⟩ := linkStep_delivering mtuFits short holds
    (fun message member => allowed message (List.mem_append_right _ member)) stepped
  refine ⟨log ++ more, sets ++ added, ?_, still silent once⟩
  rw [addedMessages, List.filterMap_append]
  exact result

end Run

/-! ## Frames that RakNet does not answer, by their payloads -/

theorem forWorkers_streams (frames : List MiscFrame) :
    (forWorkers frames).map MiscFrame.stream =
      (frames.map MiscFrame.stream).filter fun stream => ¬ ForRaknet { stream } := by
  rw [List.filter_map]
  rfl

/-! ## Any order -/

section Once

variable {log : List Sent} {arrived : List MiscFrame} {channel : Channel}

theorem fragmentFrames_sent (log : List Sent) :
    fragmentFrames (sentFrames log) = (splitMessages log).flatMap Compound.fragments := by
  induction log with
  | nil => rfl
  | cons sent rest ih =>
      have parts : fragmentFrames (sentFrames (sent :: rest)) =
          fragmentFrames sent.frames ++ fragmentFrames (sentFrames rest) :=
        List.filter_append ..
      rw [parts, ih]
      cases sent with
      | whole frame unsplit =>
          have none : fragmentFrames [frame] = [] := by simp [fragmentFrames, unsplit]
          rw [Sent.frames, none]
          rfl
      | split compound =>
          have all : fragmentFrames compound.fragments = compound.fragments :=
            List.filter_eq_self.mpr fun frame member =>
              decide_eq_true (Compound.fragment_fragmented member)
          rw [Sent.frames, all]
          rfl

/-- Fragments differ by their index or by their message's id. -/
theorem fragmentFrames_nodup (same : channel.compounds = splitMessages log) :
    (fragmentFrames (sentFrames log)).Nodup := by
  rw [fragmentFrames_sent, ← same, List.nodup_flatMap]
  refine ⟨fun compound _ => compound.numbered.nodup, ?_⟩
  refine (List.pairwise_map.mp channel.distinct).imp fun different frame first second => ?_
  exact different ((Compound.fragment_id first).symm.trans (Compound.fragment_id second))

/-- The payloads come out once each. -/
theorem payloads_perm (log : List Sent) :
    ((wholeFrames (sentFrames log) ++ (splitMessages log).map Compound.joined).map
      MiscFrame.stream).Perm (log.map Sent.payload) := by
  induction log with
  | nil => exact List.Perm.refl _
  | cons sent rest ih =>
      have parts : wholeFrames (sentFrames (sent :: rest)) =
          wholeFrames sent.frames ++ wholeFrames (sentFrames rest) :=
        List.filter_append ..
      rw [parts]
      cases sent with
      | whole frame unsplit =>
          have all : wholeFrames [frame] = [frame] := by simp [wholeFrames, unsplit]
          rw [Sent.frames, all]
          exact ih.cons _
      | split compound =>
          have none : wholeFrames compound.fragments = [] :=
            List.filter_eq_nil_iff.mpr fun frame member whole =>
              Compound.fragment_fragmented member (of_decide_eq_true whole)
          have split : splitMessages (.split compound :: rest) = compound :: splitMessages rest := rfl
          rw [Sent.frames, none, List.nil_append, split, List.map_cons]
          exact (List.perm_middle.map _).trans (ih.cons _)

theorem assembled_payloads (same : channel.compounds = splitMessages log)
    (all : arrived.Perm (sentFrames log)) :
    ((assemble arrived KeyedArray.empty).2.map MiscFrame.stream).Perm (log.map Sent.payload) := by
  have carried : ∀ frame ∈ arrived, channel.Carries frame := fun frame member =>
    sentFrames_carried same (all.mem_iff.mp member)
  have once : (fragmentFrames arrived).Nodup :=
    (all.filter _).nodup_iff.mpr (fragmentFrames_nodup same)
  have complete : channel.completed arrived = splitMessages log := by
    rw [← same]
    refine List.filter_eq_self.mpr fun compound member => decide_eq_true fun frame listed => ?_
    rw [same] at member
    exact all.mem_iff.mpr (List.mem_flatMap.mpr ⟨_, mem_splitMessages.mp member, listed⟩)
  have out := assembled_perm channel arrived carried once
  rw [complete] at out
  exact (out.map _).trans ((((all.filter _).append_right _).map _).trans (payloads_perm log))

end Once

/-- Whatever the order: when each frame set that was sent was handled once and
none asked for again, each added message has been handed to the workers once. -/
theorem each_message_is_handed_once (environment : Environment)
    (senderAddress receiverAddress : MiscAddress) (senderMtu receiverMtu : UInt16)
    (sender receiver : RaknetServer) (events : List LinkEvent) (link : Link)
    (mtuFits : 61 ≤ senderMtu.toNat) (short : senderMtu.toNat ≤ 8251)
    (connected : hasRaknetConnection senderAddress receiver = true)
    (sendable : ∀ message ∈ addedMessages events, Sendable senderMtu message)
    (fewer : ((addedMessages events).countP fun message => Long senderMtu message) ≤ 2 ^ 16)
    (reached : run (linkStep environment) events
      (newLink senderAddress receiverAddress senderMtu receiverMtu sender receiver) = some link)
    (quiet : NoNack link) (flushed : link.sender.1.queue.frames = [])
    (once : link.processed.Perm (sentSets link.sender.2)) :
    ∃ handed, postedFrames link.receiver.2 = postedFrames receiver ++ handed ∧
      (handed.map MiscFrame.stream).Perm
        ((forWorkers (addedMessages events)).map MiscFrame.stream) := by
  obtain ⟨log, sets, holds, each⟩ := run_once mtuFits short sendable connected reached quiet
  obtain ⟨channel, same⟩ := holds.channel fewer
  refine ⟨_, holds.posted, ?_⟩
  have all : (arrivedFrames link.processed).Perm (sentFrames log) := by
    rw [← each, queued, flushed, List.append_nil, List.map_flatMap, ← holds.sentSets]
    exact once.flatMap_right _
  rw [forWorkers_streams, forWorkers_streams, ← holds.sending.payloads]
  exact (assembled_payloads same all).filter _

def reversed : List LinkEvent := messagesAdded ++ [.deliver 2, .deliver 1, .deliver 0]

theorem each_message_is_handed_once_reversed :
    ∃ link handed, run (linkStep stillEnvironment) reversed smallLink = some link ∧
      postedFrames link.receiver.2 = handed ∧
      (handed.map MiscFrame.stream).Perm
        ((forWorkers (addedMessages reversed)).map MiscFrame.stream) := by
  obtain ⟨link, reached, silent, flushed, once⟩ : ∃ link,
      run (linkStep stillEnvironment) reversed smallLink = some link ∧
      link.receiver.2.sent = [] ∧ link.sender.1.queue.frames = [] ∧
      link.processed.Perm (sentSets link.sender.2) :=
    ⟨_, rfl, rfl, rfl, by decide⟩
  have quiet : NoNack link := fun entry member => by
    rw [silent] at member
    exact absurd member List.not_mem_nil
  obtain ⟨handed, posted, each⟩ := each_message_is_handed_once stillEnvironment _ _ 64 64 _ _
    reversed link (by decide) (by decide) (by decide) outOfOrder_sendable (by decide) reached
    quiet flushed once
  exact ⟨link, handed, reached, posted, each⟩

/-! ## The order they were sent in -/

theorem eq_empty_of_slots {frameHolder : FrameHolder} (none : frameHolder.slots = []) :
    frameHolder = KeyedArray.empty := by
  obtain ⟨slots, size, exact, distinct⟩ := frameHolder
  dsimp only at none
  subst none
  subst exact
  rfl

/-- Up to the last fragment nothing comes out and all are held. -/
theorem assemble_front (compound : Compound) {front : List MiscFrame} {last : MiscFrame}
    (fragments : compound.fragments = front ++ [last]) :
    (assemble front KeyedArray.empty).2 = [] ∧
      (∀ entry ∈ (assemble front KeyedArray.empty).1.slots, entry ∈ compound.fragments) ∧
      (handleFragmentedFrame last (assemble front KeyedArray.empty).1).2 = some compound.joined ∧
      ∀ entry ∈ (handleFragmentedFrame last (assemble front KeyedArray.empty).1).1.slots,
        entry.compoundId ≠ compound.compoundId := by
  have member (frame : MiscFrame) : frame ∈ compound.fragments ↔ frame ∈ front ∨ frame = last := by
    rw [fragments, List.mem_append, List.mem_singleton]
  have nodup : compound.fragments.Nodup := compound.numbered.nodup
  rw [fragments] at nodup
  have absent : last ∉ front := fun here =>
    (List.nodup_append.mp nodup).2.2 last here last (List.mem_singleton.mpr rfl) rfl
  have single : (([compound] : List Compound).map Compound.compoundId).Nodup :=
    List.nodup_singleton _
  have own : compound ∈ (⟨[compound], single⟩ : Channel).compounds := List.mem_singleton.mpr rfl
  have result := assembled ⟨[compound], single⟩ front fun frame early =>
    Or.inr ⟨compound, own, (member frame).mpr (Or.inl early)⟩
  have incomplete : ¬ compound.Complete front := fun complete =>
    absent (complete last ((member last).mpr (Or.inr rfl)))
  have complete : compound.Complete ((assemble front KeyedArray.empty).1.slots ++ [last]) := by
    intro frame listed
    rcases (member frame).mp listed with early | rfl
    · exact List.mem_append_left _ (result.held compound own incomplete frame listed early)
    · exact List.mem_append_right _ (List.mem_singleton.mpr rfl)
  refine ⟨List.eq_nil_iff_forall_not_mem.mpr fun frame out => ?_, fun entry held => ?_,
    result.toWaiting.completes own ((member last).mpr (Or.inr rfl)) complete⟩
  · rcases (result.out frame).mp out with ⟨whole, early⟩ | ⟨other, otherMember, full, -⟩
    · exact Compound.fragment_fragmented ((member frame).mpr (Or.inl early)) whole
    · exact incomplete (List.mem_singleton.mp otherMember ▸ full)
  · obtain ⟨-, other, otherMember, fragment⟩ := result.only entry held
    exact List.mem_singleton.mp otherMember ▸ fragment

theorem assemble_fragments (compound : Compound) :
    assemble compound.fragments KeyedArray.empty = (KeyedArray.empty, [compound.joined]) := by
  obtain ⟨count, counted⟩ := Nat.exists_eq_add_of_lt compound.positive
  obtain ⟨front, last, fragments⟩ : ∃ front last, compound.fragments = front ++ [last] := by
    rw [Compound.fragments, counted]
    exact ⟨_, _, fragmentList_succ⟩
  obtain ⟨quiet, own, joined, cleared⟩ := assemble_front compound fragments
  have final : last ∈ compound.fragments := by simp [fragments]
  have split : last.isFragmented ≠ 0 := Compound.fragment_fragmented final
  have emptied : (handleFragmentedFrame last (assemble front KeyedArray.empty).1).1 =
      KeyedArray.empty := by
    refine eq_empty_of_slots (List.eq_nil_iff_forall_not_mem.mpr fun entry held => ?_)
    have different := cleared entry held
    have lastId : last.compoundId = compound.compoundId := Compound.fragment_id final
    have before := (mem_of_handled _ (lastId.symm ▸ different)).mp held
    exact different (Compound.fragment_id (own entry before))
  rw [fragments, assemble_snoc, takeFrame, if_pos split, quiet, joined, emptied]
  rfl

/-- What comes out of the message. -/
def Sent.whole : Sent → MiscFrame
  | .whole frame _ => frame
  | .split compound => compound.joined

theorem whole_stream (sent : Sent) : (Sent.whole sent).stream = sent.payload := by
  cases sent <;> rfl

theorem assemble_sentFrames (log : List Sent) :
    assemble (sentFrames log) KeyedArray.empty = (KeyedArray.empty, log.map Sent.whole) := by
  induction log with
  | nil => rfl
  | cons sent rest ih =>
      have parts : sentFrames (sent :: rest) = sent.frames ++ sentFrames rest := rfl
      have first : assemble sent.frames KeyedArray.empty =
          (KeyedArray.empty, [Sent.whole sent]) := by
        cases sent with
        | whole frame unsplit =>
            rw [Sent.frames, assemble, takeFrame, if_neg (not_not.mpr unsplit)]
            rfl
        | split compound => exact assemble_fragments compound
      rw [parts, assemble_append, first, ih]
      rfl

section Ordered

variable {sender receiver : RaknetServer} {senderAddress receiverAddress : MiscAddress}
  {mtuSize : UInt16} {messages : List MiscFrame} {log : List Sent} {sets : List PacketFrameSet}
  {link : Link}

theorem assemble_payloads (log : List Sent) :
    ((assemble (sentFrames log) KeyedArray.empty).2.map MiscFrame.stream) =
      log.map Sent.payload := by
  rw [assemble_sentFrames, List.map_map]
  exact List.map_congr_left fun sent _ => whole_stream sent

theorem forWorkers_payloads
    (holds : Delivering sender receiver senderAddress receiverAddress mtuSize messages log sets
      link) :
    (forWorkers messages).map MiscFrame.stream =
      (log.map Sent.payload).filter fun stream => ¬ ForRaknet { stream } := by
  rw [forWorkers_streams, holds.sending.payloads]

/-- Frame sets that are handled in the order of their numbers. -/
theorem ordered_prefix
    (holds : Delivering sender receiver senderAddress receiverAddress mtuSize messages log sets
      link) (each : EachOnce log sets link.sender.1) (inOrder : link.processed <+: sets) :
    (forWorkers (assemble (arrivedFrames link.processed) KeyedArray.empty).2).map
        MiscFrame.stream <+: (forWorkers messages).map MiscFrame.stream := by
  obtain ⟨rest, same⟩ := inOrder
  have frames : sentFrames log = arrivedFrames link.processed ++
      (arrivedFrames rest ++ link.sender.1.queue.frames.map received) := by
    rw [← each, queued, ← same]
    simp only [arrivedFrames, List.flatMap_append, List.map_append, List.map_flatMap,
      List.append_assoc]
  rw [forWorkers_streams, forWorkers_payloads holds, ← assemble_payloads, frames, assemble_append,
    List.map_append]
  exact (List.prefix_append _ _).filter _

theorem ordered_all
    (holds : Delivering sender receiver senderAddress receiverAddress mtuSize messages log sets
      link) (each : EachOnce log sets link.sender.1) (all : link.processed = sets)
    (flushed : link.sender.1.queue.frames = []) :
    (forWorkers (assemble (arrivedFrames link.processed) KeyedArray.empty).2).map
        MiscFrame.stream = (forWorkers messages).map MiscFrame.stream := by
  have frames : arrivedFrames link.processed = sentFrames log := by
    rw [← each, queued, flushed, List.append_nil, List.map_flatMap, all]
    rfl
  rw [forWorkers_streams, forWorkers_payloads holds, frames, assemble_payloads]

end Ordered

def straight : List LinkEvent := messagesAdded ++ [.deliver 0, .deliver 1, .deliver 2]

/-- While the frame sets are handled in the order they were sent in, and none
is asked for again, the messages are handed over in order and none is left out. -/
theorem messages_are_handed_in_order (environment : Environment)
    (senderAddress receiverAddress : MiscAddress) (senderMtu receiverMtu : UInt16)
    (sender receiver : RaknetServer) (events : List LinkEvent) (link : Link)
    (mtuFits : 61 ≤ senderMtu.toNat) (short : senderMtu.toNat ≤ 8251)
    (connected : hasRaknetConnection senderAddress receiver = true)
    (sendable : ∀ message ∈ addedMessages events, Sendable senderMtu message)
    (reached : run (linkStep environment) events
      (newLink senderAddress receiverAddress senderMtu receiverMtu sender receiver) = some link)
    (quiet : NoNack link) (inOrder : link.processed <+: sentSets link.sender.2) :
    ∃ handed, postedFrames link.receiver.2 = postedFrames receiver ++ handed ∧
      handed.map MiscFrame.stream <+:
        (forWorkers (addedMessages events)).map MiscFrame.stream ∧
      (link.processed = sentSets link.sender.2 → link.sender.1.queue.frames = [] →
        handed.map MiscFrame.stream =
          (forWorkers (addedMessages events)).map MiscFrame.stream) := by
  obtain ⟨log, sets, holds, each⟩ := run_once mtuFits short sendable connected reached quiet
  rw [holds.sentSets] at inOrder ⊢
  exact ⟨_, holds.posted, ordered_prefix holds each inOrder, ordered_all holds each⟩

theorem messages_are_handed_in_order_three :
    ∃ link handed, run (linkStep stillEnvironment) straight smallLink = some link ∧
      postedFrames link.receiver.2 = handed ∧
      handed.map MiscFrame.stream <+: (forWorkers (addedMessages straight)).map MiscFrame.stream ∧
      (link.processed = sentSets link.sender.2 → link.sender.1.queue.frames = [] →
        handed.map MiscFrame.stream =
          (forWorkers (addedMessages straight)).map MiscFrame.stream) := by
  obtain ⟨link, reached, silent, inOrder⟩ : ∃ link,
      run (linkStep stillEnvironment) straight smallLink = some link ∧
      link.receiver.2.sent = [] ∧ link.processed = sentSets link.sender.2 :=
    ⟨_, rfl, rfl, rfl⟩
  have quiet : NoNack link := fun entry member => by
    rw [silent] at member
    exact absurd member List.not_mem_nil
  obtain ⟨handed, posted, each⟩ := messages_are_handed_in_order stillEnvironment _ _ 64 64 _ _
    straight link (by decide) (by decide) (by decide) outOfOrder_sendable reached quiet
    (inOrder ▸ List.prefix_rfl)
  exact ⟨link, handed, reached, posted, each⟩

end PodrumRakNet.OrderlyDelivery
