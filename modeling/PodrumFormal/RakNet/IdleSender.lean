import Mathlib.Logic.Relation
import PodrumFormal.RakNet.LinkDelivery

/-!
# A sender with nothing left to send

A frame set stays in the recovery queue until it is acknowledged or sent again
under a new number, the one numbered 0 apart.  So a sender whose two queues are
empty knows that its messages have been handed to the workers.
-/

set_option autoImplicit false

namespace PodrumRakNet.IdleSender

open EventRun PodrumRakNet.Frame PodrumRakNet.FrameSet PodrumRakNet.Acknowledge
open PodrumRakNet.Packet PodrumRakNet.Connections PodrumRakNet.SendQueue PodrumRakNet.SendLedger
open PodrumRakNet.Handler PodrumRakNet.NackRecovery PodrumRakNet.Recovery
open PodrumRakNet.HandlerEffects PodrumRakNet.AckSafety PodrumRakNet.Assembly
open PodrumRakNet.SentMessages PodrumRakNet.LinkDelivery
open PodrumRakNet.NackQueue (stillEnvironment)

/-! ## Adding a message counts, pushes and flushes -/

inductive FlushStep : Connection × RaknetServer → Connection × RaknetServer → Prop where
  | counted (before after : Connection) (server : RaknetServer)
      (sameRecovery : after.recoveryQueue = before.recoveryQueue) :
      FlushStep (before, server) (after, server)
  | flushed (connection : Connection) (server : RaknetServer) :
      FlushStep (connection, server) (sendRaknetQueue connection server)

def Flushes : Connection × RaknetServer → Connection × RaknetServer → Prop :=
  Relation.ReflTransGen FlushStep

theorem appendRaknetFrame_flushes (frame : MiscFrame) (opts : Bool) (connection : Connection)
    (server : RaknetServer) :
    Flushes (connection, server) (appendRaknetFrame frame opts connection server) := by
  have flushed : Flushes (connection, server) (flushIfFull frame connection server) := by
    unfold flushIfFull
    split
    · exact .single (.flushed connection server)
    · exact .refl
  have pushed := flushed.tail (.counted _ (pushFrame frame (flushIfFull frame connection server).1)
    (flushIfFull frame connection server).2 rfl)
  simp only [appendRaknetFrame]
  split
  · exact pushed.tail (.flushed _ _)
  · exact pushed

theorem countReliable_flushes (reliability : UInt8) (connection : Connection)
    (server : RaknetServer) :
    Flushes (connection, server) (countReliable reliability connection, server) := by
  apply Relation.ReflTransGen.single
  apply FlushStep.counted
  unfold countReliable
  split <;> rfl

theorem addFragments_flushes (frame : MiscFrame) (maxSize : Nat) (connection : Connection)
    (server : RaknetServer) :
    Flushes (connection, server) (addFragments frame maxSize connection server) := by
  have loop : ∀ (turns : List Nat) (state : Connection × RaknetServer),
      Flushes state (turns.foldl (addFragment frame maxSize) state) := by
    intro turns
    induction turns with
    | nil => exact fun state => .refl
    | cons i rest ih =>
        intro state
        exact ((countReliable_flushes frame.reliability state.1 state.2).trans
          (appendRaknetFrame_flushes _ true _ _)).trans (ih _)
  exact (loop _ (connection, server)).tail (.counted _ _ _ rfl)

theorem addToRaknetQueue_flushes {frame : MiscFrame} {connection : Connection}
    {server : RaknetServer} {next : Connection × RaknetServer}
    (success : addToRaknetQueue frame connection server = some next) :
    Flushes (connection, server) next := by
  simp only [addToRaknetQueue] at success
  obtain ⟨⟨indexed, counted⟩, indexing, success⟩ := Option.bind_eq_some_iff.mp success
  have numbered : Flushes (connection, server) (counted, server) := by
    apply Relation.ReflTransGen.single
    apply FlushStep.counted
    obtain ⟨-, cell, -, rfl, rfl⟩ | ⟨-, -, cell, -, rfl, rfl⟩ | ⟨-, rfl, rfl⟩ :=
      indexFrame_cases indexing <;> rfl
  dsimp only at success
  split at success
  · split at success
    · cases success
    · obtain rfl := Option.some.inj success
      exact numbered.trans (addFragments_flushes _ _ _ _)
  · obtain rfl := Option.some.inj success
    exact (numbered.trans (countReliable_flushes _ _ _)).trans (appendRaknetFrame_flushes _ _ _ _)

/-! ## Every frame is kept until it is settled -/

def keptNumbers (connection : Connection) : List UInt32 :=
  connection.recoveryQueue.slots.map PacketFrameSet.sequenceNumber

/-- Each frame that was sent is in some frame set whose number is in the
recovery queue or settled. -/
def Accounted (settled : UInt32 → Prop) (state : Connection × RaknetServer) : Prop :=
  ∀ set ∈ sentSets state.2, ∀ frame ∈ set.frames, ∃ other ∈ sentSets state.2,
    frame ∈ other.frames ∧
      (other.sequenceNumber ∈ keptNumbers state.1 ∨ settled other.sequenceNumber)

/-- The sender's frame sets have different numbers, and it keeps only those. -/
structure Numbered (state : Connection × RaknetServer) : Prop where
  recovered : ∀ set ∈ state.1.recoveryQueue.slots, set ∈ sentSets state.2
  unique : ∀ set ∈ sentSets state.2, ∀ other ∈ sentSets state.2,
    set.sequenceNumber = other.sequenceNumber → set = other

theorem sentSets_sendData (address : MiscAddress) (set : PacketFrameSet) (server : RaknetServer) :
    sentSets (sendData address (.frameSet set) server) = sentSets server ++ [set] := by
  simp only [sentSets, sendData, List.filterMap_append]
  rfl

theorem Ledger.numbered_sets {server : RaknetServer} {start : RaknetServer} {address : MiscAddress}
    {connection : Connection} {sets : List PacketFrameSet} (fresh : start.sent = [])
    (ledger : Ledger start address 0 connection server sets) (fewer : sets.length < 2 ^ 32)
    (recovered : ∀ set ∈ connection.recoveryQueue.slots, set ∈ sets) :
    Numbered (connection, server) := by
  have same : sentSets server = sets := by
    rw [sentSets, ledger.sent, fresh, List.nil_append, List.filterMap_map]
    exact List.filterMap_some
  refine ⟨fun set member => ?_, fun set member other otherMember equal => ?_⟩
  · rw [same]
    exact recovered set member
  · rw [same] at member otherMember
    exact ledger_injective ledger fewer member otherMember equal

section Steps

variable {settled : UInt32 → Prop} {state next : Connection × RaknetServer}

theorem Accounted.mono (accounted : Accounted settled state) {more : UInt32 → Prop}
    (weaker : ∀ number, settled number → more number) : Accounted more state := by
  intro set member frame inside
  obtain ⟨other, sent, again, kept | done⟩ := accounted set member frame inside
  · exact ⟨other, sent, again, Or.inl kept⟩
  · exact ⟨other, sent, again, Or.inr (weaker _ done)⟩

/-- Sending a frame set and keeping it. -/
theorem Accounted.send (accounted : Accounted settled state) {set : PacketFrameSet}
    (sent : sentSets next.2 = sentSets state.2 ++ [set])
    (grows : ∀ number ∈ keptNumbers state.1, number ∈ keptNumbers next.1)
    (kept : set.sequenceNumber ∈ keptNumbers next.1) : Accounted settled next := by
  intro earlier member frame inside
  rw [sent] at member ⊢
  rcases List.mem_append.mp member with old | new
  · obtain ⟨other, otherSent, again, held | done⟩ := accounted earlier old frame inside
    · exact ⟨other, List.mem_append_left _ otherSent, again, Or.inl (grows _ held)⟩
    · exact ⟨other, List.mem_append_left _ otherSent, again, Or.inr done⟩
  · obtain rfl := List.mem_singleton.mp new
    exact ⟨earlier, List.mem_append_right _ new, inside, Or.inl kept⟩

theorem keptNumbers_append (set : PacketFrameSet) (recoveryQueue : RecoveryQueue)
    (number : UInt32) :
    number ∈ (recoveryQueue.append set).slots.map PacketFrameSet.sequenceNumber ↔
      number ∈ recoveryQueue.slots.map PacketFrameSet.sequenceNumber ∨
        number = set.sequenceNumber := by
  by_cases present : set.sequenceNumber ∈ recoveryQueue.slots.map PacketFrameSet.sequenceNumber
  · rw [KeyedArray.append_slots_present present]
    constructor
    · exact Or.inl
    · rintro (kept | rfl)
      · exact kept
      · exact present
  · rw [KeyedArray.append_slots_absent present, List.map_append, List.mem_append,
      List.map_singleton, List.mem_singleton]

theorem Accounted.flushStep (accounted : Accounted settled state) (step : FlushStep state next) :
    Accounted settled next := by
  cases step with
  | counted before after server sameRecovery =>
      intro set member frame inside
      obtain ⟨other, sent, again, kept⟩ := accounted set member frame inside
      refine ⟨other, sent, again, ?_⟩
      simp only [keptNumbers, sameRecovery]
      exact kept
  | flushed connection server =>
      unfold sendRaknetQueue
      split
      · have number := keptNumbers_append
          { connection.queue with sequenceNumber := connection.senderSequenceNumber }
          connection.recoveryQueue
        exact accounted.send (sentSets_sendData _ _ _)
          (fun other kept => (number other).mpr (Or.inl kept)) ((number _).mpr (Or.inr rfl))
      · exact accounted

theorem Accounted.flushes (accounted : Accounted settled state) (steps : Flushes state next) :
    Accounted settled next := by
  induction steps with
  | refl => exact accounted
  | tail _ step ih => exact ih.flushStep step

/-- A frame set that is taken out of the queue is sent again with its frames,
or is numbered 0. -/
theorem Accounted.retransmit (accounted : Accounted settled state) (zero : settled 0)
    (numbered : Numbered state) (number : UInt32) :
    Accounted settled (Handler.retransmit state number) := by
  cases finding : state.1.recoveryQueue.find number with
  | none =>
      rw [retransmit_absent (KeyedArray.find_none.mp finding)]
      exact accounted
  | some frameSet =>
      obtain ⟨held, named⟩ := KeyedArray.find_some finding
      have own := numbered.recovered frameSet held
      have kept (other : UInt32) : other ∈ (state.1.recoveryQueue.deduct number).slots.map
          PacketFrameSet.sequenceNumber ↔ other ∈ keptNumbers state.1 ∧ other ≠ number := by
        rw [KeyedArray.deduct_slots, keptNumbers]
        simp only [List.mem_map, List.mem_filter, decide_eq_true_eq]
        constructor
        · rintro ⟨set, ⟨listed, different⟩, rfl⟩
          exact ⟨⟨set, listed, rfl⟩, different⟩
        · rintro ⟨⟨set, listed, rfl⟩, different⟩
          exact ⟨set, ⟨listed, different⟩, rfl⟩
      by_cases resendable : Resendable frameSet
      · rw [retransmit_resent finding resendable]
        intro set member frame inside
        rw [sentSets_sendData] at member ⊢
        have again : frame ∈ frameSet.frames → ∃ other ∈ sentSets state.2 ++
            [renumbered (frameSet, state.1.senderSequenceNumber)], frame ∈ other.frames ∧
              (other.sequenceNumber ∈ ((state.1.recoveryQueue.deduct number).append
                (renumbered (frameSet, state.1.senderSequenceNumber))).slots.map
                  PacketFrameSet.sequenceNumber ∨ settled other.sequenceNumber) := fun resent =>
          ⟨_, List.mem_append_right _ (List.mem_singleton.mpr rfl), resent,
            Or.inl ((keptNumbers_append _ _ _).mpr (Or.inr rfl))⟩
        rcases List.mem_append.mp member with old | new
        · obtain ⟨other, sent, present, stays | done⟩ := accounted set old frame inside
          · by_cases same : other.sequenceNumber = number
            · obtain rfl := numbered.unique other sent frameSet own (same.trans named.symm)
              exact again present
            · exact ⟨other, List.mem_append_left _ sent, present, Or.inl
                ((keptNumbers_append _ _ _).mpr (Or.inl ((kept _).mpr ⟨stays, same⟩)))⟩
          · exact ⟨other, List.mem_append_left _ sent, present, Or.inr done⟩
        · obtain rfl := List.mem_singleton.mp new
          exact again inside
      · rw [retransmit_dropped finding resendable]
        intro set member frame inside
        obtain ⟨other, sent, present, stays | done⟩ := accounted set member frame inside
        · by_cases same : other.sequenceNumber = number
          · obtain rfl := numbered.unique other sent frameSet own (same.trans named.symm)
            have first : other.sequenceNumber = 0 := by
              by_contra later
              exact resendable ⟨later, List.length_pos_of_mem present |>.ne'⟩
            exact ⟨other, sent, present, Or.inr (first ▸ zero)⟩
          · exact ⟨other, sent, present, Or.inl ((kept _).mpr ⟨stays, same⟩)⟩
        · exact ⟨other, sent, present, Or.inr done⟩

end Steps

/-! ## Over a run of the link -/

/-- The number is 0 or its frame set was handled. -/
def SettledBy (processed : List PacketFrameSet) (number : UInt32) : Prop :=
  number = 0 ∨ ∃ set ∈ processed, set.sequenceNumber = number

theorem Sending.sent_length {before after : Connection × RaknetServer}
    (sending : Sending before after) : before.2.sent.length ≤ after.2.sent.length := by
  obtain ⟨sets, sends⟩ := sending
  rw [sends.sent, List.length_append]
  exact Nat.le_add_right _ _

section Link

variable {environment : Environment} {start : RaknetServer} {address : MiscAddress}
  {sets : List PacketFrameSet} {link next : Link}

theorem ledger_length {server : RaknetServer} {connection : Connection} (fresh : start.sent = [])
    (ledger : Ledger start address 0 connection server sets) :
    sets.length = server.sent.length := by
  rw [ledger.sent, fresh, List.nil_append, List.length_map]

theorem foldl_retransmit_accounted {settled : UInt32 → Prop} (fresh : start.sent = [])
    (zero : settled 0) (numbers : List UInt32) {state : Connection × RaknetServer}
    (ledger : Ledger start address 0 state.1 state.2 sets)
    (recovered : ∀ set ∈ state.1.recoveryQueue.slots, set ∈ sets)
    (fewer : (numbers.foldl Handler.retransmit state).2.sent.length < 2 ^ 32)
    (accounted : Accounted settled state) :
    Accounted settled (numbers.foldl Handler.retransmit state) := by
  induction numbers generalizing sets state with
  | nil => exact accounted
  | cons number rest ih =>
      have later := Sending.sent_length
        (foldl_sending Handler.retransmit retransmit_sending (number :: rest) state)
      have length := ledger_length fresh ledger
      have numbered := Ledger.numbered_sets fresh ledger (by omega) recovered
      obtain ⟨more, sends⟩ := retransmit_sending state number
      refine ih (ledger_trans ledger sends.toLedger) (fun set member => ?_) fewer
        (accounted.retransmit zero numbered number)
      rcases sends.kept set member with old | new
      · exact List.mem_append_left _ (recovered set old)
      · exact List.mem_append_right _ new

/-- What an ACK takes out was handled. -/
theorem ack_accounted (holds : LinkInvariant start address sets link) (fewer : sets.length < 2 ^ 24)
    {numbers : List UInt32} (justified : Acknowledgeable link.processed numbers)
    {connection : Connection}
    (handled : handleAck (putPacketAcknowledge numbers false) link.sender.1 = some connection)
    (accounted : Accounted (SettledBy link.processed) link.sender) :
    Accounted (SettledBy link.processed) (connection, link.sender.2) := by
  intro set member frame inside
  obtain ⟨other, sent, again, kept | done⟩ := accounted set member frame inside
  · refine ⟨other, sent, again, ?_⟩
    obtain ⟨held, heldHere, named⟩ := List.mem_map.mp kept
    by_cases stays : held ∈ connection.recoveryQueue.slots
    · exact Or.inl (List.mem_map.mpr ⟨held, stays, named⟩)
    · exact Or.inr (Or.inr ⟨held, holds.ack_removes fewer justified handled heldHere stays, named⟩)
  · exact ⟨other, sent, again, Or.inr done⟩

theorem linkStep_accounted (fresh : start.sent = [])
    (holds : LinkInvariant start address sets link) {event : LinkEvent}
    (stepped : linkStep environment link event = some next)
    (fewer : next.sender.2.sent.length < 2 ^ 24)
    (accounted : Accounted (SettledBy link.processed) link.sender) :
    Accounted (SettledBy next.processed) next.sender := by
  have length := ledger_length fresh holds.ledger
  cases event with
  | add frame =>
      obtain ⟨moved, added, rfl⟩ := Option.map_eq_some_iff.mp stepped
      exact accounted.flushes (addToRaknetQueue_flushes added)
  | flush =>
      cases stepped
      exact accounted.flushStep (.flushed _ _)
  | deliver i =>
      simp only [linkStep] at stepped
      split at stepped
      · obtain ⟨party, handled, rfl⟩ := Option.map_eq_some_iff.mp stepped
        refine accounted.mono fun number settled => ?_
        rcases settled with zero | ⟨set, member, named⟩
        · exact Or.inl zero
        · exact Or.inr ⟨set, List.mem_append_left _ member, named⟩
      · cases stepped
        exact accounted
  | sendAckQueue =>
      cases stepped
      exact accounted
  | sendNackQueue =>
      cases stepped
      exact accounted
  | answer i =>
      simp only [linkStep] at stepped
      split at stepped
      · rename_i owner numbers inFlight
        obtain ⟨moved, acted, rfl⟩ := Option.map_eq_some_iff.mp stepped
        obtain ⟨connection, handled, rfl⟩ := Option.map_eq_some_iff.mp acted
        exact ack_accounted holds (length ▸ fewer)
          (holds.answers _ (List.mem_of_getElem? inFlight) numbers rfl) handled accounted
      · obtain ⟨moved, acted, rfl⟩ := Option.map_eq_some_iff.mp stepped
        obtain ⟨numbers, -, result⟩ := Option.bind_eq_some_iff.mp acted
        obtain rfl := Option.some.inj result
        exact foldl_retransmit_accounted fresh (Or.inl rfl) numbers holds.ledger holds.recovered
          (Nat.lt_trans fewer (by decide)) accounted
      · cases stepped
        exact accounted

theorem linkStep_sent_length {event : LinkEvent}
    (stepped : linkStep environment link event = some next) :
    link.sender.2.sent.length ≤ next.sender.2.sent.length := by
  have acts {sent : SenderEvent} (acted : senderActs sent link = some next) :
      link.sender.2.sent.length ≤ next.sender.2.sent.length := by
    obtain ⟨moved, moves, rfl⟩ := Option.map_eq_some_iff.mp acted
    exact Sending.sent_length (senderStep_sending moves)
  cases event with
  | add frame => exact acts stepped
  | flush => exact acts stepped
  | deliver i =>
      simp only [linkStep] at stepped
      split at stepped
      · obtain ⟨party, handled, rfl⟩ := Option.map_eq_some_iff.mp stepped
        exact Nat.le_refl _
      · cases stepped
        exact Nat.le_refl _
  | sendAckQueue =>
      cases stepped
      exact Nat.le_refl _
  | sendNackQueue =>
      cases stepped
      exact Nat.le_refl _
  | answer i =>
      simp only [linkStep] at stepped
      split at stepped
      · exact acts stepped
      · exact acts stepped
      · cases stepped
        exact Nat.le_refl _

theorem run_accounted {senderAddress receiverAddress : MiscAddress}
    {senderMtu receiverMtu : UInt16} {sender receiver : RaknetServer} {events : List LinkEvent}
    (fewer : link.sender.2.sent.length < 2 ^ 24)
    (reached : run (linkStep environment) events
      (newLink senderAddress receiverAddress senderMtu receiverMtu sender receiver) = some link) :
    Accounted (SettledBy link.processed) link.sender := by
  refine run_induction (fun _ state => state.sender.2.sent.length < 2 ^ 24 →
    Accounted (SettledBy state.processed) state.sender)
    (fun _ set member => absurd member List.not_mem_nil) ?_ reached fewer
  intro history state event after earlier before stepped small
  obtain ⟨sets, holds⟩ := run_linkInvariant earlier
  exact linkStep_accounted rfl holds stepped small
    (before (Nat.lt_of_le_of_lt (linkStep_sent_length stepped) small))

end Link

/-! ## Nothing left to send -/

/-- Each frame that was sent is in a frame set that was acknowledged, and that
was handled. -/
theorem idle_arrived {environment : Environment} {senderAddress receiverAddress : MiscAddress}
    {senderMtu receiverMtu : UInt16} {sender receiver : RaknetServer} {events : List LinkEvent}
    {link : Link} {log : List Sent} {sets : List PacketFrameSet}
    (unwrapped : link.sender.2.sent.length < 2 ^ 24)
    (reached : run (linkStep environment) events
      (newLink senderAddress receiverAddress senderMtu receiverMtu sender receiver) = some link)
    (holds : Delivering sender receiver senderAddress receiverAddress senderMtu
      (addedMessages events) log sets link)
    (idle : link.sender.1.recoveryQueue.slots = [])
    (first : ∃ set ∈ link.processed, set.sequenceNumber = 0) :
    AllArrived sets link.processed := by
  have length := ledger_length rfl holds.sending.ledger
  intro set member frame inside
  rw [← holds.sentSets] at member
  obtain ⟨other, sent, again, kept | settled⟩ :=
    run_accounted unwrapped reached set member frame inside
  · rw [keptNumbers, idle] at kept
    exact absurd kept List.not_mem_nil
  · obtain ⟨handled, processed, named⟩ :
        ∃ handled ∈ link.processed, handled.sequenceNumber = other.sequenceNumber := by
      rcases settled with zero | handled
      · rw [zero]
        exact first
      · exact handled
    rw [holds.sentSets] at sent
    obtain rfl := ledger_injective holds.sending.ledger (by omega)
      (holds.processed handled processed) sent named
    exact ⟨handled, processed, again⟩

/-- In every interleaving: once the sender has neither a queued frame nor a
frame set to recover, and its first frame set was handled, each added message
has been handed to the workers. -/
theorem idle_sender_has_delivered (environment : Environment)
    (senderAddress receiverAddress : MiscAddress) (senderMtu receiverMtu : UInt16)
    (sender receiver : RaknetServer) (events : List LinkEvent) (link : Link)
    (mtuFits : 61 ≤ senderMtu.toNat) (short : senderMtu.toNat ≤ 8251)
    (connected : hasRaknetConnection senderAddress receiver = true)
    (sendable : ∀ message ∈ addedMessages events, Sendable senderMtu message)
    (fewer : ((addedMessages events).countP fun message => Long senderMtu message) ≤ 2 ^ 16)
    (reached : run (linkStep environment) events
      (newLink senderAddress receiverAddress senderMtu receiverMtu sender receiver) = some link)
    (unwrapped : link.sender.2.sent.length < 2 ^ 24)
    (flushed : link.sender.1.queue.frames = [])
    (idle : link.sender.1.recoveryQueue.slots = [])
    (first : ∃ set ∈ link.processed, set.sequenceNumber = 0) :
    ∃ handed, postedFrames link.receiver.2 = postedFrames receiver ++ handed ∧
      ∀ message ∈ addedMessages events, ¬ ForRaknet message →
        ∃ frame ∈ handed, frame.stream = message.stream := by
  obtain ⟨log, sets, holds⟩ := run_delivering mtuFits short sendable connected reached
  exact ⟨_, holds.posted, fun message member notOwn =>
    holds.complete fewer flushed (idle_arrived unwrapped reached holds idle first) member notOwn⟩

/-- One frame set is late, the one behind it is lost, asked for and sent again. -/
def recoveredLoss : List LinkEvent :=
  messagesAdded ++ [.add { stream := [0xfe, 9] }, .flush, .deliver 0, .deliver 3, .sendNackQueue,
    .answer 0, .deliver 4, .deliver 1, .sendAckQueue, .answer 1]

theorem recoveredLoss_sendable : ∀ message ∈ addedMessages recoveredLoss, Sendable 64 message := by
  intro message member
  simp only [addedMessages, recoveredLoss, messagesAdded, List.cons_append, List.nil_append,
    List.filterMap_cons, List.filterMap_nil, List.mem_cons, List.not_mem_nil, or_false] at member
  rcases member with rfl | rfl | rfl
  · exact ⟨rfl, by decide, by decide⟩
  · exact ⟨rfl, by decide, by decide⟩
  · exact ⟨rfl, by decide, by decide⟩

theorem idle_sender_has_delivered_recoveredLoss :
    ∃ link handed, run (linkStep stillEnvironment) recoveredLoss smallLink = some link ∧
      postedFrames link.receiver.2 = handed ∧
      ∀ message ∈ addedMessages recoveredLoss, ¬ ForRaknet message →
        ∃ frame ∈ handed, frame.stream = message.stream := by
  have computed : (run (linkStep stillEnvironment) recoveredLoss smallLink).map
      (fun link => (link.sender.2.sent.length, link.sender.1.queue.frames.length,
        link.sender.1.recoveryQueue.slots.length,
        link.processed.map PacketFrameSet.sequenceNumber)) = some (5, 0, 0, [0, 3, 4, 1]) := by
    decide +kernel
  obtain ⟨link, reached, state⟩ := Option.map_eq_some_iff.mp computed
  obtain ⟨sent, flushed, idle, processed⟩ : link.sender.2.sent.length = 5 ∧
      link.sender.1.queue.frames.length = 0 ∧ link.sender.1.recoveryQueue.slots.length = 0 ∧
      link.processed.map PacketFrameSet.sequenceNumber = [0, 3, 4, 1] := by
    simpa using state
  have first : (0 : UInt32) ∈ link.processed.map PacketFrameSet.sequenceNumber := by
    rw [processed]
    exact List.mem_cons_self
  obtain ⟨handed, posted, each⟩ := idle_sender_has_delivered stillEnvironment _ _ 64 64 _ _
    recoveredLoss link (by decide) (by decide) (by decide) recoveredLoss_sendable (by decide) reached
    (by rw [sent]; decide) (List.length_eq_zero_iff.mp flushed) (List.length_eq_zero_iff.mp idle)
    (List.mem_map.mp first)
  exact ⟨link, handed, reached, posted, each⟩

end PodrumRakNet.IdleSender
