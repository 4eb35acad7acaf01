import PodrumFormal.RakNet.AcknowledgeRoundTrip
import PodrumFormal.RakNet.HandlerEffects
import PodrumFormal.RakNet.NackQueue
import PodrumFormal.RakNet.SendRun

/-!
# What an acknowledgement promises

Two parties over a channel that loses, duplicates and reorders: any datagram
the one has ever sent can reach the other at any time, any number of times or
never.  A frame set leaves the sender's recovery queue by an ACK only after the
receiver has handled it.
-/

set_option autoImplicit false

namespace PodrumRakNet.AckSafety

open EventRun PodrumRakNet.Frame PodrumRakNet.FrameSet PodrumRakNet.Acknowledge
open PodrumRakNet.AcknowledgeRoundTrip PodrumRakNet.Packet PodrumRakNet.Connections
open PodrumRakNet.SendQueue PodrumRakNet.SendLedger PodrumRakNet.Handler PodrumRakNet.Recovery
open PodrumRakNet.HandlerEffects
open PodrumRakNet.NackQueue (stillEnvironment)

/-! ## The two parties -/

/-- `processed` lists the frame set datagrams the receiver has handled. -/
structure Link where
  sender : Connection × RaknetServer
  receiver : Connection × RaknetServer
  processed : List PacketFrameSet := []

/-- Both parties have just opened their connection and sent nothing yet. -/
def newLink (senderAddress receiverAddress : MiscAddress) (senderMtu receiverMtu : UInt16)
    (sender receiver : RaknetServer) : Link where
  sender := (newConnection receiverAddress senderMtu, { sender with sent := [] })
  receiver := (newConnection senderAddress receiverMtu, { receiver with sent := [] })

/-- `deliver i` and `answer i` hand the datagram of that place in the other
party's log over. -/
inductive LinkEvent where
  | add (frame : MiscFrame)
  | flush
  | deliver (i : Nat)
  | sendAckQueue
  | sendNackQueue
  | answer (i : Nat)

def senderActs (event : SenderEvent) (link : Link) : Option Link :=
  (senderStep link.sender event).map fun sender => { link with sender }

def linkStep (environment : Environment) (link : Link) : LinkEvent → Option Link
  | .add frame => senderActs (.add frame) link
  | .flush => senderActs .flush link
  | .deliver i =>
      match link.sender.2.sent[i]? with
      | some (_, .frameSet set) =>
          (handleFrameSet environment (putPacketFrameSet set) link.receiver.1 link.receiver.2).map
            fun receiver => { link with receiver, processed := link.processed ++ [set] }
      | _ => some link
  | .sendAckQueue =>
      some { link with receiver := sendRaknetAckQueue link.receiver.1 link.receiver.2 }
  | .sendNackQueue =>
      some { link with receiver := sendRaknetNackQueue link.receiver.1 link.receiver.2 }
  | .answer i =>
      match link.receiver.2.sent[i]? with
      | some (_, .acknowledge numbers false) =>
          senderActs (.ack (putPacketAcknowledge numbers false)) link
      | some (_, .acknowledge numbers true) =>
          senderActs (.nack (putPacketAcknowledge numbers true)) link
      | _ => some link

/-! ## The invariant over both parties and the channel -/

/-- A frame set with that number on the wire was handled. -/
def Handled (processed : List PacketFrameSet) (number : UInt32) : Prop :=
  ∃ set ∈ processed, wireNumber set.sequenceNumber = number

theorem Handled.more {processed : List PacketFrameSet} {number : UInt32}
    (handled : Handled processed number) (set : PacketFrameSet) :
    Handled (processed ++ [set]) number := by
  rcases handled with ⟨earlier, member, same⟩
  exact ⟨earlier, List.mem_append_left _ member, same⟩

/-- What an ACK of these numbers may be sent for. -/
structure Acknowledgeable (processed : List PacketFrameSet) (numbers : List UInt32) : Prop where
  nonempty : numbers ≠ []
  short : numbers.length ≤ 65535
  handled : ∀ number ∈ numbers, Handled processed number

/-- `sets` is all that the sender has sent. -/
structure LinkInvariant (start : RaknetServer) (address : MiscAddress)
    (sets : List PacketFrameSet) (link : Link) : Prop where
  ledger : Ledger start address 0 link.sender.1 link.sender.2 sets
  recovered : ∀ set ∈ link.sender.1.recoveryQueue.slots, set ∈ sets
  processed : ∀ set ∈ link.processed, set ∈ sets
  pending : ∀ number ∈ link.receiver.1.ackQueue.numbers, Handled link.processed number
  answers : ∀ entry ∈ link.receiver.2.sent, ∀ numbers,
    entry.2 = .acknowledge numbers false → Acknowledgeable link.processed numbers

section Step

variable {environment : Environment} {start : RaknetServer} {address : MiscAddress}
  {sets : List PacketFrameSet} {link next : Link}

theorem senderActs_invariant {event : SenderEvent} (holds : LinkInvariant start address sets link)
    (stepped : senderActs event link = some next) :
    ∃ after, LinkInvariant start address after next := by
  obtain ⟨sender, moved, rfl⟩ := Option.map_eq_some_iff.mp stepped
  obtain ⟨more, sends⟩ := senderStep_sending moved
  refine ⟨sets ++ more, ⟨ledger_trans holds.ledger sends.toLedger, ?_, ?_, holds.pending,
    holds.answers⟩⟩
  · intro set member
    rcases sends.kept set member with old | new
    · exact List.mem_append_left _ (holds.recovered set old)
    · exact List.mem_append_right _ new
  · exact fun set member => List.mem_append_left _ (holds.processed set member)

/-- Whatever the receiver sends that is no ACK keeps what is known of its
answers. -/
theorem answers_append {processed : List PacketFrameSet}
    {sent more : List (MiscAddress × Datagram)}
    (answers : ∀ entry ∈ sent, ∀ numbers, entry.2 = .acknowledge numbers false →
      Acknowledgeable processed numbers)
    (others : ∀ entry ∈ more, ∀ numbers, entry.2 = .acknowledge numbers false →
      Acknowledgeable processed numbers) :
    ∀ entry ∈ sent ++ more, ∀ numbers, entry.2 = .acknowledge numbers false →
      Acknowledgeable processed numbers := by
  intro entry member
  rcases List.mem_append.mp member with early | late
  · exact answers entry early
  · exact others entry late

theorem deliver_invariant {set : PacketFrameSet} {receiver : Connection × RaknetServer}
    (holds : LinkInvariant start address sets link) (sent : set ∈ sets)
    (handled : handleFrameSet environment (putPacketFrameSet set) link.receiver.1 link.receiver.2 =
      some receiver) :
    LinkInvariant start address sets
      { link with receiver, processed := link.processed ++ [set] } := by
  have posts := handleFrameSet_posts handled
  obtain ⟨replies, sets, logged⟩ := posts.sent
  obtain ⟨decoded, rest, read, acknowledged⟩ := handleFrameSet_ackQueue handled
  refine ⟨holds.ledger, holds.recovered, ?_, ?_, ?_⟩
  · intro other member
    rcases List.mem_append.mp member with early | late
    · exact holds.processed other early
    · exact List.mem_singleton.mp late ▸ sent
  · intro number member
    rcases (acknowledged number).mp member with old | rfl
    · exact (holds.pending number old).more set
    · exact ⟨set, by simp, (getPacketFrameSet_number read).symm⟩
  · dsimp only
    rw [logged]
    apply answers_append
    · intro entry member numbers same
      obtain ⟨nonempty, short, each⟩ := holds.answers entry member numbers same
      exact ⟨nonempty, short, fun number listed => (each number listed).more set⟩
    · intro entry member numbers same
      obtain ⟨reply, listed, rfl⟩ := List.mem_map.mp member
      obtain ⟨set, rfl⟩ := sets reply listed
      cases same

theorem sendAckQueue_invariant (holds : LinkInvariant start address sets link) :
    LinkInvariant start address sets
      { link with receiver := sendRaknetAckQueue link.receiver.1 link.receiver.2 } := by
  unfold sendRaknetAckQueue
  split
  · rename_i some
    have lengths := link.receiver.1.ackQueue.array.exact
    refine ⟨holds.ledger, holds.recovered, holds.processed, ?_, ?_⟩
    · exact fun number member => absurd member List.not_mem_nil
    · apply answers_append holds.answers
      intro entry member numbers same
      obtain rfl := List.mem_singleton.mp member
      cases same
      refine ⟨?_, ?_, holds.pending⟩
      · intro empty
        rw [SequenceQueue.numbers] at empty
        rw [empty] at lengths
        exact absurd some (by rw [lengths]; decide)
      · rw [SequenceQueue.numbers, ← lengths]
        exact link.receiver.1.ackQueue.fits
  · exact holds

theorem sendNackQueue_invariant (holds : LinkInvariant start address sets link) :
    LinkInvariant start address sets
      { link with receiver := sendRaknetNackQueue link.receiver.1 link.receiver.2 } := by
  unfold sendRaknetNackQueue
  split
  · refine ⟨holds.ledger, holds.recovered, holds.processed, holds.pending, ?_⟩
    apply answers_append holds.answers
    intro entry member numbers same
    obtain rfl := List.mem_singleton.mp member
    cases same
  · exact holds

theorem linkStep_invariant {event : LinkEvent} (fresh : start.sent = [])
    (holds : LinkInvariant start address sets link)
    (stepped : linkStep environment link event = some next) :
    ∃ after, LinkInvariant start address after next := by
  cases event with
  | add frame => exact senderActs_invariant holds stepped
  | flush => exact senderActs_invariant holds stepped
  | deliver i =>
      simp only [linkStep] at stepped
      split at stepped
      · rename_i owner set delivered
        obtain ⟨receiver, handled, rfl⟩ := Option.map_eq_some_iff.mp stepped
        have logged := List.mem_of_getElem? delivered
        rw [holds.ledger.sent, fresh, List.nil_append] at logged
        obtain ⟨sent, member, same⟩ := List.mem_map.mp logged
        cases same
        exact ⟨sets, deliver_invariant holds member handled⟩
      · cases stepped
        exact ⟨sets, holds⟩
  | sendAckQueue =>
      cases stepped
      exact ⟨sets, sendAckQueue_invariant holds⟩
  | sendNackQueue =>
      cases stepped
      exact ⟨sets, sendNackQueue_invariant holds⟩
  | answer i =>
      simp only [linkStep] at stepped
      split at stepped
      · exact senderActs_invariant holds stepped
      · exact senderActs_invariant holds stepped
      · cases stepped
        exact ⟨sets, holds⟩

end Step

/-! ## What an ACK removes -/

section Run

variable {environment : Environment} {senderAddress receiverAddress : MiscAddress}
  {senderMtu receiverMtu : UInt16} {sender receiver : RaknetServer}

theorem run_linkInvariant {events : List LinkEvent} {link : Link}
    (reached : run (linkStep environment) events
      (newLink senderAddress receiverAddress senderMtu receiverMtu sender receiver) = some link) :
    ∃ sets, LinkInvariant { sender with sent := [] } receiverAddress sets link := by
  refine run_preserves (fun _ link => ∃ sets,
    LinkInvariant { sender with sent := [] } receiverAddress sets link) ?step events [] _ link
    ⟨[], ⟨rfl, rfl, rfl, rfl⟩, by simp [newLink, newConnection, KeyedArray.empty],
      by simp [newLink], fun number member => absurd member List.not_mem_nil,
      by simp [newLink]⟩ reached
  rintro _ state event next ⟨sets, holds⟩ stepped
  exact linkStep_invariant rfl holds stepped

/-- Two frame sets sent under one number are the same. -/
theorem ledger_injective {start server : RaknetServer} {address : MiscAddress}
    {connection : Connection} {sets : List PacketFrameSet}
    (ledger : Ledger start address 0 connection server sets) (fewer : sets.length < 2 ^ 32)
    {left right : PacketFrameSet} (leftSent : left ∈ sets) (rightSent : right ∈ sets)
    (same : left.sequenceNumber = right.sequenceNumber) : left = right := by
  have numbered := ledger.numbered
  simp only [UInt32.zero_add] at numbered
  have distinct : (sets.map PacketFrameSet.sequenceNumber).Nodup := by
    apply List.Nodup.of_map UInt32.toNat
    rw [SendRun.range_toNat fewer numbered]
    exact List.nodup_range
  exact List.inj_on_of_nodup_map distinct leftSent rightSent same

/-- Fewer than `2 ^ 24` frame sets keep their numbers on the wire. -/
theorem ledger_wireNumber {start server : RaknetServer} {address : MiscAddress}
    {connection : Connection} {sets : List PacketFrameSet}
    (ledger : Ledger start address 0 connection server sets) (fewer : sets.length < 2 ^ 24)
    {set : PacketFrameSet} (sent : set ∈ sets) :
    wireNumber set.sequenceNumber = set.sequenceNumber := by
  apply wireNumber_small
  have below := UInt32.lt_iff_toNat_lt.mp (ledger_below ledger (by omega) sent)
  have count := congrArg UInt32.toNat ledger.next
  rw [UInt32.zero_add, UInt32.toNat_ofNat_of_lt' (by simp only [UInt32.size]; omega)] at count
  omega

end Run

/-- An ACK of numbers that were handled removes what was handled. -/
theorem LinkInvariant.ack_removes {start : RaknetServer} {address : MiscAddress}
    {sets : List PacketFrameSet} {link : Link} (holds : LinkInvariant start address sets link)
    (fewer : sets.length < 2 ^ 24) {numbers : List UInt32} {next : Connection}
    (justified : Acknowledgeable link.processed numbers)
    (handled : handleAck (putPacketAcknowledge numbers false) link.sender.1 = some next)
    {set : PacketFrameSet} (member : set ∈ link.sender.1.recoveryQueue.slots)
    (removed : set ∉ next.recoveryQueue.slots) : set ∈ link.processed := by
  have small : ∀ number ∈ numbers, number.toNat < 2 ^ 24 := by
    intro number listed
    obtain ⟨other, _, rfl⟩ := justified.handled number listed
    rw [wireNumber_toNat]
    exact Nat.mod_lt _ (by decide)
  obtain ⟨packet, decoded, read, values, _, same⟩ :=
    acknowledge_roundTrip numbers false justified.nonempty justified.short small
  obtain ⟨others, acknowledged, _, slots⟩ := handleAck_slots handled
  have sameNumbers : others = decoded := by
    simp only [acknowledgedNumbers, read, Option.bind_eq_bind, Option.bind_some, values] at acknowledged
    exact (Option.some.inj acknowledged).symm
  have listed : set.sequenceNumber ∈ numbers := by
    by_contra unlisted
    apply removed
    rw [slots, List.mem_filter, decide_eq_true_iff, sameNumbers, same]
    exact ⟨member, unlisted⟩
  obtain ⟨other, processed, number⟩ := justified.handled _ listed
  have sent := holds.processed other processed
  rw [ledger_wireNumber holds.ledger fewer sent] at number
  exact ledger_injective holds.ledger (by omega) sent (holds.recovered set member) number ▸ processed

/-- In every interleaving: an ACK that takes a frame set out of the recovery
queue comes after that frame set was handled, with that number and those
frames. -/
theorem ack_removes_processed (environment : Environment)
    (senderAddress receiverAddress : MiscAddress) (senderMtu receiverMtu : UInt16)
    (sender receiver : RaknetServer) (events : List LinkEvent) (i : Nat) (before after : Link)
    (owner : MiscAddress) (numbers : List UInt32)
    (reached : run (linkStep environment) events
      (newLink senderAddress receiverAddress senderMtu receiverMtu sender receiver) = some before)
    (fewer : before.sender.2.sent.length < 2 ^ 24)
    (inFlight : before.receiver.2.sent[i]? = some (owner, .acknowledge numbers false))
    (stepped : linkStep environment before (.answer i) = some after) :
    ∀ set ∈ before.sender.1.recoveryQueue.slots,
      set ∉ after.sender.1.recoveryQueue.slots → set ∈ before.processed := by
  obtain ⟨sets, holds⟩ := run_linkInvariant reached
  intro set member removed
  have counted : sets.length < 2 ^ 24 := by
    have lengths := congrArg List.length holds.ledger.sent
    rw [List.nil_append, List.length_map] at lengths
    omega
  simp only [linkStep, inFlight] at stepped
  obtain ⟨moved, acted, rfl⟩ := Option.map_eq_some_iff.mp stepped
  obtain ⟨connection, handled, rfl⟩ := Option.map_eq_some_iff.mp acted
  exact holds.ack_removes counted (holds.answers _ (List.mem_of_getElem? inFlight) numbers rfl)
    handled member removed

def firstLink : Link :=
  newLink ⟨4, [0x31], 19132⟩ ⟨4, [0x32], 19133⟩ 1400 1400 {}
    (addRaknetConnection ⟨4, [0x31], 19132⟩ 1400 {})

/-- One frame set, received twice and acknowledged. -/
theorem ack_removes_processed_twice :
    ∃ before after,
      run (linkStep stillEnvironment) [.add { stream := [0xfe] }, .flush, .deliver 0, .deliver 0,
        .sendAckQueue] firstLink = some before ∧
      linkStep stillEnvironment before (.answer 0) = some after ∧
      ∀ set ∈ before.sender.1.recoveryQueue.slots,
        set ∉ after.sender.1.recoveryQueue.slots → set ∈ before.processed := by
  obtain ⟨before, after, reached, stepped, fewer, inFlight⟩ : ∃ before after,
      run (linkStep stillEnvironment) [.add { stream := [0xfe] }, .flush, .deliver 0, .deliver 0,
        .sendAckQueue] firstLink = some before ∧
      linkStep stillEnvironment before (.answer 0) = some after ∧
      before.sender.2.sent.length < 2 ^ 24 ∧
      before.receiver.2.sent[0]? = some (⟨4, [0x31], 19132⟩, .acknowledge [0] false) :=
    ⟨_, _, rfl, rfl, by decide, rfl⟩
  exact ⟨before, after, reached, stepped, ack_removes_processed stillEnvironment _ _ 1400 1400 _ _
    _ 0 before after _ [0] reached fewer inFlight stepped⟩

end PodrumRakNet.AckSafety
