import PodrumFormal.Lib.EventRun
import PodrumFormal.RakNet.NackRecovery
import PodrumFormal.RakNet.Reassembly

/-!
# The recovery queue over runs

A sender adds messages, flushes, and handles ACKs and NACKs in any order.  What
is in its recovery queue was sent, and every frame set it sends takes the next
number.
-/

set_option autoImplicit false

namespace PodrumRakNet.Recovery

open ByteReader EventRun PodrumStream.BinaryStream PodrumRakNet.Frame PodrumRakNet.FrameSet
open PodrumRakNet.Packet PodrumRakNet.Connections PodrumRakNet.SendQueue PodrumRakNet.SendLedger
open PodrumRakNet.Fragments PodrumRakNet.Handler PodrumRakNet.Acknowledge
open PodrumRakNet.AcknowledgeListing PodrumRakNet.RecordCells PodrumRakNet.NackRecovery

inductive SenderEvent where
  | add (frame : MiscFrame)
  | flush
  | ack (stream : List UInt8)
  | nack (stream : List UInt8)

def senderStep (state : Connection × RaknetServer) :
    SenderEvent → Option (Connection × RaknetServer)
  | .add frame => addToRaknetQueue frame state.1 state.2
  | .flush => some (sendRaknetQueue state.1 state.2)
  | .ack stream => (handleAck stream state.1).map fun connection => (connection, state.2)
  | .nack stream => handleNack stream state.1 state.2

/-! ## What one operation sends and keeps -/

/-- `sets` went out between the two states, nothing else of the server has
changed, and what is kept was kept before or is one of them. -/
structure Sends (before after : Connection × RaknetServer) (sets : List PacketFrameSet) : Prop
    extends Ledger before.2 before.1.address before.1.senderSequenceNumber after.1 after.2 sets where
  server : after.2 = { before.2 with sent := after.2.sent }
  kept : ∀ set ∈ after.1.recoveryQueue.slots, set ∈ before.1.recoveryQueue.slots ∨ set ∈ sets

theorem ledger_trans {start server final : RaknetServer} {address : MiscAddress} {first : UInt32}
    {connection next : Connection} {sets more : List PacketFrameSet}
    (ledger : Ledger start address first connection server sets)
    (rest : Ledger server connection.address connection.senderSequenceNumber next final more) :
    Ledger start address first next final (sets ++ more) where
  owner := rest.owner.trans ledger.owner
  sent := by rw [rest.sent, ledger.sent, ledger.owner, List.map_append, List.append_assoc]
  numbered := by
    rw [List.map_append, ledger.numbered, rest.numbered, List.length_append, List.range_add,
      List.map_append, List.map_map, ledger.next]
    simp only [Function.comp_def, UInt32.ofNat_add, UInt32.add_assoc]
  next := by rw [rest.next, ledger.next, List.length_append, UInt32.ofNat_add, UInt32.add_assoc]

/-- What is put out between two states, without naming it. -/
def Sending (before after : Connection × RaknetServer) : Prop := ∃ sets, Sends before after sets

theorem Sending.trans {first second third : Connection × RaknetServer}
    (left : Sending first second) (right : Sending second third) : Sending first third := by
  rcases left with ⟨sets, before⟩
  rcases right with ⟨more, after⟩
  refine ⟨sets ++ more, ledger_trans before.toLedger after.toLedger, ?_, fun set member => ?_⟩
  · rw [after.server, before.server]
  rcases after.kept set member with old | new
  · rcases before.kept set old with older | sent
    · exact Or.inl older
    · exact Or.inr (List.mem_append_left _ sent)
  · exact Or.inr (List.mem_append_right _ new)

/-- An operation that sends nothing and keeps nothing new. -/
theorem sending_silent {before after : Connection} (server : RaknetServer)
    (sameAddress : after.address = before.address)
    (sameNumber : after.senderSequenceNumber = before.senderSequenceNumber)
    (kept : ∀ set ∈ after.recoveryQueue.slots, set ∈ before.recoveryQueue.slots) :
    Sending (before, server) (after, server) :=
  ⟨[], (Ledger.open before server).setConnection after sameAddress sameNumber, rfl,
    fun set member => Or.inl (kept set member)⟩

theorem Sending.refl (state : Connection × RaknetServer) : Sending state state :=
  sending_silent state.2 rfl rfl fun _ member => member

/-- Sending one frame set under the sender's number and keeping it. -/
theorem sending_one (connection : Connection) (server : RaknetServer) (frames : List MiscFrame)
    (queue : PacketFrameSet) {recoveryQueue : RecoveryQueue}
    (kept : ∀ set ∈ recoveryQueue.slots, set ∈ connection.recoveryQueue.slots) :
    Sending (connection, server)
      ({ connection with
          senderSequenceNumber := connection.senderSequenceNumber + 1
          recoveryQueue := recoveryQueue.append ⟨connection.senderSequenceNumber, frames⟩
          queue },
        sendData connection.address (.frameSet ⟨connection.senderSequenceNumber, frames⟩) server) := by
  refine ⟨[⟨connection.senderSequenceNumber, frames⟩], ⟨rfl, rfl, ?_, rfl⟩, rfl, fun set member => ?_⟩
  · simp
  · rcases KeyedArray.mem_append member with old | rfl
    · exact Or.inl (kept set old)
    · exact Or.inr (List.mem_singleton.mpr rfl)

theorem foldl_sending {α : Type}
    (step : Connection × RaknetServer → α → Connection × RaknetServer)
    (each : ∀ state item, Sending state (step state item)) (items : List α)
    (state : Connection × RaknetServer) : Sending state (items.foldl step state) := by
  induction items generalizing state with
  | nil => exact Sending.refl state
  | cons item rest ih => exact (each state item).trans (ih (step state item))

theorem sendRaknetQueue_sending (connection : Connection) (server : RaknetServer) :
    Sending (connection, server) (sendRaknetQueue connection server) := by
  unfold sendRaknetQueue
  split
  · exact sending_one connection server connection.queue.frames _ fun _ member => member
  · exact Sending.refl _

theorem appendRaknetFrame_sending (frame : MiscFrame) (opts : Bool) (connection : Connection)
    (server : RaknetServer) :
    Sending (connection, server) (appendRaknetFrame frame opts connection server) := by
  have flushed : Sending (connection, server) (flushIfFull frame connection server) := by
    unfold flushIfFull
    split
    · exact sendRaknetQueue_sending connection server
    · exact Sending.refl _
  have pushed : Sending (connection, server)
      (pushFrame frame (flushIfFull frame connection server).1,
        (flushIfFull frame connection server).2) :=
    flushed.trans (sending_silent _ rfl rfl fun _ member => member)
  simp only [appendRaknetFrame]
  split
  · exact pushed.trans (sendRaknetQueue_sending _ _)
  · exact pushed

theorem countReliable_sending (reliability : UInt8) (connection : Connection)
    (server : RaknetServer) :
    Sending (connection, server) (countReliable reliability connection, server) := by
  unfold countReliable
  split
  · exact sending_silent _ rfl rfl fun _ member => member
  · exact Sending.refl _

theorem addFragments_sending (frame : MiscFrame) (maxSize : Nat) (connection : Connection)
    (server : RaknetServer) :
    Sending (connection, server) (addFragments frame maxSize connection server) := by
  have loop := foldl_sending (addFragment frame maxSize)
    (fun state i => (countReliable_sending frame.reliability state.1 state.2).trans
      (appendRaknetFrame_sending _ true _ _))
    (List.range (frameCount frame.stream.length maxSize)) (connection, server)
  exact loop.trans (sending_silent _ rfl rfl fun _ member => member)

theorem indexFrame_sending {frame indexed : MiscFrame} {connection counted : Connection}
    (server : RaknetServer) (success : indexFrame frame connection = some (indexed, counted)) :
    Sending (connection, server) (counted, server) := by
  obtain ⟨-, cell, -, rfl, rfl⟩ | ⟨-, -, cell, -, rfl, rfl⟩ | ⟨-, rfl, rfl⟩ :=
    indexFrame_cases success
  · exact sending_silent _ rfl rfl fun _ member => member
  · exact sending_silent _ rfl rfl fun _ member => member
  · exact Sending.refl _

theorem addToRaknetQueue_sending {frame : MiscFrame} {connection : Connection}
    {server : RaknetServer} {next : Connection × RaknetServer}
    (success : addToRaknetQueue frame connection server = some next) :
    Sending (connection, server) next := by
  simp only [addToRaknetQueue] at success
  obtain ⟨⟨indexed, counted⟩, indexing, success⟩ := Option.bind_eq_some_iff.mp success
  apply (indexFrame_sending server indexing).trans
  dsimp only at success
  split at success
  · split at success
    · cases success
    · obtain rfl := Option.some.inj success
      exact addFragments_sending _ _ _ _
  · obtain rfl := Option.some.inj success
    exact (countReliable_sending _ _ _).trans (appendRaknetFrame_sending _ _ _ _)

/-! ## Acknowledgements -/

/-- All that `handle_ack` can do. -/
theorem handleAck_slots {stream : List UInt8} {connection next : Connection}
    (success : handleAck stream connection = some next) :
    ∃ numbers, acknowledgedNumbers stream = some numbers ∧
      next = { connection with recoveryQueue := next.recoveryQueue } ∧
      next.recoveryQueue.slots =
        connection.recoveryQueue.slots.filter fun set => set.sequenceNumber ∉ numbers := by
  obtain ⟨numbers, decoded, result⟩ := Option.bind_eq_some_iff.mp success
  obtain rfl := Option.some.inj result
  exact ⟨numbers, decoded, rfl, KeyedArray.foldl_deduct_slots numbers connection.recoveryQueue⟩

theorem handleAck_sending {stream : List UInt8} {connection next : Connection}
    (server : RaknetServer) (success : handleAck stream connection = some next) :
    Sending (connection, server) (next, server) := by
  obtain ⟨numbers, _, same, slots⟩ := handleAck_slots success
  rw [same]
  refine sending_silent server rfl rfl fun set member => ?_
  rw [slots] at member
  exact List.mem_of_mem_filter member

theorem retransmit_sending (state : Connection × RaknetServer) (number : UInt32) :
    Sending state (retransmit state number) := by
  have deducted : ∀ set ∈ (state.1.recoveryQueue.deduct number).slots,
      set ∈ state.1.recoveryQueue.slots :=
    fun set member => ((KeyedArray.mem_deduct set number _).mp member).1
  cases finding : state.1.recoveryQueue.find number with
  | none =>
      rw [retransmit_absent (KeyedArray.find_none.mp finding)]
      exact Sending.refl state
  | some frameSet =>
      by_cases resendable : Resendable frameSet
      · rw [retransmit_resent finding resendable]
        exact sending_one state.1 state.2 frameSet.frames _ deducted
      · rw [retransmit_dropped finding resendable]
        exact sending_silent state.2 rfl rfl deducted

theorem handleNack_sending {stream : List UInt8} {connection : Connection}
    {server : RaknetServer} {next : Connection × RaknetServer}
    (success : handleNack stream connection server = some next) :
    Sending (connection, server) next := by
  obtain ⟨numbers, _, result⟩ := Option.bind_eq_some_iff.mp success
  obtain rfl := Option.some.inj result
  exact foldl_sending retransmit retransmit_sending numbers (connection, server)

theorem senderStep_sending {state next : Connection × RaknetServer} {event : SenderEvent}
    (stepped : senderStep state event = some next) : Sending state next := by
  cases event with
  | add frame => exact addToRaknetQueue_sending stepped
  | flush =>
      obtain rfl := Option.some.inj stepped
      exact sendRaknetQueue_sending _ _
  | ack stream =>
      obtain ⟨connection, handled, rfl⟩ := Option.map_eq_some_iff.mp stepped
      exact handleAck_sending state.2 handled
  | nack stream => exact handleNack_sending stepped

theorem run_sending {events : List SenderEvent} {state final : Connection × RaknetServer}
    (returned : run senderStep events state = some final) : Sending state final :=
  run_preserves (fun _ reached => Sending state reached)
    (fun _ _ _ _ before stepped => before.trans (senderStep_sending stepped)) events [] state final
    (Sending.refl state) returned

/-! ## Fresh connections -/

/-- Numbered from 0 on, fewer than `2 ^ 32` frame sets have the numbers below
the sender's. -/
theorem ledger_below {start server : RaknetServer} {address : MiscAddress}
    {connection : Connection} {sets : List PacketFrameSet}
    (ledger : Ledger start address 0 connection server sets) (fewer : sets.length < 2 ^ 32)
    {set : PacketFrameSet} (member : set ∈ sets) :
    set.sequenceNumber < connection.senderSequenceNumber := by
  have number : set.sequenceNumber ∈ sets.map PacketFrameSet.sequenceNumber :=
    List.mem_map_of_mem member
  rw [ledger.numbered] at number
  obtain ⟨i, inside, same⟩ := List.mem_map.mp number
  have early := List.mem_range.mp inside
  rw [ledger.next, ← same, UInt32.zero_add, UInt32.zero_add, UInt32.lt_iff_toNat_lt,
    UInt32.toNat_ofNat_of_lt' (by simp only [UInt32.size]; omega),
    UInt32.toNat_ofNat_of_lt' (by simp only [UInt32.size]; omega)]
  exact early

section Fresh

variable {address : MiscAddress} {mtuSize : UInt16} {server : RaknetServer}
  {events : List SenderEvent} {final : Connection × RaknetServer}

/-- What a fresh connection holds in its recovery queue it has sent. -/
theorem fresh_ledger
    (returned : run senderStep events (newConnection address mtuSize, server) = some final) :
    ∃ sets, Ledger server address 0 final.1 final.2 sets ∧
      ∀ set ∈ final.1.recoveryQueue.slots, set ∈ sets := by
  obtain ⟨sets, sends⟩ := run_sending returned
  refine ⟨sets, sends.toLedger, fun set member => ?_⟩
  rcases sends.kept set member with old | sent
  · exact absurd old List.not_mem_nil
  · exact sent

end Fresh

theorem recoveryQueue_run (address : MiscAddress) (mtuSize : UInt16) (server : RaknetServer)
    (events : List SenderEvent) (final : Connection × RaknetServer)
    (returned : run senderStep events (newConnection address mtuSize, server) = some final)
    (fewer : final.2.sent.length < server.sent.length + 2 ^ 32) :
    (final.1.recoveryQueue.slots.map PacketFrameSet.sequenceNumber).Nodup ∧
    (∀ set ∈ final.1.recoveryQueue.slots,
      set.sequenceNumber < final.1.senderSequenceNumber) ∧
    final.1.recoveryQueue.size = final.1.recoveryQueue.slots.length ∧
    ∀ stream numbers, acknowledgedNumbers stream = some numbers →
      ∃ next, handleAck stream final.1 = some next ∧
        next = { final.1 with recoveryQueue := next.recoveryQueue } ∧
        next.recoveryQueue.slots =
          final.1.recoveryQueue.slots.filter fun set => set.sequenceNumber ∉ numbers := by
  obtain ⟨sets, ledger, recovered⟩ := fresh_ledger returned
  have counted : sets.length < 2 ^ 32 := by
    have lengths := congrArg List.length ledger.sent
    rw [List.length_append, List.length_map] at lengths
    omega
  refine ⟨final.1.recoveryQueue.distinct, fun set member =>
    ledger_below ledger counted (recovered set member), final.1.recoveryQueue.exact,
    fun stream numbers decoded => ?_⟩
  obtain ⟨next, handled⟩ : ∃ next, handleAck stream final.1 = some next :=
    ⟨_, Option.bind_eq_some_iff.mpr ⟨numbers, decoded, rfl⟩⟩
  obtain ⟨other, sameNumbers, same, slots⟩ := handleAck_slots handled
  obtain rfl := Option.some.inj (decoded.symm.trans sameNumbers)
  exact ⟨next, handled, same, slots⟩

/-- A message of one byte, sent at once. -/
def messageSent : List SenderEvent := [.add { stream := [0xfe] }, .flush]

def idleStart : Connection × RaknetServer := (newConnection ⟨4, [0x31], 19132⟩ 1400, {})

/-- Three frame sets, the second one sent again and the first one
acknowledged. -/
theorem recoveryQueue_run_three :
    ∃ final, run senderStep (messageSent ++ messageSent ++ messageSent ++
        [.nack [0xa0, 0, 1, 1, 1, 0, 0], .ack [0xc0, 0, 1, 1, 0, 0, 0]]) idleStart = some final ∧
      (final.1.recoveryQueue.slots.map PacketFrameSet.sequenceNumber).Nodup ∧
      (∀ set ∈ final.1.recoveryQueue.slots,
        set.sequenceNumber < final.1.senderSequenceNumber) ∧
      final.1.recoveryQueue.size = final.1.recoveryQueue.slots.length ∧
      ∀ stream numbers, acknowledgedNumbers stream = some numbers →
        ∃ next, handleAck stream final.1 = some next ∧
          next = { final.1 with recoveryQueue := next.recoveryQueue } ∧
          next.recoveryQueue.slots =
            final.1.recoveryQueue.slots.filter fun set => set.sequenceNumber ∉ numbers := by
  have computed : (run senderStep (messageSent ++ messageSent ++ messageSent ++
      [.nack [0xa0, 0, 1, 1, 1, 0, 0], .ack [0xc0, 0, 1, 1, 0, 0, 0]]) idleStart).map
        (fun state => state.2.sent.length) = some 4 := by decide
  obtain ⟨final, returned, counted⟩ := Option.map_eq_some_iff.mp computed
  refine ⟨final, returned, recoveryQueue_run ⟨4, [0x31], 19132⟩ 1400 {} _ final returned ?_⟩
  rw [counted]
  decide

/-! ## Acknowledging by the number on the wire -/

/-- What an ACK removes it lists, so it has a number that 24 bits hold. -/
theorem handleAck_removed {stream : List UInt8} {connection next : Connection}
    {set : PacketFrameSet} {listed : List UInt32}
    (listing : listedNumbers stream = some listed)
    (handled : handleAck stream connection = some next)
    (member : set ∈ connection.recoveryQueue.slots) (removed : set ∉ next.recoveryQueue.slots) :
    set.sequenceNumber.toNat < 2 ^ 24 ∧ set.sequenceNumber ∈ afterWrap listed := by
  obtain ⟨numbers, decoded, _, slots⟩ := handleAck_slots handled
  obtain ⟨⟨packet, rest⟩, read, values⟩ := Option.bind_eq_some_iff.mp decoded
  obtain rfl := read_afterWrap read values listing
  have named : set.sequenceNumber ∈ afterWrap listed := by
    by_contra unnamed
    apply removed
    rw [slots]
    exact List.mem_filter.mpr ⟨member, decide_eq_true unnamed⟩
  exact ⟨listedNumbers_lt listing _ (List.mem_of_mem_drop named), named⟩

/-- The frame set an ACK of its wire number names is removed exactly when the
records leave the decoder inside its array, the number is one that 24 bits hold,
and it is listed after the last wrap of the decoder's count. -/
theorem handleAck_removes_iff (stream rest : List UInt8) (records : List AckRecord)
    (connection : Connection) (set : PacketFrameSet)
    (member : set ∈ connection.recoveryQueue.slots)
    (long : readRecords stream = some (records, rest)) :
    (∃ next, handleAck stream connection = some next ∧ set ∉ next.recoveryQueue.slots) ↔
      EndsWritten 0 True records ∧ set.sequenceNumber.toNat < 2 ^ 24 ∧
        wireNumber set.sequenceNumber ∈ afterWrap (records.flatMap recordNumbers) := by
  have listing := listedNumbers_of_records long
  rw [← acknowledgedNumbers_isSome_iff long]
  constructor
  · intro removes
    rcases removes with ⟨next, handled, removed⟩
    obtain ⟨numbers, decoded, _⟩ := handleAck_slots handled
    obtain ⟨small, named⟩ := handleAck_removed listing handled member removed
    refine ⟨Option.isSome_iff_exists.mpr ⟨numbers, decoded⟩, small, ?_⟩
    rwa [wireNumber_small small]
  · rintro ⟨decodes, small, named⟩
    obtain ⟨numbers, decoded⟩ := Option.isSome_iff_exists.mp decodes
    obtain ⟨⟨packet, rest⟩, read, values⟩ := Option.bind_eq_some_iff.mp decoded
    obtain rfl := read_afterWrap read values listing
    refine ⟨_, Option.bind_eq_some_iff.mpr ⟨_, decoded, rfl⟩, fun still => ?_⟩
    dsimp only at still
    rw [KeyedArray.foldl_deduct_slots, List.mem_filter, decide_eq_true_iff] at still
    rw [wireNumber_small small] at named
    exact still.2 named

theorem handleAck_removes_second :
    (∃ next, handleAck [0xc0, 0, 1, 1, 1, 0, 0] (afterSending 2).1 = some next ∧
        (⟨1, [{ stream := [0xfe] }]⟩ : PacketFrameSet) ∉ next.recoveryQueue.slots) ↔
      EndsWritten 0 True [.single 1] ∧ (1 : UInt32).toNat < 2 ^ 24 ∧ wireNumber 1 ∈ afterWrap [1] :=
  handleAck_removes_iff [0xc0, 0, 1, 1, 1, 0, 0] [] [.single 1] (afterSending 2).1
    ⟨1, [{ stream := [0xfe] }]⟩ (by decide) rfl

/-! ## A number past the 24 bits -/

/-- Nothing is pending, and `count` numbers are used. -/
structure Idle (count : Nat) (state : Connection × RaknetServer) : Prop where
  mtuSize : state.1.mtuSize = 1400
  pending : state.1.queue.frames = []
  number : state.1.senderSequenceNumber = UInt32.ofNat count

theorem messageSent_idle {count : Nat} {state : Connection × RaknetServer}
    (idle : Idle count state) :
    ∃ next, run senderStep messageSent state = some next ∧ Idle (count + 1) next ∧
      ∃ set ∈ next.1.recoveryQueue.slots, set.sequenceNumber = UInt32.ofNat count := by
  have added : addToRaknetQueue { stream := [0xfe] } state.1 state.2 =
      some (pushFrame { stream := [0xfe] } state.1, state.2) := by
    simp [addToRaknetQueue, indexFrame, isSequenced, isOrdered, isReliable, addWhole,
      countReliable, numberReliable, appendRaknetFrame, flushIfFull, queueSize, idle.mtuSize,
      idle.pending, maxSize, queueLimit, getFrameSize, reliabilityUnreliableSequenced,
      reliabilityReliableSequenced, reliabilityReliableOrdered, reliabilityReliable,
      reliabilityReliableWithAckReceipt, reliabilityReliableOrderedWithAckReceipt]
  have pushed : (pushFrame { stream := [0xfe] } state.1).queue.frames.length > 0 := by
    simp [pushFrame]
  have returned : run senderStep messageSent state =
      some (sendRaknetQueue (pushFrame { stream := [0xfe] } state.1) state.2) := by
    simp only [messageSent, run, senderStep, added, Option.bind_eq_bind, Option.bind_some]
  refine ⟨_, returned, ?_⟩
  simp only [sendRaknetQueue, if_pos pushed]
  refine ⟨⟨idle.mtuSize, rfl, ?_⟩, ?_⟩
  · rw [UInt32.ofNat_add, ← idle.number]
    rfl
  · let queue : PacketFrameSet := { (pushFrame { stream := [0xfe] } state.1).queue with
      sequenceNumber := state.1.senderSequenceNumber }
    obtain ⟨set, member, same⟩ := state.1.recoveryQueue.key_append queue
    exact ⟨set, member, same.trans idle.number⟩

theorem run_messages (count : Nat) :
    ∃ final, run senderStep (List.replicate count messageSent).flatten idleStart = some final ∧
      Idle count final := by
  induction count with
  | zero => exact ⟨idleStart, rfl, rfl, rfl, rfl⟩
  | succ count ih =>
      rcases ih with ⟨state, reached, idle⟩
      obtain ⟨next, stepped, nextIdle, _⟩ := messageSent_idle idle
      refine ⟨next, ?_, nextIdle⟩
      rw [List.replicate_succ', List.flatten_append, List.flatten_singleton, run_append, reached]
      exact stepped

/-- The frame set numbered `2 ^ 24` goes out as number 0, and stays when number
0 is acknowledged. -/
theorem handleAck_past24_kept :
    ¬ ∀ (events : List SenderEvent) (final : Connection × RaknetServer) (set : PacketFrameSet)
      (stream : List UInt8) (listed : List UInt32),
      run senderStep events (newConnection ⟨4, [0x31], 19132⟩ 1400, {}) = some final →
      set ∈ final.1.recoveryQueue.slots → listedNumbers stream = some listed →
      wireNumber set.sequenceNumber ∈ listed →
      ∃ next, handleAck stream final.1 = some next ∧ set ∉ next.recoveryQueue.slots := by
  intro removes
  obtain ⟨state, reached, idle⟩ := run_messages (2 ^ 24)
  obtain ⟨final, stepped, _, set, member, number⟩ := messageSent_idle idle
  have returned : run senderStep ((List.replicate (2 ^ 24) messageSent).flatten ++ messageSent)
      idleStart = some final := by
    rw [run_append, reached]
    exact stepped
  have listing : listedNumbers [0xc0, 0, 1, 1, 0, 0, 0] = some [0] := by decide
  have large : set.sequenceNumber.toNat = 2 ^ 24 := by
    rw [number, UInt32.toNat_ofNat_of_lt' (by decide)]
  have carried : wireNumber set.sequenceNumber ∈ [(0 : UInt32)] := by
    rw [wireNumber, large]
    decide
  obtain ⟨next, handled, removed⟩ := removes _ final set _ _ returned member listing carried
  have small := (handleAck_removed listing handled member removed).1
  rw [large] at small
  exact absurd small (Nat.lt_irrefl _)

end PodrumRakNet.Recovery
