import PodrumFormal.RakNet.Handler
import PodrumFormal.RakNet.RecordCells

/-!
# What a NACK does to the recovery queue

The loop of `handle_nack` keeps the frame sets that are not listed, renumbers
and sends the listed ones, and drops a listed one that looks like the sentinel
of `pop_raknet_recovery_queue`: number 0, or no frames.
-/

set_option autoImplicit false

namespace PodrumRakNet.NackRecovery

open PodrumRakNet.Frame PodrumRakNet.FrameSet PodrumRakNet.Packet PodrumRakNet.Connections
open PodrumRakNet.SendQueue PodrumRakNet.Handler PodrumRakNet.Acknowledge
open PodrumRakNet.AcknowledgeListing PodrumRakNet.RecordCells

/-- The test that `handle_nack` makes on what it popped. -/
def Resendable (frameSet : PacketFrameSet) : Prop :=
  frameSet.sequenceNumber ≠ 0 ∧ frameSet.frames.length ≠ 0

/-- A frame set and the number it is sent again under. -/
def renumbered (entry : PacketFrameSet × UInt32) : PacketFrameSet :=
  { entry.1 with sequenceNumber := entry.2 }

/-! ## One turn -/

section Turn

variable {state : Connection × RaknetServer} {number : UInt32} {frameSet : PacketFrameSet}

theorem retransmit_absent
    (absent : number ∉ state.1.recoveryQueue.slots.map PacketFrameSet.sequenceNumber) :
    retransmit state number = state := by
  have missing := KeyedArray.find_none.mpr absent
  simp [retransmit, popRaknetRecoveryQueue, KeyedArray.pop, missing,
    KeyedArray.deduct_absent absent]

theorem retransmit_dropped (found : state.1.recoveryQueue.find number = some frameSet)
    (dropped : ¬ Resendable frameSet) :
    retransmit state number =
      ({ state.1 with recoveryQueue := state.1.recoveryQueue.deduct number }, state.2) := by
  simp only [retransmit, popRaknetRecoveryQueue, KeyedArray.pop, found, Option.getD_some]
  exact if_neg dropped

theorem retransmit_resent (found : state.1.recoveryQueue.find number = some frameSet)
    (resendable : Resendable frameSet) :
    retransmit state number =
      ({ state.1 with
          recoveryQueue := (state.1.recoveryQueue.deduct number).append
            (renumbered (frameSet, state.1.senderSequenceNumber))
          senderSequenceNumber := state.1.senderSequenceNumber + 1 },
        sendData state.1.address
          (.frameSet (renumbered (frameSet, state.1.senderSequenceNumber))) state.2) := by
  simp only [retransmit, popRaknetRecoveryQueue, KeyedArray.pop, found, Option.getD_some]
  exact if_pos resendable

end Turn

/-! ## The loop -/

/-- The state after the numbers in `done`: `resent` are the frame sets sent
again, with their new numbers. -/
structure Retransmitted (start : Connection × RaknetServer) (done : List UInt32)
    (resent : List (PacketFrameSet × UInt32)) (state : Connection × RaknetServer) : Prop where
  slots : state.1.recoveryQueue.slots =
    (start.1.recoveryQueue.slots.filter fun set => set.sequenceNumber ∉ done) ++
      resent.map renumbered
  distinct : (resent.map Prod.fst).Nodup
  members : ∀ set, set ∈ resent.map Prod.fst ↔
    set ∈ start.1.recoveryQueue.slots ∧ set.sequenceNumber ∈ done ∧ Resendable set
  numbers : resent.map Prod.snd =
    (List.range resent.length).map fun i => start.1.senderSequenceNumber + UInt32.ofNat i
  next : state.1.senderSequenceNumber =
    start.1.senderSequenceNumber + UInt32.ofNat resent.length
  address : state.1.address = start.1.address
  sent : state.2.sent = start.2.sent ++
    resent.map fun entry => (start.1.address, Datagram.frameSet (renumbered entry))

theorem retransmitted_none (start : Connection × RaknetServer) :
    Retransmitted start [] [] start where
  slots := by simp
  distinct := List.nodup_nil
  members := by simp
  numbers := rfl
  next := by simp
  address := rfl
  sent := by simp

/-- The queue holds distinct numbers below the sender's, which is below `2 ^ 24`. -/
structure Below (connection : Connection) : Prop where
  numbers : ∀ set ∈ connection.recoveryQueue.slots,
    set.sequenceNumber.toNat < connection.senderSequenceNumber.toNat
  sender : connection.senderSequenceNumber.toNat < 2 ^ 24

theorem Below.slots_length {connection : Connection} (below : Below connection) :
    connection.recoveryQueue.slots.length ≤ connection.senderSequenceNumber.toNat := by
  have distinct := connection.recoveryQueue.distinct.map
    (f := UInt32.toNat) fun _ _ same => UInt32.toNat_inj.mp same
  have included : (connection.recoveryQueue.slots.map PacketFrameSet.sequenceNumber).map
      UInt32.toNat ⊆ List.range connection.senderSequenceNumber.toNat := by
    intro value member
    obtain ⟨number, numberMember, rfl⟩ := List.mem_map.mp member
    obtain ⟨set, setMember, rfl⟩ := List.mem_map.mp numberMember
    exact List.mem_range.mpr (below.numbers set setMember)
  simpa using (distinct.subperm included).length_le

section Loop

variable {start state : Connection × RaknetServer} {done : List UInt32}
  {resent : List (PacketFrameSet × UInt32)} {number : UInt32}

theorem Retransmitted.resent_length (holds : Retransmitted start done resent state) :
    resent.length ≤ start.1.recoveryQueue.slots.length := by
  have included : resent.map Prod.fst ⊆ start.1.recoveryQueue.slots :=
    fun set member => ((holds.members set).mp member).1
  simpa using (holds.distinct.subperm included).length_le

/-- New numbers count on from the sender's without wrapping. -/
theorem Retransmitted.fresh_toNat (below : Below start.1)
    (holds : Retransmitted start done resent state) {i : Nat} (inside : i ≤ resent.length) :
    (start.1.senderSequenceNumber + UInt32.ofNat i).toNat =
      start.1.senderSequenceNumber.toNat + i := by
  have bound := Nat.le_trans inside (Nat.le_trans holds.resent_length below.slots_length)
  have small := below.sender
  rw [UInt32.toNat_add, UInt32.toNat_ofNat_of_lt' (by simp only [UInt32.size]; omega),
    Nat.mod_eq_of_lt (by omega)]

theorem Retransmitted.fresh_above (below : Below start.1)
    (holds : Retransmitted start done resent state) {fresh : UInt32}
    (member : fresh ∈ resent.map Prod.snd) :
    start.1.senderSequenceNumber.toNat ≤ fresh.toNat ∧
      fresh.toNat < start.1.senderSequenceNumber.toNat + resent.length := by
  rw [holds.numbers] at member
  obtain ⟨i, inside, rfl⟩ := List.mem_map.mp member
  have early := List.mem_range.mp inside
  rw [holds.fresh_toNat below (Nat.le_of_lt early)]
  omega

/-- What is still found under an old number was there at the start. -/
theorem Retransmitted.found (below : Below start.1)
    (holds : Retransmitted start done resent state)
    (old : number.toNat < start.1.senderSequenceNumber.toNat) (set : PacketFrameSet) :
    (set ∈ state.1.recoveryQueue.slots ∧ set.sequenceNumber = number) ↔
      set ∈ start.1.recoveryQueue.slots ∧ set.sequenceNumber = number ∧ number ∉ done := by
  rw [holds.slots, List.mem_append, List.mem_filter, decide_eq_true_iff]
  constructor
  · rintro ⟨⟨member, kept⟩ | again, same⟩
    · exact ⟨member, same, same ▸ kept⟩
    · obtain ⟨entry, entryMember, rfl⟩ := List.mem_map.mp again
      have above := (holds.fresh_above below (List.mem_map_of_mem entryMember)).1
      simp only [renumbered] at same
      rw [same] at above
      omega
  · rintro ⟨member, same, notDone⟩
    exact ⟨Or.inl ⟨member, same ▸ notDone⟩, same⟩

/-- The queue without that number. -/
theorem Retransmitted.deducted (below : Below start.1)
    (holds : Retransmitted start done resent state)
    (old : number.toNat < start.1.senderSequenceNumber.toNat) :
    (state.1.recoveryQueue.deduct number).slots =
      (start.1.recoveryQueue.slots.filter fun set => set.sequenceNumber ∉ done ++ [number]) ++
        resent.map renumbered := by
  rw [KeyedArray.deduct_slots, holds.slots, List.filter_append, List.filter_filter]
  congr 1
  · apply List.filter_congr
    intro set _
    simp only [List.mem_append, List.mem_singleton, not_or]
    by_cases same : set.sequenceNumber = number <;> simp [same]
  · apply List.filter_eq_self.mpr
    intro set member
    apply decide_eq_true
    obtain ⟨entry, entryMember, rfl⟩ := List.mem_map.mp member
    have above := (holds.fresh_above below (List.mem_map_of_mem entryMember)).1
    rintro same
    simp only [renumbered] at same
    rw [same] at above
    omega

/-- A number that sends nothing again leaves the same frame sets sent. -/
theorem Retransmitted.members_silent (holds : Retransmitted start done resent state)
    (silent : ∀ set ∈ start.1.recoveryQueue.slots, set.sequenceNumber = number →
      Resendable set → number ∈ done) (set : PacketFrameSet) :
    set ∈ resent.map Prod.fst ↔
      set ∈ start.1.recoveryQueue.slots ∧ set.sequenceNumber ∈ done ++ [number] ∧
        Resendable set := by
  rw [holds.members, List.mem_append, List.mem_singleton]
  constructor
  · rintro ⟨member, listed, resendable⟩
    exact ⟨member, Or.inl listed, resendable⟩
  · rintro ⟨member, listed | same, resendable⟩
    · exact ⟨member, listed, resendable⟩
    · exact ⟨member, same ▸ silent set member same resendable, resendable⟩

theorem Retransmitted.turn_absent (below : Below start.1)
    (holds : Retransmitted start done resent state)
    (old : number.toNat < start.1.senderSequenceNumber.toNat)
    (finding : state.1.recoveryQueue.find number = none) :
    Retransmitted start (done ++ [number]) resent (retransmit state number) := by
  have absent := KeyedArray.find_none.mp finding
  rw [retransmit_absent absent]
  refine { holds with slots := ?_, members := holds.members_silent ?_ }
  · rw [← KeyedArray.deduct_absent absent]
    exact holds.deducted below old
  · intro set member same _
    by_contra notDone
    have here := (holds.found below old set).mpr ⟨member, same, notDone⟩
    exact absent (List.mem_map.mpr ⟨set, here⟩)

section Found

variable {frameSet : PacketFrameSet}

/-- The frame set found under a number is the only one there was with it. -/
theorem Retransmitted.found_only (below : Below start.1)
    (holds : Retransmitted start done resent state)
    (old : number.toNat < start.1.senderSequenceNumber.toNat)
    (finding : state.1.recoveryQueue.find number = some frameSet) {set : PacketFrameSet}
    (member : set ∈ start.1.recoveryQueue.slots) (sameNumber : set.sequenceNumber = number) :
    set = frameSet := by
  obtain ⟨startMember, same, _⟩ :=
    (holds.found below old frameSet).mp (KeyedArray.find_some finding)
  exact List.inj_on_of_nodup_map start.1.recoveryQueue.distinct member startMember
    (sameNumber.trans same.symm)

theorem Retransmitted.turn_dropped (below : Below start.1)
    (holds : Retransmitted start done resent state)
    (old : number.toNat < start.1.senderSequenceNumber.toNat)
    (finding : state.1.recoveryQueue.find number = some frameSet)
    (dropped : ¬ Resendable frameSet) :
    Retransmitted start (done ++ [number]) resent (retransmit state number) := by
  rw [retransmit_dropped finding dropped]
  refine { holds with slots := holds.deducted below old, members := holds.members_silent ?_ }
  intro set member same resendable
  exact absurd (holds.found_only below old finding member same ▸ resendable) dropped

/-- The sender's number is above every number of the queue. -/
theorem Retransmitted.sender_unused (below : Below start.1)
    (holds : Retransmitted start done resent state)
    (old : number.toNat < start.1.senderSequenceNumber.toNat) :
    state.1.senderSequenceNumber ∉
      (state.1.recoveryQueue.deduct number).slots.map PacketFrameSet.sequenceNumber := by
  have fresh := holds.fresh_toNat below (Nat.le_refl resent.length)
  rw [holds.deducted below old, holds.next]
  intro used
  obtain ⟨set, member, sameNumber⟩ := List.mem_map.mp used
  rcases List.mem_append.mp member with kept | again
  · have oldNumber := below.numbers set (List.mem_of_mem_filter kept)
    rw [sameNumber] at oldNumber
    omega
  · obtain ⟨entry, entryMember, rfl⟩ := List.mem_map.mp again
    have before := (holds.fresh_above below (List.mem_map_of_mem entryMember)).2
    simp only [renumbered] at sameNumber
    rw [sameNumber] at before
    omega

theorem Retransmitted.turn_resent (below : Below start.1)
    (holds : Retransmitted start done resent state)
    (old : number.toNat < start.1.senderSequenceNumber.toNat)
    (finding : state.1.recoveryQueue.find number = some frameSet)
    (resendable : Resendable frameSet) :
    Retransmitted start (done ++ [number])
      (resent ++ [(frameSet, state.1.senderSequenceNumber)]) (retransmit state number) := by
  obtain ⟨startMember, same, notDone⟩ :=
    (holds.found below old frameSet).mp (KeyedArray.find_some finding)
  rw [retransmit_resent finding resendable]
  refine ⟨?slots, ?distinct, ?members, ?numbers, ?next, holds.address, ?sent⟩
  case slots =>
    rw [KeyedArray.append_slots_absent (holds.sender_unused below old), holds.deducted below old]
    simp
  case distinct =>
    rw [List.map_append, List.map_singleton]
    apply holds.distinct.append (List.nodup_singleton _)
    rw [List.disjoint_singleton]
    intro member
    exact notDone (same ▸ ((holds.members frameSet).mp member).2.1)
  case members =>
    intro set
    rw [List.map_append, List.map_singleton, List.mem_append, List.mem_singleton,
      holds.members, List.mem_append, List.mem_singleton]
    constructor
    · intro either
      rcases either with ⟨member, listed, able⟩ | rfl
      · exact ⟨member, Or.inl listed, able⟩
      · exact ⟨startMember, Or.inr same, resendable⟩
    · rintro ⟨member, listed | sameNumber, able⟩
      · exact Or.inl ⟨member, listed, able⟩
      · exact Or.inr (holds.found_only below old finding member sameNumber)
  case numbers =>
    rw [List.map_append, holds.numbers, List.length_append, List.length_singleton,
      List.range_succ, List.map_append, holds.next]
    rfl
  case next =>
    rw [holds.next, List.length_append, List.length_singleton, UInt32.ofNat_add,
      UInt32.add_assoc]
    rfl
  case sent =>
    simp [sendData, holds.sent, holds.address]

end Found

/-- One turn with an old number keeps the description of the state. -/
theorem Retransmitted.turn (below : Below start.1)
    (holds : Retransmitted start done resent state)
    (old : number.toNat < start.1.senderSequenceNumber.toNat) :
    ∃ after, Retransmitted start (done ++ [number]) after (retransmit state number) := by
  cases finding : state.1.recoveryQueue.find number with
  | none => exact ⟨resent, holds.turn_absent below old finding⟩
  | some frameSet =>
      by_cases resendable : Resendable frameSet
      · exact ⟨_, holds.turn_resent below old finding resendable⟩
      · exact ⟨resent, holds.turn_dropped below old finding resendable⟩

/-- Induction on the numbers still to come. -/
theorem foldl_retransmit (below : Below start.1) : ∀ (numbers done : List UInt32)
    (resent : List (PacketFrameSet × UInt32)) (state : Connection × RaknetServer),
    Retransmitted start done resent state →
    (∀ number ∈ numbers, number.toNat < start.1.senderSequenceNumber.toNat) →
    ∃ after, Retransmitted start (done ++ numbers) after (numbers.foldl retransmit state) := by
  intro numbers
  induction numbers with
  | nil =>
      intro done resent state holds _
      exact ⟨resent, by simpa using holds⟩
  | cons number rest ih =>
      intro done resent state holds old
      obtain ⟨middle, turned⟩ := holds.turn below (old number (List.mem_cons_self ..))
      obtain ⟨after, final⟩ := ih _ _ _ turned fun other member =>
        old other (List.mem_cons_of_mem _ member)
      exact ⟨after, by simpa using final⟩

end Loop

/-! ## Nothing is lost -/

def renamed (rename : UInt32 → UInt32) (frameSet : PacketFrameSet) : PacketFrameSet :=
  renumbered (frameSet, rename frameSet.sequenceNumber)

/-- Every frame set is still there with its frames, under its old number or, if
it was listed, under a fresh one; each listed one is sent once. -/
def NothingLost (listed : List UInt32) (before after : Connection × RaknetServer) : Prop :=
  ∃ (rename : UInt32 → UInt32) (resent : List PacketFrameSet),
    (∀ set ∈ before.1.recoveryQueue.slots, set.sequenceNumber ∉ listed →
      rename set.sequenceNumber = set.sequenceNumber) ∧
    (∀ set ∈ before.1.recoveryQueue.slots, set.sequenceNumber ∈ listed →
      before.1.senderSequenceNumber.toNat ≤ (rename set.sequenceNumber).toNat) ∧
    after.1.recoveryQueue.slots.Perm (before.1.recoveryQueue.slots.map (renamed rename)) ∧
    after.2.sent = before.2.sent ++
      resent.map (fun set => (before.1.address, Datagram.frameSet set)) ∧
    resent.Perm ((before.1.recoveryQueue.slots.filter fun set =>
      set.sequenceNumber ∈ listed).map (renamed rename))

/-- The new number of what was sent again, the old number of the rest. -/
def newNumber (resent : List (PacketFrameSet × UInt32)) (number : UInt32) : UInt32 :=
  ((resent.find? fun entry => entry.1.sequenceNumber = number).map Prod.snd).getD number

theorem slots_nodup (connection : Connection) : connection.recoveryQueue.slots.Nodup :=
  List.Nodup.of_map _ connection.recoveryQueue.distinct

section Final

variable {start final : Connection × RaknetServer} {returned : List UInt32}
  {resent : List (PacketFrameSet × UInt32)}

theorem Retransmitted.newNumber_resent (holds : Retransmitted start returned resent final)
    {entry : PacketFrameSet × UInt32} (member : entry ∈ resent) :
    newNumber resent entry.1.sequenceNumber = entry.2 := by
  cases finding : resent.find? fun other =>
      other.1.sequenceNumber = entry.1.sequenceNumber with
  | none =>
      have missed := List.find?_eq_none.mp finding entry member
      simp at missed
  | some other =>
      have otherMember := List.mem_of_find?_eq_some finding
      have sameNumber : other.1.sequenceNumber = entry.1.sequenceNumber := by
        simpa using List.find?_some finding
      have inSlots (pair : PacketFrameSet × UInt32) (inResent : pair ∈ resent) :
          pair.1 ∈ start.1.recoveryQueue.slots :=
        ((holds.members _).mp (List.mem_map_of_mem inResent)).1
      have sameSet : other.1 = entry.1 :=
        List.inj_on_of_nodup_map start.1.recoveryQueue.distinct (inSlots other otherMember)
          (inSlots entry member) sameNumber
      have same := List.inj_on_of_nodup_map holds.distinct otherMember member sameSet
      rw [newNumber, finding, same]
      rfl

theorem Retransmitted.newNumber_kept (holds : Retransmitted start returned resent final)
    {number : UInt32} (kept : number ∉ returned) : newNumber resent number = number := by
  have missing : (resent.find? fun entry => entry.1.sequenceNumber = number) = none := by
    refine List.find?_eq_none.mpr fun entry member same => kept ?_
    have listed := ((holds.members _).mp (List.mem_map_of_mem member)).2.1
    rwa [of_decide_eq_true same] at listed
  rw [newNumber, missing]
  rfl

/-- With every popped frame set resendable, those sent again are the ones the
numbers name. -/
theorem Retransmitted.resent_perm (holds : Retransmitted start returned resent final)
    (resendable : ∀ set ∈ start.1.recoveryQueue.slots, set.sequenceNumber ∈ returned →
      Resendable set) :
    (resent.map Prod.fst).Perm
      (start.1.recoveryQueue.slots.filter fun set => set.sequenceNumber ∈ returned) := by
  apply (List.perm_ext_iff_of_nodup holds.distinct ((slots_nodup start.1).filter _)).mpr
  intro set
  rw [holds.members, List.mem_filter, decide_eq_true_iff]
  constructor
  · rintro ⟨member, listed, _⟩
    exact ⟨member, listed⟩
  · rintro ⟨member, listed⟩
    exact ⟨member, listed, resendable set member listed⟩

theorem Retransmitted.renamed_resent (holds : Retransmitted start returned resent final) :
    resent.map renumbered = (resent.map Prod.fst).map (renamed (newNumber resent)) := by
  rw [List.map_map]
  apply List.map_congr_left
  intro entry member
  simp only [Function.comp_apply, renamed, holds.newNumber_resent member]

theorem slots_split (slots : List PacketFrameSet) (returned : List UInt32) :
    ((slots.filter fun set => set.sequenceNumber ∉ returned) ++
      slots.filter fun set => set.sequenceNumber ∈ returned).Perm slots := by
  have parts := List.filter_append_perm
    (fun set : PacketFrameSet => decide (set.sequenceNumber ∉ returned)) slots
  simpa using parts

theorem Retransmitted.nothingLost (below : Below start.1)
    (holds : Retransmitted start returned resent final) {listed : List UInt32}
    (complete : ∀ set ∈ start.1.recoveryQueue.slots,
      set.sequenceNumber ∈ returned ↔ set.sequenceNumber ∈ listed)
    (resendable : ∀ set ∈ start.1.recoveryQueue.slots, set.sequenceNumber ∈ returned →
      Resendable set) : NothingLost listed start final := by
  have sameSets := holds.resent_perm resendable
  have sameFilter : (start.1.recoveryQueue.slots.filter fun set =>
      set.sequenceNumber ∈ listed) =
      start.1.recoveryQueue.slots.filter fun set => set.sequenceNumber ∈ returned :=
    List.filter_congr fun set member => by simp only [complete set member]
  refine ⟨newNumber resent, resent.map renumbered, ?_, ?_, ?_, ?_, ?_⟩
  · intro set member unlisted
    exact holds.newNumber_kept fun again => unlisted ((complete set member).mp again)
  · intro set member setListed
    have again : set ∈ resent.map Prod.fst := by
      rw [sameSets.mem_iff, List.mem_filter, decide_eq_true_iff]
      exact ⟨member, (complete set member).mpr setListed⟩
    obtain ⟨entry, entryMember, rfl⟩ := List.mem_map.mp again
    rw [holds.newNumber_resent entryMember]
    exact (holds.fresh_above below (List.mem_map_of_mem entryMember)).1
  · have kept : (start.1.recoveryQueue.slots.filter fun set =>
        set.sequenceNumber ∉ returned).map (renamed (newNumber resent)) =
        start.1.recoveryQueue.slots.filter fun set => set.sequenceNumber ∉ returned := by
      refine (List.map_congr_left fun set member => ?_).trans (List.map_id _)
      have unlisted := of_decide_eq_true (List.mem_filter.mp member).2
      simp [renamed, renumbered, holds.newNumber_kept unlisted]
    rw [holds.slots, ← kept, holds.renamed_resent, ← List.map_append]
    exact (((sameSets.append_left _).trans (slots_split _ returned)).map _)
  · rw [holds.sent, List.map_map]
    rfl
  · rw [sameFilter, holds.renamed_resent]
    exact sameSets.map _

/-- Nothing can be lost only if nothing that was popped was dropped. -/
theorem Retransmitted.resendable_of_nothingLost
    (holds : Retransmitted start returned resent final) {listed : List UInt32}
    (lossless : NothingLost listed start final) :
    ∀ set ∈ start.1.recoveryQueue.slots, set.sequenceNumber ∈ returned → Resendable set := by
  obtain ⟨rename, again, _, _, same, _, _⟩ := lossless
  have lengths := same.length_eq
  have parts := (slots_split start.1.recoveryQueue.slots returned).length_eq
  rw [holds.slots, List.length_append, List.length_map, List.length_map] at lengths
  rw [List.length_append] at parts
  have included : resent.map Prod.fst ⊆
      start.1.recoveryQueue.slots.filter fun set => set.sequenceNumber ∈ returned := by
    intro set member
    obtain ⟨inSlots, number, _⟩ := (holds.members set).mp member
    exact List.mem_filter.mpr ⟨inSlots, decide_eq_true number⟩
  have all := (holds.distinct.subperm included).perm_of_length_le (by
    rw [List.length_map]
    omega)
  intro set member number
  have inResent : set ∈ resent.map Prod.fst :=
    all.mem_iff.mpr (List.mem_filter.mpr ⟨member, decide_eq_true number⟩)
  exact ((holds.members set).mp inResent).2.2

/-- And only if every listed frame set was popped. -/
theorem Retransmitted.returned_of_nothingLost (below : Below start.1)
    (holds : Retransmitted start returned resent final) {listed : List UInt32}
    (lossless : NothingLost listed start final) :
    ∀ set ∈ start.1.recoveryQueue.slots, set.sequenceNumber ∈ listed →
      set.sequenceNumber ∈ returned := by
  obtain ⟨rename, again, kept, fresh, same, _, _⟩ := lossless
  intro set member setListed
  by_contra missed
  have stays : set ∈ final.1.recoveryQueue.slots := by
    rw [holds.slots]
    exact List.mem_append_left _ (List.mem_filter.mpr ⟨member, decide_eq_true missed⟩)
  obtain ⟨other, otherMember, equal⟩ := List.mem_map.mp (same.mem_iff.mp stays)
  have sameNumber : rename other.sequenceNumber = set.sequenceNumber := by
    rw [← equal]
    rfl
  by_cases otherListed : other.sequenceNumber ∈ listed
  · have above := fresh other otherMember otherListed
    have old := below.numbers set member
    rw [sameNumber] at above
    omega
  · rw [kept other otherMember otherListed] at sameNumber
    exact otherListed (sameNumber ▸ setListed)

end Final

/-- The handlers go through the numbers exactly where the decoder stays inside
the datagram and its array, and they read what it wrote. -/
theorem acknowledgedNumbers_isSome_iff {stream rest : List UInt8} {records : List AckRecord}
    (long : readRecords stream = some (records, rest)) :
    (acknowledgedNumbers stream).isSome ↔ EndsWritten 0 True records := by
  rw [← getPacketAcknowledge_reads_iff long]
  constructor
  · intro decodes
    obtain ⟨numbers, decoded⟩ := Option.isSome_iff_exists.mp decodes
    obtain ⟨⟨packet, after⟩, read, values⟩ := Option.bind_eq_some_iff.mp decoded
    obtain ⟨others, again, -⟩ := getPacketAcknowledge_records read
    rw [long] at again
    cases again
    exact ⟨packet, read, Option.isSome_iff_exists.mpr ⟨numbers, values⟩⟩
  · rintro ⟨packet, read, reads⟩
    obtain ⟨numbers, values⟩ := Option.isSome_iff_exists.mp reads
    exact Option.isSome_iff_exists.mpr ⟨numbers, Option.bind_eq_some_iff.mpr ⟨_, read, values⟩⟩

/-- Exactly when a NACK loses nothing: its records leave the decoder inside the
array, and every listed frame set has a number other than 0, has frames, and is
listed after the last wrap of the decoder's count. -/
theorem handleNack_nothingLost_iff (stream rest : List UInt8) (records : List AckRecord)
    (connection : Connection) (server : RaknetServer) (below : Below connection)
    (long : readRecords stream = some (records, rest))
    (old : ∀ number ∈ records.flatMap recordNumbers,
      number.toNat < connection.senderSequenceNumber.toNat) :
    (∃ final, handleNack stream connection server = some final ∧
      NothingLost (records.flatMap recordNumbers) (connection, server) final) ↔
    EndsWritten 0 True records ∧
      ∀ set ∈ connection.recoveryQueue.slots,
        set.sequenceNumber ∈ records.flatMap recordNumbers →
        set.sequenceNumber ≠ 0 ∧ set.frames.length ≠ 0 ∧
          set.sequenceNumber ∈ afterWrap (records.flatMap recordNumbers) := by
  rw [← acknowledgedNumbers_isSome_iff long]
  have listing := listedNumbers_of_records long
  generalize records.flatMap recordNumbers = listed at listing old ⊢
  have decoder (returned : List UInt32) (decoded : acknowledgedNumbers stream = some returned) :
      returned = afterWrap listed := by
    obtain ⟨⟨packet, rest⟩, read, values⟩ := Option.bind_eq_some_iff.mp decoded
    exact read_afterWrap read values listing
  have stillListed : ∀ number ∈ afterWrap listed, number ∈ listed :=
    fun number member => List.mem_of_mem_drop member
  obtain ⟨resent, holds⟩ : ∃ resent, Retransmitted (connection, server) (afterWrap listed) resent
      ((afterWrap listed).foldl retransmit (connection, server)) :=
    @foldl_retransmit (connection, server) below (afterWrap listed) [] [] _
      (retransmitted_none _) fun number member => old number (stillListed number member)
  constructor
  · rintro ⟨final, success, lossless⟩
    obtain ⟨returned, decoded, result⟩ := Option.bind_eq_some_iff.mp success
    obtain rfl := decoder returned decoded
    obtain rfl := Option.some.inj result
    refine ⟨Option.isSome_iff_exists.mpr ⟨_, decoded⟩, fun set member setListed => ?_⟩
    have number := holds.returned_of_nothingLost below lossless set member setListed
    obtain ⟨nonzero, frames⟩ := holds.resendable_of_nothingLost lossless set member number
    exact ⟨nonzero, frames, number⟩
  · rintro ⟨decodes, recoverable⟩
    obtain ⟨returned, decoded⟩ := Option.isSome_iff_exists.mp decodes
    obtain rfl := decoder returned decoded
    refine ⟨_, Option.bind_eq_some_iff.mpr ⟨_, decoded, rfl⟩, ?_⟩
    refine holds.nothingLost below ?_ ?_
    · intro set member
      exact ⟨stillListed _, fun setListed => (recoverable set member setListed).2.2⟩
    · intro set member number
      have conditions := recoverable set member (stillListed _ number)
      exact ⟨conditions.1, conditions.2.1⟩

/-- A connection that has sent its first `count` frame sets, one frame each. -/
def afterSending : Nat → Connection × RaknetServer
  | 0 => (newConnection ⟨4, [0x31], 19132⟩ 1400, {})
  | count + 1 =>
      let sent := afterSending count
      sendRaknetQueue (pushFrame { stream := [0xfe] } sent.1) sent.2

theorem handleNack_second :
    ∃ final, handleNack [0xa0, 0, 1, 1, 1, 0, 0] (afterSending 2).1 (afterSending 2).2 =
        some final ∧ NothingLost [1] ((afterSending 2).1, (afterSending 2).2) final :=
  (handleNack_nothingLost_iff [0xa0, 0, 1, 1, 1, 0, 0] [] [.single 1] (afterSending 2).1
    (afterSending 2).2 ⟨by decide, by decide⟩ rfl (List.forall_mem_singleton.mpr (by decide))).mpr
      ⟨by decide, by decide⟩

/-- Frame set 0 is popped and not put back. -/
theorem handleNack_first_lost :
    Below (afterSending 1).1 ∧ listedNumbers [0xa0, 0, 1, 1, 0, 0, 0] = some [0] ∧
      (0 : UInt32).toNat < (afterSending 1).1.senderSequenceNumber.toNat ∧
      ¬ ∃ final, handleNack [0xa0, 0, 1, 1, 0, 0, 0] (afterSending 1).1 (afterSending 1).2 =
          some final ∧ NothingLost [0] ((afterSending 1).1, (afterSending 1).2) final := by
  refine ⟨⟨by decide, by decide⟩, by decide, by decide, ?_⟩
  rintro ⟨final, success, rename, resent, _, _, same, _, _⟩
  have emptied : (handleNack [0xa0, 0, 1, 1, 0, 0, 0] (afterSending 1).1 (afterSending 1).2).map
      (fun state => state.1.recoveryQueue.slots.length) = some 0 := by decide
  rw [success] at emptied
  have none : final.1.recoveryQueue.slots.length = 0 := Option.some.inj emptied
  have lengths := same.length_eq
  rw [none, List.length_map] at lengths
  exact absurd lengths (by decide)

end PodrumRakNet.NackRecovery
