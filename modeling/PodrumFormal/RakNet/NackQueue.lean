import PodrumFormal.RakNet.ReceiveWindow

/-!
# The NACK queue over runs

The hole loop starts one past the number expected next, and a late number moves
the expected number back.  So the queue is exact only in runs without a gap,
and it lists a received number as soon as a later hole covers one.
-/

set_option autoImplicit false

namespace PodrumRakNet.NackQueue

open EventRun PodrumRakNet.Frame PodrumRakNet.FrameSet PodrumRakNet.Packet
open PodrumRakNet.Connections PodrumRakNet.SendQueue PodrumRakNet.SendLedger
open PodrumRakNet.Handler PodrumRakNet.ReceiveWindow

/-! ## One event -/

section Event

variable {environment : Environment} {state next : Connection × RaknetServer}
  {event : ReceiverEvent}

theorem step_received {sequenceNumber : UInt32}
    (unwrapped : state.1.receiverSequenceNumber.toNat ≤ 2 ^ 24)
    (read : receivedNumber event = some sequenceNumber)
    (stepped : receiverStep environment state event = some next) (number : UInt32) :
    number ∈ next.1.nackQueue.numbers ↔
      (number ∈ state.1.nackQueue.numbers ∧ number ≠ sequenceNumber) ∨
      (state.1.receiverSequenceNumber.toNat < number.toNat ∧
        number.toNat < sequenceNumber.toNat) := by
  cases event with
  | frameSet stream =>
      obtain ⟨other, otherRead, _, _, members⟩ := handleFrameSet_window unwrapped stepped
      obtain rfl := Option.some.inj (read.symm.trans otherRead)
      exact members number
  | sendAckQueue => simp [receivedNumber] at read
  | sendNackQueue => simp [receivedNumber] at read
  | sendQueue => simp [receivedNumber] at read

/-- An event that receives nothing adds nothing. -/
theorem step_silent (read : receivedNumber event = none)
    (stepped : receiverStep environment state event = some next) {number : UInt32}
    (member : number ∈ next.1.nackQueue.numbers) : number ∈ state.1.nackQueue.numbers := by
  cases event with
  | frameSet stream =>
      obtain ⟨⟨frameSet, rest⟩, decoded, _⟩ := Option.bind_eq_some_iff.mp stepped
      simp [receivedNumber, decoded] at read
  | sendAckQueue =>
      cases stepped
      rwa [(sendRaknetAckQueue_window _ _).nackQueue] at member
  | sendNackQueue =>
      cases stepped
      rw [(sendRaknetNackQueue_window _ _).2] at member
      exact absurd member List.not_mem_nil
  | sendQueue =>
      cases stepped
      rwa [(sendRaknetQueue_sameIndices _ _).nackQueue] at member

end Event

/-! ## Runs without a gap -/

/-- The numbers received are `0, 1, 2, ...`. -/
def Contiguous (received : List UInt32) : Prop :=
  received.map UInt32.toNat = List.range received.length

/-- The queue holds exactly what is below a received number and not received. -/
def NackExact (received : List UInt32) (connection : Connection) : Prop :=
  ∀ number, number ∈ connection.nackQueue.numbers ↔
    number ∉ received ∧ ∃ newest ∈ received, number < newest

theorem contiguous_snoc (received : List UInt32) (number : UInt32) :
    Contiguous (received ++ [number]) ↔
      Contiguous received ∧ number.toNat = received.length := by
  rw [Contiguous, List.map_append, List.map_singleton, List.length_append, List.length_singleton,
    List.range_succ, Contiguous]
  constructor
  · intro same
    obtain ⟨front, last⟩ := List.append_inj same (by simp)
    exact ⟨front, List.singleton_inj.mp last⟩
  · rintro ⟨front, last⟩
    rw [front, last]

theorem mem_contiguous {received : List UInt32} (contiguous : Contiguous received)
    (number : UInt32) : number ∈ received ↔ number.toNat < received.length := by
  rw [← List.mem_range, ← contiguous, List.mem_map]
  constructor
  · exact fun member => ⟨number, member, rfl⟩
  · rintro ⟨other, member, same⟩
    exact UInt32.toNat_inj.mp same ▸ member

theorem expected_contiguous {received : List UInt32} (contiguous : Contiguous received) :
    expectedNumber received = received.length := by
  cases received using List.reverseRecOn with
  | nil => rfl
  | append_singleton before last =>
      rw [expectedNumber_snoc, ((contiguous_snoc before last).mp contiguous).2,
        List.length_append, List.length_singleton]

section Run

variable {environment : Environment} {address : MiscAddress} {mtuSize : UInt16}
  {server : RaknetServer} {events : List ReceiverEvent} {final : Connection × RaknetServer}

theorem nackQueue_contiguous
    (returned : run (receiverStep environment) events (newConnection address mtuSize, server) =
      some final) (contiguous : Contiguous (receivedNumbers events)) (number : UInt32) :
    number ∉ final.1.nackQueue.numbers := by
  revert contiguous
  refine run_induction (fun history state => Contiguous (receivedNumbers history) →
    number ∉ state.1.nackQueue.numbers) (fun _ => List.not_mem_nil) ?_ returned
  intro history state event next reached before stepped contiguous member
  rw [receivedNumbers_snoc] at contiguous
  cases read : receivedNumber event with
  | none =>
      rw [read, Option.toList_none, List.append_nil] at contiguous
      exact before contiguous (step_silent read stepped member)
  | some sequenceNumber =>
      rw [read, Option.toList_some] at contiguous
      obtain ⟨earlier, next⟩ := (contiguous_snoc _ _).mp contiguous
      obtain ⟨expected, unwrapped⟩ := run_expected reached
      rw [expected_contiguous earlier] at expected
      rcases (step_received unwrapped read stepped number).mp member with kept | inside
      · exact before earlier kept.1
      · omega

theorem nackExact_contiguous
    (returned : run (receiverStep environment) events (newConnection address mtuSize, server) =
      some final) (contiguous : Contiguous (receivedNumbers events)) :
    NackExact (receivedNumbers events) final.1 := by
  intro number
  apply iff_of_false (nackQueue_contiguous returned contiguous number)
  rintro ⟨missing, newest, member, below⟩
  rw [mem_contiguous contiguous] at missing member
  have less := UInt32.lt_iff_toNat_lt.mp below
  omega

/-- A number past the one expected leaves the expected number out of the
queue. -/
theorem nackExact_gap {history : List ReceiverEvent} {state next : Connection × RaknetServer}
    {event : ReceiverEvent} {sequenceNumber : UInt32}
    (reached : run (receiverStep environment) history (newConnection address mtuSize, server) =
      some state) (stepped : receiverStep environment state event = some next)
    (read : receivedNumber event = some sequenceNumber)
    (contiguous : Contiguous (receivedNumbers history))
    (gap : (receivedNumbers history).length < sequenceNumber.toNat) :
    ¬ NackExact (receivedNumbers (history ++ [event])) next.1 := by
  intro exactQueue
  obtain ⟨expected, unwrapped⟩ := run_expected reached
  rw [expected_contiguous contiguous] at expected
  let skipped := state.1.receiverSequenceNumber
  have skippedNumber : skipped.toNat = (receivedNumbers history).length := expected
  have missing : skipped ∉ receivedNumbers (history ++ [event]) := by
    rw [receivedNumbers_snoc, read, Option.toList_some, List.mem_append, List.mem_singleton,
      mem_contiguous contiguous]
    intro either
    rcases either with earlier | same
    · omega
    · rw [same] at skippedNumber
      omega
  have received : sequenceNumber ∈ receivedNumbers (history ++ [event]) := by
    rw [receivedNumbers_snoc, read]
    simp
  have below : skipped < sequenceNumber := UInt32.lt_iff_toNat_lt.mpr (by omega)
  have listed := (exactQueue skipped).mpr ⟨missing, sequenceNumber, received, below⟩
  rcases (step_received unwrapped read stepped skipped).mp listed with kept | inside
  · exact nackQueue_contiguous reached contiguous skipped kept.1
  · omega

end Run

/-- In a run of increasing numbers the queue is exact after every step just
when no number is ever missing. -/
theorem nackQueue_exact_iff (environment : Environment) (address : MiscAddress)
    (mtuSize : UInt16) (server : RaknetServer) (events : List ReceiverEvent)
    (final : Connection × RaknetServer)
    (returned : run (receiverStep environment) events (newConnection address mtuSize, server) =
      some final)
    (increasing : (receivedNumbers events).Pairwise (· < ·)) :
    (∀ before after state, events = before ++ after →
      run (receiverStep environment) before (newConnection address mtuSize, server) = some state →
      NackExact (receivedNumbers before) state.1) ↔
    Contiguous (receivedNumbers events) := by
  constructor
  · revert increasing
    refine run_induction (fun history _ => (receivedNumbers history).Pairwise (· < ·) →
      (∀ before after state, history = before ++ after →
        run (receiverStep environment) before (newConnection address mtuSize, server) =
          some state → NackExact (receivedNumbers before) state.1) →
      Contiguous (receivedNumbers history)) (fun _ _ => rfl) ?_ returned
    intro history state event next reached ih stepped increasing exactQueue
    rw [receivedNumbers_snoc] at increasing
    have earlier : Contiguous (receivedNumbers history) :=
      ih (increasing.sublist (List.sublist_append_left _ _)) fun before after middle split =>
        exactQueue before (after ++ [event]) middle (by rw [split, List.append_assoc])
    cases read : receivedNumber event with
    | none => rwa [receivedNumbers_snoc, read, Option.toList_none, List.append_nil]
    | some sequenceNumber =>
        rw [receivedNumbers_snoc, read, Option.toList_some, contiguous_snoc]
        refine ⟨earlier, ?_⟩
        have above : (receivedNumbers history).length ≤ sequenceNumber.toNat := by
          by_contra below
          have repeated := (mem_contiguous earlier sequenceNumber).mpr (by omega)
          rw [read, Option.toList_some] at increasing
          have less := (List.pairwise_append.mp increasing).2.2 sequenceNumber repeated
            sequenceNumber (List.mem_singleton.mpr rfl)
          exact absurd less (UInt32.lt_irrefl _)
        by_contra different
        apply nackExact_gap reached stepped read earlier (by omega)
        apply exactQueue (history ++ [event]) [] next (List.append_nil _).symm
        rw [run_snoc, reached]
        exact stepped
  · intro contiguous before after state split reached
    apply nackExact_contiguous reached
    have parts : receivedNumbers events = receivedNumbers before ++ receivedNumbers after := by
      rw [split]
      exact List.filterMap_append
    rw [parts, Contiguous, List.map_append, List.length_append, List.range_add] at contiguous
    exact (List.append_inj contiguous (by simp)).1

/-- Constant conversions and a stopped clock. -/
def stillEnvironment : Environment where
  inetAddr := fun _ => 0
  inetPton := fun _ => Vector.replicate 16 0
  afInet6 := 10
  timestamp := fun _ => 0

/-- A datagram with that number and one empty frame of an unknown packet. -/
def arrival (sequenceNumber : UInt8) : ReceiverEvent :=
  .frameSet [0x80, sequenceNumber, 0, 0, 0x00, 0x00, 0x08, 0xfe]

def firstConnection : Connection × RaknetServer :=
  (newConnection ⟨4, [0x31], 19132⟩ 1400, addRaknetConnection ⟨4, [0x31], 19132⟩ 1400 {})

theorem nackQueue_exact_inOrder :
    ∃ final, run (receiverStep stillEnvironment) [arrival 0, arrival 1]
        (newConnection ⟨4, [0x31], 19132⟩ 1400, firstConnection.2) = some final ∧
      NackExact (receivedNumbers [arrival 0, arrival 1]) final.1 := by
  obtain ⟨final, returned⟩ := Option.isSome_iff_exists.mp
    (show (run (receiverStep stillEnvironment) [arrival 0, arrival 1]
      (newConnection ⟨4, [0x31], 19132⟩ 1400, firstConnection.2)).isSome by decide)
  refine ⟨final, returned, ?_⟩
  refine (nackQueue_exact_iff stillEnvironment ⟨4, [0x31], 19132⟩ 1400 firstConnection.2
    [arrival 0, arrival 1] final returned (by decide)).mpr ?_ _ [] final
    (List.append_nil _).symm returned
  unfold Contiguous
  decide

/-- Number 1 arrives first, and number 0 is never reported. -/
theorem nackQueue_firstNumber_missed :
    (receivedNumbers [arrival 1]).Pairwise (· < ·) ∧
      ¬ ∀ before after state, [arrival 1] = before ++ after →
        run (receiverStep stillEnvironment) before firstConnection = some state →
        NackExact (receivedNumbers before) state.1 := by
  refine ⟨by decide, fun exactQueue => ?_⟩
  have computed : (run (receiverStep stillEnvironment) [arrival 1] firstConnection).map
      (fun state => state.1.nackQueue.numbers) = some [] := by decide
  obtain ⟨final, reached, numbers⟩ := Option.map_eq_some_iff.mp computed
  have listed := (exactQueue [arrival 1] [] final rfl reached 0).mpr
    ⟨by decide, 1, by decide, by decide⟩
  rw [numbers] at listed
  exact absurd listed List.not_mem_nil

/-! ## Runs in any order -/

/-- No received number lies between the one expected next and the one that
arrives. -/
def NeverBehind (events : List ReceiverEvent) : Prop :=
  ∀ before event after, events = before ++ event :: after →
    ∀ sequenceNumber, receivedNumber event = some sequenceNumber →
      ∀ earlier ∈ receivedNumbers before,
        ¬ (expectedNumber (receivedNumbers before) < earlier.toNat ∧
          earlier.toNat < sequenceNumber.toNat)

theorem NeverBehind.ofAppend {before after : List ReceiverEvent}
    (never : NeverBehind (before ++ after)) : NeverBehind before := by
  intro first event rest split
  exact never first event (rest ++ after) (by rw [split, List.append_assoc, List.cons_append])

theorem nackQueue_unreceived {environment : Environment} {address : MiscAddress}
    {mtuSize : UInt16} {server : RaknetServer} {events : List ReceiverEvent}
    {final : Connection × RaknetServer}
    (returned : run (receiverStep environment) events (newConnection address mtuSize, server) =
      some final) (never : NeverBehind events) :
    ∀ number ∈ final.1.nackQueue.numbers, number ∉ receivedNumbers events := by
  revert never
  refine run_induction (fun history state => NeverBehind history →
    ∀ number ∈ state.1.nackQueue.numbers, number ∉ receivedNumbers history)
    (fun _ number member => absurd member List.not_mem_nil) ?_ returned
  intro history state event next reached before stepped never number member
  have earlier := before never.ofAppend
  rw [receivedNumbers_snoc]
  cases read : receivedNumber event with
  | none =>
      rw [Option.toList_none, List.append_nil]
      exact earlier number (step_silent read stepped member)
  | some sequenceNumber =>
      obtain ⟨expected, unwrapped⟩ := run_expected reached
      rw [Option.toList_some, List.mem_append, List.mem_singleton]
      rcases (step_received unwrapped read stepped number).mp member with kept | inside
      · intro either
        rcases either with received | same
        · exact earlier number kept.1 received
        · exact kept.2 same
      · intro either
        rcases either with received | rfl
        · apply never history event [] rfl sequenceNumber read number received
          rwa [← expected]
        · exact absurd inside.2 (Nat.lt_irrefl _)

/-- The queue never lists a received number just when no hole ever covers
one. -/
theorem nackQueue_unreceived_iff (environment : Environment) (address : MiscAddress)
    (mtuSize : UInt16) (server : RaknetServer) (events : List ReceiverEvent)
    (final : Connection × RaknetServer)
    (returned : run (receiverStep environment) events (newConnection address mtuSize, server) =
      some final) :
    (∀ before after state, events = before ++ after →
      run (receiverStep environment) before (newConnection address mtuSize, server) = some state →
      ∀ number ∈ state.1.nackQueue.numbers, number ∉ receivedNumbers before) ↔
    NeverBehind events := by
  constructor
  · intro unreceived before event after split sequenceNumber read earlier received inside
    have whole : events = (before ++ [event]) ++ after := by
      rw [split, List.append_assoc, List.singleton_append]
    rw [whole] at returned
    obtain ⟨next, nextReached, _⟩ := run_split returned
    have stepping := nextReached
    rw [run_snoc] at stepping
    obtain ⟨state, reached, stepped⟩ := Option.bind_eq_some_iff.mp stepping
    obtain ⟨expected, unwrapped⟩ := run_expected reached
    rw [← expected] at inside
    have listed := (step_received unwrapped read stepped earlier).mpr (Or.inr inside)
    apply unreceived (before ++ [event]) after next whole nextReached earlier listed
    rw [receivedNumbers_snoc]
    exact List.mem_append_left _ received
  · intro never before after state split reached
    exact nackQueue_unreceived reached (split ▸ never).ofAppend

theorem nackQueue_unreceived_inOrder :
    ∃ final, run (receiverStep stillEnvironment) [arrival 0, arrival 3]
        (newConnection ⟨4, [0x31], 19132⟩ 1400, firstConnection.2) = some final ∧
      ∀ number ∈ final.1.nackQueue.numbers,
        number ∉ receivedNumbers [arrival 0, arrival 3] := by
  obtain ⟨final, returned⟩ := Option.isSome_iff_exists.mp
    (show (run (receiverStep stillEnvironment) [arrival 0, arrival 3]
      (newConnection ⟨4, [0x31], 19132⟩ 1400, firstConnection.2)).isSome by decide)
  refine ⟨final, returned, ?_⟩
  refine (nackQueue_unreceived_iff stillEnvironment ⟨4, [0x31], 19132⟩ 1400 firstConnection.2
    [arrival 0, arrival 3] final returned).mpr ?_ _ [] final (List.append_nil _).symm returned
  intro before event after split sequenceNumber read earlier received inside
  rcases before with _ | ⟨first, _ | ⟨second, rest⟩⟩
  · exact absurd received List.not_mem_nil
  · obtain rfl := (List.cons.inj split).1
    have only : receivedNumbers [arrival 0] = [0] := by decide
    obtain rfl := List.mem_singleton.mp (only ▸ received)
    exact absurd inside.1 (Nat.not_lt_zero _)
  · have lengths := congrArg List.length split
    simp at lengths

/-- After 5, 2 and 6 the queue lists 5 again. -/
theorem nackQueue_received_listed :
    ¬ ∀ before after state, [arrival 5, arrival 2, arrival 6] = before ++ after →
      run (receiverStep stillEnvironment) before firstConnection = some state →
      ∀ number ∈ state.1.nackQueue.numbers, number ∉ receivedNumbers before := by
  intro unreceived
  have computed : (run (receiverStep stillEnvironment) [arrival 5, arrival 2, arrival 6]
      firstConnection).map (fun state => state.1.nackQueue.numbers) =
        some [1, 3, 4, 5] := by decide
  obtain ⟨final, reached, numbers⟩ := Option.map_eq_some_iff.mp computed
  have listed : 5 ∈ final.1.nackQueue.numbers := by
    rw [numbers]
    decide
  exact unreceived [arrival 5, arrival 2, arrival 6] [] final rfl reached 5 listed (by decide)

end PodrumRakNet.NackQueue
