import Mathlib.Data.List.Forall2
import PodrumFormal.Lib.EventRun
import PodrumFormal.RakNet.Fragments

/-!
# Runs of the send queue

Messages are added and the queue is flushed in any order on a new connection.
The frames put out group by message, in order; the datagrams, the reliable
frames and the ordered messages of each channel are numbered without a gap.
-/

set_option autoImplicit false

namespace PodrumRakNet.SendRun

open EventRun PodrumRakNet.Frame PodrumRakNet.FrameSet PodrumRakNet.Packet
open PodrumRakNet.Connections PodrumRakNet.SendQueue PodrumRakNet.SendLedger
open PodrumRakNet.Fragments

inductive SendEvent where
  | add (frame : MiscFrame)
  | flush

def sendStep (state : Connection × RaknetServer) : SendEvent → Option (Connection × RaknetServer)
  | .add frame => addToRaknetQueue frame state.1 state.2
  | .flush => some (sendRaknetQueue state.1 state.2)

def addedFrames (events : List SendEvent) : List MiscFrame :=
  events.filterMap fun
    | .add frame => some frame
    | .flush => none

/-! ## What is put out for a message -/

/-- The frame is the message with its three indices filled in. -/
def WholeOf (message frame : MiscFrame) : Prop :=
  frame = { message with
    reliableFrameIndex := frame.reliableFrameIndex
    sequencedFrameIndex := frame.sequencedFrameIndex
    orderedFrameIndex := frame.orderedFrameIndex }

structure FragmentOf (message : MiscFrame) (count : Nat) (compoundId : UInt16) (i : Nat)
    (frame : MiscFrame) : Prop where
  isFragmented : frame.isFragmented = 1
  reliability : frame.reliability = message.reliability
  compoundSize : frame.compoundSize = UInt32.ofNat count
  compoundId : frame.compoundId = compoundId
  index : frame.index = UInt32.ofNat i
  orderChannel : isOrdered message.reliability → frame.orderChannel = message.orderChannel

/-- The message itself, or at least two fragments that join to its payload. -/
inductive Carries (message : MiscFrame) : List MiscFrame → Prop where
  | whole (frame : MiscFrame) (same : WholeOf message frame) : Carries message [frame]
  | fragments (group : List MiscFrame) (compoundId : UInt16) (several : 2 ≤ group.length)
      (each : ∀ i frame, group[i]? = some frame →
        FragmentOf message group.length compoundId i frame)
      (payload : (group.map MiscFrame.stream).flatten = message.stream) : Carries message group

/-- The ordered messages of a channel that are not sequenced. -/
def orderedMessages (messages : List MiscFrame) (orderChannel : UInt8) : Nat :=
  messages.countP fun message =>
    isOrdered message.reliability && !isSequenced message.reliability &&
      message.orderChannel == orderChannel

def reliableFrames (frames : List MiscFrame) : List MiscFrame :=
  frames.filter fun frame => isReliable frame.reliability

/-! ## The order index -/

theorem indexFrame_whole {frame indexed : MiscFrame} {connection counted : Connection}
    (success : indexFrame frame connection = some (indexed, counted)) :
    indexed = { frame with
      sequencedFrameIndex := indexed.sequencedFrameIndex
      orderedFrameIndex := indexed.orderedFrameIndex } := by
  obtain ⟨-, cell, -, rfl, -⟩ | ⟨-, -, cell, -, rfl, -⟩ | ⟨-, rfl, -⟩ := indexFrame_cases success
  · rfl
  · rfl
  · rfl

/-- An ordered frame takes the counter of its channel. -/
theorem indexFrame_ordered {frame indexed : MiscFrame} {connection counted : Connection}
    (success : indexFrame frame connection = some (indexed, counted))
    (ordered : isOrdered frame.reliability) :
    ∃ cell, channel frame.orderChannel = some cell ∧
      indexed.orderedFrameIndex = connection.senderOrderChannels.get cell := by
  obtain ⟨-, cell, inside, rfl, -⟩ | ⟨-, -, cell, inside, rfl, -⟩ | ⟨unordered, -, -⟩ :=
    indexFrame_cases success
  · exact ⟨cell, inside, rfl⟩
  · exact ⟨cell, inside, rfl⟩
  · rw [unordered] at ordered
    cases ordered

theorem channel_injective {left right : UInt8} {cell : Fin 32} (first : channel left = some cell)
    (second : channel right = some cell) : left = right := by
  simp only [channel, Option.dite_none_right_eq_some, Option.some.injEq] at first second
  obtain ⟨_, firstCell⟩ := first
  obtain ⟨_, secondCell⟩ := second
  rw [← secondCell] at firstCell
  exact UInt8.toNat_inj.mp (Fin.mk.inj firstCell)

/-- The counter of every channel moves on by the ordered messages added. -/
theorem indexFrame_channels {frame indexed : MiscFrame} {connection counted : Connection}
    (success : indexFrame frame connection = some (indexed, counted))
    {orderChannel : UInt8} {cell : Fin 32} (inside : channel orderChannel = some cell) :
    counted.senderOrderChannels.get cell = connection.senderOrderChannels.get cell +
      UInt32.ofNat (orderedMessages [frame] orderChannel) := by
  obtain ⟨sequenced, own, -, -, rfl⟩ | ⟨plain, ordered, own, found, -, rfl⟩ |
      ⟨unordered, -, rfl⟩ := indexFrame_cases success
  · simp [orderedMessages, sequenced, indexSequenced]
  · change (connection.senderOrderChannels.set own _)[cell] =
      connection.senderOrderChannels[cell] + _
    by_cases sameChannel : frame.orderChannel = orderChannel
    · have sameCell : own = cell := Option.some.inj (found.symm.trans (sameChannel ▸ inside))
      subst sameCell
      simp [orderedMessages, ordered, plain, sameChannel]
    · have otherCell : own ≠ cell := by
        rintro rfl
        exact sameChannel (channel_injective found inside)
      have otherIndex : own.val ≠ cell.val := fun same => otherCell (Fin.ext same)
      simp [orderedMessages, sameChannel, otherIndex]
  · simp [orderedMessages, unordered]

/-! ## The frames of one message -/

section Built

variable {message indexed : MiscFrame} {connection counted : Connection}

theorem builtFrames_carries
    (indexing : indexFrame message connection = some (indexed, counted))
    (positive : 0 < (maxSize counted.mtuSize).toNat) :
    Carries message (builtFrames indexed counted) := by
  have whole := indexFrame_whole indexing
  have sameStream : indexed.stream = message.stream := by rw [whole]
  have sameReliability : indexed.reliability = message.reliability := by rw [whole]
  have sameChannel : indexed.orderChannel = message.orderChannel := by rw [whole]
  simp only [builtFrames]
  split
  · rename_i long
    have several : 2 ≤ frameCount indexed.stream.length (maxSize counted.mtuSize).toNat := by
      have quotient := Nat.div_pos (Nat.le_of_lt long) positive
      simp only [frameCount]
      omega
    refine Carries.fragments _ counted.compoundId.toUInt16 (by simpa using several) ?_ ?_
    · intro i frame found
      rw [List.getElem?_map] at found
      obtain ⟨turn, place, rfl⟩ := Option.map_eq_some_iff.mp found
      obtain ⟨_, rfl⟩ := List.getElem?_eq_some_iff.mp place
      rw [List.getElem_range, List.length_map, List.length_range]
      refine ⟨rfl, sameReliability, rfl, ?_, rfl, ?_⟩
      · simp only [fragmentAt, compoundEntry, advanceReliable]
        split <;> rfl
      · intro ordered
        rw [← sameReliability] at ordered
        simp only [fragmentAt, compoundEntry, if_pos ordered, sameChannel]
    · rw [List.map_map, ← sameStream]
      exact flatten_pieces indexed.stream _ positive
  · apply Carries.whole _
    simp only [WholeOf, numberReliable]
    rw [whole]

theorem builtFrames_reliability {frame : MiscFrame} (member : frame ∈ builtFrames indexed counted) :
    frame.reliability = indexed.reliability := by
  simp only [builtFrames] at member
  split at member
  · obtain ⟨i, _, rfl⟩ := List.mem_map.mp member
    rfl
  · obtain rfl := List.mem_singleton.mp member
    rfl

theorem builtFrames_ordered {frame : MiscFrame} (member : frame ∈ builtFrames indexed counted)
    (ordered : isOrdered indexed.reliability) :
    frame.orderedFrameIndex = indexed.orderedFrameIndex := by
  simp only [builtFrames] at member
  split at member
  · obtain ⟨i, _, rfl⟩ := List.mem_map.mp member
    simp only [fragmentAt, compoundEntry, if_pos ordered]
  · obtain rfl := List.mem_singleton.mp member
    rfl

/-- Consecutive numbers from the counter on, for a reliable message. -/
theorem builtFrames_reliable :
    (reliableFrames (builtFrames indexed counted)).map MiscFrame.reliableFrameIndex =
      (List.range (if isReliable indexed.reliability then (builtFrames indexed counted).length
        else 0)).map fun i => counted.senderReliableFrameIndex + UInt32.ofNat i := by
  by_cases reliable : isReliable indexed.reliability
  · have every : reliableFrames (builtFrames indexed counted) = builtFrames indexed counted := by
      apply List.filter_eq_self.mpr
      intro frame member
      rw [builtFrames_reliability member]
      exact reliable
    rw [every, if_pos reliable]
    simp only [builtFrames]
    split
    · rw [List.map_map, List.length_map, List.length_range]
      apply List.map_congr_left
      intro i _
      simp [fragmentAt, compoundEntry, advanceReliable, reliable]
    · simp [numberReliable, reliable]
  · have none : reliableFrames (builtFrames indexed counted) = [] := by
      apply List.filter_eq_nil_iff.mpr
      intro frame member
      rw [builtFrames_reliability member]
      exact reliable
    rw [none, if_neg reliable]
    rfl

theorem builtFrames_reliableCount :
    (reliableFrames (builtFrames indexed counted)).length =
      if isReliable indexed.reliability then (builtFrames indexed counted).length else 0 := by
  simpa using congrArg List.length (@builtFrames_reliable indexed counted)

end Built

/-! ## The invariant -/

/-- The ordered frames put out for message `k` carry the number of ordered
messages added to its channel before. -/
def OrderedIndices (messages : List MiscFrame) (groups : List (List MiscFrame)) : Prop :=
  ∀ k message group, messages[k]? = some message → groups[k]? = some group →
    isOrdered message.reliability → ∀ frame ∈ group,
      frame.orderedFrameIndex =
        UInt32.ofNat (orderedMessages (messages.take k) message.orderChannel)

theorem OrderedIndices.snoc {messages : List MiscFrame} {groups : List (List MiscFrame)}
    {message : MiscFrame} {group : List MiscFrame} (before : OrderedIndices messages groups)
    (sameLength : messages.length = groups.length)
    (last : isOrdered message.reliability → ∀ frame ∈ group,
      frame.orderedFrameIndex = UInt32.ofNat (orderedMessages messages message.orderChannel)) :
    OrderedIndices (messages ++ [message]) (groups ++ [group]) := by
  intro k other otherGroup place groupPlace
  rcases Nat.lt_trichotomy k messages.length with early | rfl | late
  · rw [List.getElem?_append_left early] at place
    rw [List.getElem?_append_left (sameLength ▸ early)] at groupPlace
    rw [List.take_append_of_le_length (Nat.le_of_lt early)]
    exact before k other otherGroup place groupPlace
  · rw [List.getElem?_concat_length] at place
    rw [sameLength, List.getElem?_concat_length] at groupPlace
    obtain rfl := Option.some.inj place
    obtain rfl := Option.some.inj groupPlace
    rw [List.take_left]
    exact last
  · rw [List.getElem?_eq_none (by rw [List.length_append, List.length_singleton]; omega)] at place
    exact absurd place (by simp)

theorem reliableFrames_append (frames built : List MiscFrame) :
    reliableFrames (frames ++ built) = reliableFrames frames ++ reliableFrames built :=
  List.filter_append ..

/-- Reliable frames that count on keep the numbering without a gap. -/
theorem reliableIndices_append {frames built : List MiscFrame} {next : UInt32}
    (before : (reliableFrames frames).map MiscFrame.reliableFrameIndex =
      (List.range (reliableFrames frames).length).map UInt32.ofNat)
    (counter : next = UInt32.ofNat (reliableFrames frames).length)
    (numbered : (reliableFrames built).map MiscFrame.reliableFrameIndex =
      (List.range (reliableFrames built).length).map fun i => next + UInt32.ofNat i) :
    (reliableFrames (frames ++ built)).map MiscFrame.reliableFrameIndex =
      (List.range (reliableFrames (frames ++ built)).length).map UInt32.ofNat := by
  rw [reliableFrames_append, List.map_append, before, numbered, List.length_append,
    List.range_add, List.map_append, List.map_map, counter]
  congr 1
  apply List.map_congr_left
  intro i _
  exact (UInt32.ofNat_add _ _).symm

structure SendInvariant (start : RaknetServer) (address : MiscAddress) (mtuSize : UInt16)
    (messages : List MiscFrame) (sets : List PacketFrameSet) (groups : List (List MiscFrame))
    (state : Connection × RaknetServer) : Prop where
  ledger : Ledger start address 0 state.1 state.2 sets
  mtu : state.1.mtuSize = mtuSize
  grouped : queued sets state.1 = groups.flatten
  carried : List.Forall₂ Carries messages groups
  reliable : (reliableFrames groups.flatten).map MiscFrame.reliableFrameIndex =
    (List.range (reliableFrames groups.flatten).length).map UInt32.ofNat
  nextReliable : state.1.senderReliableFrameIndex =
    UInt32.ofNat (reliableFrames groups.flatten).length
  ordered : OrderedIndices messages groups
  nextOrdered : ∀ orderChannel cell, channel orderChannel = some cell →
    state.1.senderOrderChannels.get cell = UInt32.ofNat (orderedMessages messages orderChannel)

theorem sendInvariant_new (start : RaknetServer) (address : MiscAddress) (mtuSize : UInt16) :
    SendInvariant start address mtuSize [] [] [] (newConnection address mtuSize, start) where
  ledger := Ledger.open (newConnection address mtuSize) start
  mtu := rfl
  grouped := rfl
  carried := List.Forall₂.nil
  reliable := rfl
  nextReliable := rfl
  ordered := by intro k message group place; simp at place
  nextOrdered := by
    intro orderChannel cell _
    change (newConnection address mtuSize).senderOrderChannels[cell] = _
    simp [newConnection, orderedMessages]

section Steps

variable {start : RaknetServer} {address : MiscAddress} {mtuSize : UInt16}
  {messages : List MiscFrame} {sets : List PacketFrameSet} {groups : List (List MiscFrame)}
  {state : Connection × RaknetServer}

theorem sendInvariant_flush
    (holds : SendInvariant start address mtuSize messages sets groups state) :
    ∃ after, SendInvariant start address mtuSize messages after groups
      (sendRaknetQueue state.1 state.2) := by
  obtain ⟨after, ledger, same⟩ := sendRaknetQueue_ledger holds.ledger
  have indices := sendRaknetQueue_sameIndices state.1 state.2
  exact ⟨after, {
    ledger := ledger
    mtu := indices.mtuSize.trans holds.mtu
    grouped := same.trans holds.grouped
    carried := holds.carried
    reliable := holds.reliable
    nextReliable := indices.senderReliableFrameIndex.trans holds.nextReliable
    ordered := holds.ordered
    nextOrdered := by
      rw [indices.senderOrderChannels]
      exact holds.nextOrdered }⟩

theorem sendInvariant_add (mtuFits : 61 ≤ mtuSize.toNat) {message : MiscFrame}
    (holds : SendInvariant start address mtuSize messages sets groups state)
    {next : Connection × RaknetServer}
    (success : addToRaknetQueue message state.1 state.2 = some next) :
    ∃ after built, SendInvariant start address mtuSize (messages ++ [message]) after
      (groups ++ [built]) next := by
  obtain ⟨indexed, counted, after, indexing, ledger, appended, adds⟩ :=
    addToRaknetQueue_adds success holds.ledger
  obtain ⟨receiver, _, _, sameReliable⟩ := indexFrame_receiver indexing
  have sameReliability : indexed.reliability = message.reliability := by
    rw [indexFrame_whole indexing]
  have countedMtu : counted.mtuSize = mtuSize := receiver.mtuSize.trans holds.mtu
  have flattened : (groups ++ [builtFrames indexed counted]).flatten =
      groups.flatten ++ builtFrames indexed counted := by simp
  have counter : counted.senderReliableFrameIndex =
      UInt32.ofNat (reliableFrames groups.flatten).length :=
    sameReliable.trans holds.nextReliable
  refine ⟨after, builtFrames indexed counted, {
    ledger := ledger
    mtu := adds.mtuSize.trans countedMtu
    grouped := by rw [appended, holds.grouped, flattened]
    carried := ?carried
    reliable := ?reliable
    nextReliable := ?nextReliable
    ordered := ?ordered
    nextOrdered := ?nextOrdered }⟩
  case carried =>
    have positive := maxSize_positive (countedMtu ▸ mtuFits)
    exact List.rel_append holds.carried
      (List.Forall₂.cons (builtFrames_carries indexing positive) List.Forall₂.nil)
  case reliable =>
    rw [flattened]
    apply reliableIndices_append holds.reliable counter
    rw [builtFrames_reliable, builtFrames_reliableCount]
  case nextReliable =>
    rw [adds.senderReliableFrameIndex, flattened, reliableFrames_append, List.length_append,
      builtFrames_reliableCount, counter, UInt32.ofNat_add]
  case ordered =>
    apply holds.ordered.snoc holds.carried.length_eq
    intro ordered frame member
    obtain ⟨cell, inside, index⟩ := indexFrame_ordered indexing ordered
    rw [builtFrames_ordered member (sameReliability ▸ ordered), index]
    exact holds.nextOrdered message.orderChannel cell inside
  case nextOrdered =>
    intro orderChannel cell inside
    have moved := indexFrame_channels indexing inside
    have before := holds.nextOrdered orderChannel cell inside
    have split : orderedMessages (messages ++ [message]) orderChannel =
        orderedMessages messages orderChannel + orderedMessages [message] orderChannel :=
      List.countP_append
    rw [adds.senderOrderChannels, moved, before, split, UInt32.ofNat_add]

end Steps

/-! ## Whole runs -/

def allowedSend : SendEvent → Prop
  | .add frame => frame.orderChannel.toNat < 32 ∧ frame.isFragmented = 0
  | .flush => True

theorem addedFrames_snoc_add (history : List SendEvent) (frame : MiscFrame) :
    addedFrames (history ++ [.add frame]) = addedFrames history ++ [frame] := by
  simp [addedFrames]

theorem addedFrames_snoc_flush (history : List SendEvent) :
    addedFrames (history ++ [.flush]) = addedFrames history := by
  simp [addedFrames]

theorem run_sendInvariant (address : MiscAddress) (mtuSize : UInt16)
    (mtuFits : 61 ≤ mtuSize.toNat) (server : RaknetServer) (events : List SendEvent)
    (allowed : ∀ event ∈ events, allowedSend event) :
    ∃ final, run sendStep events (newConnection address mtuSize, server) = some final ∧
      ∃ sets groups,
        SendInvariant server address mtuSize (addedFrames events) sets groups final := by
  refine run_total (fun history state => ∃ sets groups,
    SendInvariant server address mtuSize (addedFrames history) sets groups state) allowedSend
    ?step events [] _ ⟨[], [], sendInvariant_new server address mtuSize⟩ allowed
  rintro history state event ⟨sets, groups, holds⟩ eventAllowed
  cases event with
  | add frame =>
      obtain ⟨next, success⟩ := @addToRaknetQueue_defined state.1 frame state.2
        (by rw [holds.mtu]; exact mtuFits) eventAllowed.1
      obtain ⟨after, built, nextHolds⟩ := sendInvariant_add mtuFits holds success
      refine ⟨next, success, after, groups ++ [built], ?_⟩
      rw [addedFrames_snoc_add]
      exact nextHolds
  | flush =>
      obtain ⟨after, nextHolds⟩ := sendInvariant_flush holds
      refine ⟨_, rfl, after, groups, ?_⟩
      rw [addedFrames_snoc_flush]
      exact nextHolds

theorem range_toNat {numbers : List UInt32} {count : Nat} (fewer : count < 2 ^ 32)
    (range : numbers = (List.range count).map UInt32.ofNat) :
    numbers.map UInt32.toNat = List.range count := by
  rw [range, List.map_map]
  refine (List.map_congr_left fun i member => ?_).trans (List.map_id _)
  exact UInt32.toNat_ofNat_of_lt' (Nat.lt_trans (List.mem_range.mp member) fewer)

theorem Carries.length_pos {message : MiscFrame} {group : List MiscFrame}
    (carries : Carries message group) : 0 < group.length := by
  cases carries with
  | whole frame same => exact Nat.one_pos
  | fragments group compoundId several => omega

/-- At most as many messages as frames. -/
theorem length_le_flatten {messages : List MiscFrame} {groups : List (List MiscFrame)}
    (carried : List.Forall₂ Carries messages groups) :
    messages.length ≤ groups.flatten.length := by
  induction carried with
  | nil => simp
  | @cons message group _ _ head _ ih =>
      have positive := head.length_pos
      simp only [List.length_cons, List.flatten_cons, List.length_append]
      omega

theorem sendQueue_run (address : MiscAddress) (mtuSize : UInt16)
    (mtuFits : 61 ≤ mtuSize.toNat) (server : RaknetServer) (events : List SendEvent)
    (allowed : ∀ event ∈ events, allowedSend event) :
    ∃ (connection : Connection) (final : RaknetServer) (sets : List PacketFrameSet)
      (groups : List (List MiscFrame)),
      run sendStep events (newConnection address mtuSize, server) = some (connection, final) ∧
      final.sent = server.sent ++ sets.map (fun set => (address, Datagram.frameSet set)) ∧
      sets.flatMap PacketFrameSet.frames ++ connection.queue.frames = groups.flatten ∧
      List.Forall₂ Carries (addedFrames events) groups ∧
      (sets.length < 2 ^ 32 → groups.flatten.length < 2 ^ 32 →
        sets.map (fun set => set.sequenceNumber.toNat) = List.range sets.length ∧
        (reliableFrames groups.flatten).map (fun frame => frame.reliableFrameIndex.toNat) =
          List.range (reliableFrames groups.flatten).length ∧
        ∀ k message group, (addedFrames events)[k]? = some message → groups[k]? = some group →
          isOrdered message.reliability → ∀ frame ∈ group,
            frame.orderedFrameIndex.toNat =
              orderedMessages ((addedFrames events).take k) message.orderChannel) := by
  obtain ⟨⟨connection, final⟩, success, sets, groups, holds⟩ :=
    run_sendInvariant address mtuSize mtuFits server events allowed
  refine ⟨connection, final, sets, groups, success, holds.ledger.sent, holds.grouped,
    holds.carried, fun fewerSets fewerFrames => ⟨?_, ?_, ?_⟩⟩
  · have numbered := holds.ledger.numbered
    simp only [UInt32.zero_add] at numbered
    simpa [Function.comp_def] using range_toNat fewerSets numbered
  · have fewerReliable : (reliableFrames groups.flatten).length < 2 ^ 32 :=
      Nat.lt_of_le_of_lt (List.length_filter_le ..) fewerFrames
    simpa [Function.comp_def] using range_toNat fewerReliable holds.reliable
  · intro k message group place groupPlace ordered frame member
    have counted : orderedMessages ((addedFrames events).take k) message.orderChannel ≤
        groups.flatten.length :=
      calc orderedMessages ((addedFrames events).take k) message.orderChannel
          ≤ ((addedFrames events).take k).length := List.countP_le_length
        _ ≤ (addedFrames events).length := List.length_take_le' ..
        _ ≤ groups.flatten.length := length_le_flatten holds.carried
    rw [holds.ordered k message group place groupPlace ordered frame member]
    exact UInt32.toNat_ofNat_of_lt' (Nat.lt_of_le_of_lt counted fewerFrames)

theorem sendQueue_run_split :
    ∃ (connection : Connection) (final : RaknetServer) (sets : List PacketFrameSet)
      (groups : List (List MiscFrame)),
      run sendStep [.add { reliability := 3, stream := [1, 2, 3] }, .flush]
        (newConnection ⟨4, [49], 7⟩ 61, {}) = some (connection, final) ∧
      final.sent = [] ++ sets.map (fun set => (⟨4, [49], 7⟩, Datagram.frameSet set)) ∧
      sets.flatMap PacketFrameSet.frames ++ connection.queue.frames = groups.flatten ∧
      List.Forall₂ Carries
        (addedFrames [.add { reliability := 3, stream := [1, 2, 3] }, .flush]) groups ∧
      (sets.length < 2 ^ 32 → groups.flatten.length < 2 ^ 32 →
        sets.map (fun set => set.sequenceNumber.toNat) = List.range sets.length ∧
        (reliableFrames groups.flatten).map (fun frame => frame.reliableFrameIndex.toNat) =
          List.range (reliableFrames groups.flatten).length ∧
        ∀ k message group,
          (addedFrames [.add { reliability := 3, stream := [1, 2, 3] }, .flush])[k]? =
            some message → groups[k]? = some group →
          isOrdered message.reliability → ∀ frame ∈ group,
            frame.orderedFrameIndex.toNat = orderedMessages
              ((addedFrames [.add { reliability := 3, stream := [1, 2, 3] }, .flush]).take k)
              message.orderChannel) :=
  sendQueue_run ⟨4, [49], 7⟩ 61 (by decide) {}
    [.add { reliability := 3, stream := [1, 2, 3] }, .flush] (by
      intro event member
      rcases List.mem_cons.mp member with rfl | later
      · exact ⟨by decide, rfl⟩
      · obtain rfl := List.mem_singleton.mp later
        trivial)

end PodrumRakNet.SendRun
