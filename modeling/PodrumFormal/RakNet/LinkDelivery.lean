import PodrumFormal.RakNet.SentMessages

/-!
# What a link delivers

Two parties over a channel that loses, duplicates and reorders.  The payloads
that reach the workers of the one are payloads of the other's messages, none is
missing once all frames have arrived, and none comes twice over a channel that
only reorders.
-/

set_option autoImplicit false

namespace PodrumRakNet.LinkDelivery

open EventRun PodrumRakNet.Frame PodrumRakNet.FrameSet PodrumRakNet.Packet
open PodrumRakNet.Connections PodrumRakNet.SendQueue PodrumRakNet.SendLedger
open PodrumRakNet.Handler PodrumRakNet.ReceiveWindow PodrumRakNet.Recovery
open PodrumRakNet.HandlerEffects PodrumRakNet.AckSafety PodrumRakNet.Assembly
open PodrumRakNet.SentMessages
open PodrumRakNet.NackQueue (stillEnvironment)

/-! ## The messages of a sender as a channel -/

/-- At most `2 ^ 16` split messages have different ids. -/
theorem ids_distinct {log : List Sent}
    (ids : (splitMessages log).map Compound.compoundId =
      (List.range (splitMessages log).length).map UInt16.ofNat)
    (fewer : (splitMessages log).length ≤ 2 ^ 16) :
    ((splitMessages log).map Compound.compoundId).Nodup := by
  rw [ids]
  refine List.Nodup.map_on (fun i iMember j jMember same => ?_) List.nodup_range
  have iSmall := List.mem_range.mp iMember
  have jSmall := List.mem_range.mp jMember
  have numbers := congrArg UInt16.toNat same
  rwa [UInt16.toNat_ofNat_of_lt' (by simp only [UInt16.size]; omega),
    UInt16.toNat_ofNat_of_lt' (by simp only [UInt16.size]; omega)] at numbers

section Channel

variable {log : List Sent} {arrived : List MiscFrame}

theorem mem_splitMessages {compound : Compound} :
    compound ∈ splitMessages log ↔ .split compound ∈ log := by
  rw [splitMessages, List.mem_filterMap]
  constructor
  · rintro ⟨sent, listed, found⟩
    cases sent with
    | whole frame unsplit => cases found
    | split other =>
        cases found
        exact listed
  · exact fun listed => ⟨_, listed, rfl⟩

theorem sentFrames_carried {channel : Channel} (same : channel.compounds = splitMessages log)
    {frame : MiscFrame} (member : frame ∈ sentFrames log) : channel.Carries frame := by
  obtain ⟨sent, listed, here⟩ := List.mem_flatMap.mp member
  cases sent with
  | whole other unsplit =>
      obtain rfl := List.mem_singleton.mp here
      exact Or.inl unsplit
  | split compound =>
      exact Or.inr ⟨compound, same ▸ mem_splitMessages.mpr listed, here⟩

/-- What comes out of arrived frames are messages all of whose frames have
arrived. -/
theorem assembled_sent {channel : Channel} (same : channel.compounds = splitMessages log)
    (known : ∀ frame ∈ arrived, frame ∈ sentFrames log) {frame : MiscFrame}
    (out : frame ∈ (assemble arrived KeyedArray.empty).2) :
    frame.isFragmented = 0 ∧ ∃ sent ∈ log, sent.payload = frame.stream ∧
      ∀ part ∈ sent.frames, part ∈ arrived := by
  have result := assembled channel arrived fun part member =>
    sentFrames_carried same (known part member)
  rcases (result.out frame).mp out with ⟨unsplit, here⟩ | ⟨compound, member, complete, rfl⟩
  · obtain ⟨sent, listed, inside⟩ := List.mem_flatMap.mp (known frame here)
    refine ⟨unsplit, sent, listed, ?_⟩
    cases sent with
    | whole other _ =>
        obtain rfl := List.mem_singleton.mp inside
        exact ⟨rfl, fun part only => List.mem_singleton.mp only ▸ here⟩
    | split compound => exact absurd unsplit (Compound.fragment_fragmented inside)
  · rw [same] at member
    exact ⟨rfl, .split compound, mem_splitMessages.mp member, rfl, complete⟩

/-- A message all of whose frames have arrived comes out. -/
theorem sent_assembled {channel : Channel} (same : channel.compounds = splitMessages log)
    (known : ∀ frame ∈ arrived, frame ∈ sentFrames log) {sent : Sent} (listed : sent ∈ log)
    (complete : ∀ part ∈ sent.frames, part ∈ arrived) :
    ∃ frame ∈ (assemble arrived KeyedArray.empty).2, frame.stream = sent.payload := by
  have result := assembled channel arrived fun part member =>
    sentFrames_carried same (known part member)
  cases sent with
  | whole frame unsplit =>
      exact ⟨frame, (result.out frame).mpr (Or.inl ⟨unsplit, complete frame (by simp [Sent.frames])⟩),
        rfl⟩
  | split compound =>
      exact ⟨compound.joined, (result.out _).mpr (Or.inr ⟨compound,
        same ▸ mem_splitMessages.mpr listed, complete, rfl⟩), rfl⟩

end Channel

/-! ## The link -/

def addedMessages (events : List LinkEvent) : List MiscFrame :=
  events.filterMap fun
    | .add message => some message
    | _ => none

/-- The frames of the handled frame sets, as they arrived. -/
def arrivedFrames (processed : List PacketFrameSet) : List MiscFrame :=
  processed.flatMap fun set => set.frames.map received

/-- The sender's log accounts for its frames, and the receiver has assembled
what it has handled. -/
structure Delivering (sender receiver : RaknetServer) (senderAddress receiverAddress : MiscAddress)
    (mtuSize : UInt16) (messages : List MiscFrame) (log : List Sent) (sets : List PacketFrameSet)
    (link : Link) : Prop where
  sending : SenderHolds { sender with sent := [] } receiverAddress mtuSize messages log sets
    link.sender
  processed : ∀ set ∈ link.processed, set ∈ sets
  address : link.receiver.1.address = senderAddress
  connected : hasRaknetConnection senderAddress link.receiver.2 = true
  holder : link.receiver.1.frameHolder =
    (assemble (arrivedFrames link.processed) KeyedArray.empty).1
  posted : postedFrames link.receiver.2 = postedFrames receiver ++
    forWorkers (assemble (arrivedFrames link.processed) KeyedArray.empty).2

/-- The receiver has asked for nothing to be sent again. -/
def NoNack (link : Link) : Prop :=
  ∀ entry ∈ link.receiver.2.sent, ∀ numbers, entry.2 ≠ .acknowledge numbers true

section Steps

variable {environment : Environment} {sender receiver : RaknetServer}
  {senderAddress receiverAddress : MiscAddress} {mtuSize : UInt16} {messages : List MiscFrame}
  {log : List Sent} {sets : List PacketFrameSet} {link next : Link}

theorem Delivering.act (mtuFits : 61 ≤ mtuSize.toNat) (short : mtuSize.toNat ≤ 8251)
    (holds : Delivering sender receiver senderAddress receiverAddress mtuSize messages log sets
      link) {event : SenderEvent}
    (sendable : ∀ message, eventMessage? event = some message → Sendable mtuSize message)
    (acted : senderActs event link = some next) :
    ∃ more after, Delivering sender receiver senderAddress receiverAddress mtuSize
        (messages ++ (eventMessage? event).toList) (log ++ more) (sets ++ after) next ∧
      ((∀ stream, event ≠ .nack stream) → EachOnce log sets link.sender.1 →
        EachOnce (log ++ more) (sets ++ after) next.sender.1) := by
  obtain ⟨moved, stepped, rfl⟩ := Option.map_eq_some_iff.mp acted
  obtain ⟨more, after, sending, once⟩ := holds.sending.step mtuFits short sendable stepped
  exact ⟨more, after, ⟨sending,
    fun set member => List.mem_append_left _ (holds.processed set member), holds.address,
    holds.connected, holds.holder, holds.posted⟩, once⟩

/-- A frame set that arrives is assembled behind those before it. -/
theorem Delivering.deliver
    (holds : Delivering sender receiver senderAddress receiverAddress mtuSize messages log sets
      link) {set : PacketFrameSet} (sent : set ∈ sets) {party : Connection × RaknetServer}
    (handled : handleFrameSet environment (putPacketFrameSet set) link.receiver.1 link.receiver.2 =
      some party) :
    Delivering sender receiver senderAddress receiverAddress mtuSize messages log sets
      { link with receiver := party, processed := link.processed ++ [set] } := by
  have carriable : ∀ frame ∈ set.frames, Carriable frame := fun frame member =>
    holds.sending.carriable frame (List.mem_append_left _ (List.mem_flatMap.mpr ⟨set, sent, member⟩))
  have connected : hasRaknetConnection link.receiver.1.address link.receiver.2 = true :=
    holds.address ▸ holds.connected
  obtain ⟨holder, posted⟩ := handleFrameSet_assemble (getPacketFrameSet_received set carriable)
    connected handled
  have posts := handleFrameSet_posts handled
  have arrived : arrivedFrames (link.processed ++ [set]) =
      arrivedFrames link.processed ++ set.frames.map received := by
    simp only [arrivedFrames, List.flatMap_append, List.flatMap_cons, List.flatMap_nil,
      List.append_nil]
  refine ⟨holds.sending, fun other member => ?_, posts.address.trans holds.address,
    (posts.address.trans holds.address) ▸ posts.connected.trans connected, ?_, ?_⟩
  · rcases List.mem_append.mp member with early | now
    · exact holds.processed other early
    · exact List.mem_singleton.mp now ▸ sent
  · rw [arrived, assemble_append, ← holds.holder]
    exact holder
  · rw [arrived, assemble_append, ← holds.holder, forWorkers_append, ← List.append_assoc,
      ← holds.posted]
    exact posted

/-- What the receiver sends leaves its frames as they are. -/
theorem Delivering.answering
    (holds : Delivering sender receiver senderAddress receiverAddress mtuSize messages log sets
      link) {party : Connection × RaknetServer}
    (posts : Posts (fun _ => True) link.receiver party)
    (sameHolder : party.1.frameHolder = link.receiver.1.frameHolder)
    (samePosts : party.2.mainToThreaded = link.receiver.2.mainToThreaded) :
    Delivering sender receiver senderAddress receiverAddress mtuSize messages log sets
      { link with receiver := party } := by
  have connected : hasRaknetConnection link.receiver.1.address link.receiver.2 = true :=
    holds.address ▸ holds.connected
  exact ⟨holds.sending, holds.processed, posts.address.trans holds.address,
    (posts.address.trans holds.address) ▸ posts.connected.trans connected,
    sameHolder.trans holds.holder,
    (congrArg (List.filterMap postedFrame) samePosts).trans holds.posted⟩

theorem linkStep_delivering (mtuFits : 61 ≤ mtuSize.toNat) (short : mtuSize.toNat ≤ 8251)
    (holds : Delivering sender receiver senderAddress receiverAddress mtuSize messages log sets
      link) {event : LinkEvent}
    (sendable : ∀ message ∈ addedMessages [event], Sendable mtuSize message)
    (stepped : linkStep environment link event = some next) :
    ∃ more after, Delivering sender receiver senderAddress receiverAddress mtuSize
        (messages ++ addedMessages [event]) (log ++ more) (sets ++ after) next ∧
      (NoNack next → EachOnce log sets link.sender.1 →
        EachOnce (log ++ more) (sets ++ after) next.sender.1) := by
  have same : ∀ {after : Link}, Delivering sender receiver senderAddress receiverAddress mtuSize
      messages log sets after → after.sender = link.sender →
      ∃ more added, Delivering sender receiver senderAddress receiverAddress mtuSize
        (messages ++ []) (log ++ more) (sets ++ added) after ∧
      (NoNack after → EachOnce log sets link.sender.1 →
        EachOnce (log ++ more) (sets ++ added) after.sender.1) := by
    intro after holds unmoved
    refine ⟨[], [], by simpa using holds, fun _ once => ?_⟩
    rw [unmoved, List.append_nil, List.append_nil]
    exact once
  cases event with
  | add message =>
      obtain ⟨more, after, result, once⟩ := holds.act mtuFits short (fun other here => by
        obtain rfl := Option.some.inj here
        exact sendable message (List.mem_singleton.mpr rfl)) stepped
      exact ⟨more, after, result, fun _ => once fun _ other => by cases other⟩
  | flush =>
      obtain ⟨more, after, result, once⟩ :=
        holds.act mtuFits short (fun _ here => by cases here) stepped
      exact ⟨more, after, result, fun _ => once fun _ other => by cases other⟩
  | deliver i =>
      simp only [linkStep] at stepped
      split at stepped
      · rename_i owner set delivered
        obtain ⟨party, handled, rfl⟩ := Option.map_eq_some_iff.mp stepped
        have logged := List.mem_of_getElem? delivered
        rw [holds.sending.ledger.sent, List.nil_append] at logged
        obtain ⟨sent, member, equal⟩ := List.mem_map.mp logged
        cases equal
        exact same (holds.deliver member handled) rfl
      · cases stepped
        exact same holds rfl
  | sendAckQueue =>
      cases stepped
      refine same (holds.answering (sendRaknetAckQueue_posts _ _) ?_ ?_) rfl <;>
      · unfold sendRaknetAckQueue
        split <;> rfl
  | sendNackQueue =>
      cases stepped
      refine same (holds.answering (sendRaknetNackQueue_posts _ _) ?_ ?_) rfl <;>
      · unfold sendRaknetNackQueue
        split <;> rfl
  | answer i =>
      simp only [linkStep] at stepped
      split at stepped
      · obtain ⟨more, after, result, once⟩ :=
          holds.act mtuFits short (fun _ here => by cases here) stepped
        exact ⟨more, after, result, fun _ => once fun _ other => by cases other⟩
      · rename_i owner numbers inFlight
        obtain ⟨more, after, result, -⟩ :=
          holds.act mtuFits short (fun _ here => by cases here) stepped
        refine ⟨more, after, result, fun quiet => absurd rfl (quiet (owner, _) ?_ numbers)⟩
        obtain ⟨moved, -, rfl⟩ := Option.map_eq_some_iff.mp stepped
        exact List.mem_of_getElem? inFlight
      · cases stepped
        exact same holds rfl

theorem delivering_new (senderMtu receiverMtu : UInt16)
    (connected : hasRaknetConnection senderAddress receiver = true) :
    Delivering sender receiver senderAddress receiverAddress senderMtu [] [] []
      (newLink senderAddress receiverAddress senderMtu receiverMtu sender receiver) where
  sending := senderHolds_new _ receiverAddress senderMtu
  processed _ member := absurd member List.not_mem_nil
  address := rfl
  connected := connected
  holder := rfl
  posted := (List.append_nil _).symm

theorem run_delivering {receiverMtu : UInt16} (mtuFits : 61 ≤ mtuSize.toNat)
    (short : mtuSize.toNat ≤ 8251) {events : List LinkEvent}
    (sendable : ∀ message ∈ addedMessages events, Sendable mtuSize message)
    (connected : hasRaknetConnection senderAddress receiver = true)
    (reached : run (linkStep environment) events
      (newLink senderAddress receiverAddress mtuSize receiverMtu sender receiver) = some link) :
    ∃ log sets, Delivering sender receiver senderAddress receiverAddress mtuSize
      (addedMessages events) log sets link := by
  refine run_induction (fun history state =>
    (∀ message ∈ addedMessages history, Sendable mtuSize message) →
    ∃ log sets, Delivering sender receiver senderAddress receiverAddress mtuSize
      (addedMessages history) log sets state)
    (fun _ => ⟨[], [], delivering_new mtuSize receiverMtu connected⟩) ?_ reached sendable
  intro history state event after _ before stepped allowed
  rw [addedMessages, List.filterMap_append] at allowed
  obtain ⟨log, sets, holds⟩ := before fun message member =>
    allowed message (List.mem_append_left _ member)
  obtain ⟨more, added, result, -⟩ := linkStep_delivering mtuFits short holds
    (fun message member => allowed message (List.mem_append_right _ member)) stepped
  refine ⟨log ++ more, sets ++ added, ?_⟩
  rw [addedMessages, List.filterMap_append]
  exact result

end Steps

/-! ## Safety -/

section Delivered

variable {sender receiver : RaknetServer} {senderAddress receiverAddress : MiscAddress}
  {mtuSize : UInt16} {messages : List MiscFrame} {log : List Sent} {sets : List PacketFrameSet}
  {link : Link}

theorem Delivering.channel
    (holds : Delivering sender receiver senderAddress receiverAddress mtuSize messages log sets
      link) (fewer : (messages.countP fun message => Long mtuSize message) ≤ 2 ^ 16) :
    ∃ channel : Channel, channel.compounds = splitMessages log :=
  ⟨⟨splitMessages log, ids_distinct holds.sending.ids (holds.sending.long ▸ fewer)⟩, rfl⟩

theorem Delivering.known
    (holds : Delivering sender receiver senderAddress receiverAddress mtuSize messages log sets
      link) {frame : MiscFrame} (member : frame ∈ arrivedFrames link.processed) :
    frame ∈ sentFrames log := by
  obtain ⟨set, handled, arrived⟩ := List.mem_flatMap.mp member
  obtain ⟨original, inside, rfl⟩ := List.mem_map.mp arrived
  exact holds.sending.known original (List.mem_append_left _
    (List.mem_flatMap.mpr ⟨set, holds.processed set handled, inside⟩))

theorem Delivering.sent_of_message
    (holds : Delivering sender receiver senderAddress receiverAddress mtuSize messages log sets
      link) {message : MiscFrame} (member : message ∈ messages) :
    ∃ sent ∈ log, sent.payload = message.stream := by
  have listed : message.stream ∈ log.map Sent.payload := by
    rw [holds.sending.payloads]
    exact List.mem_map_of_mem member
  exact List.mem_map.mp listed

theorem Delivering.message_of_sent
    (holds : Delivering sender receiver senderAddress receiverAddress mtuSize messages log sets
      link) {sent : Sent} (member : sent ∈ log) :
    ∃ message ∈ messages, message.stream = sent.payload := by
  have listed : sent.payload ∈ messages.map MiscFrame.stream := by
    rw [← holds.sending.payloads]
    exact List.mem_map_of_mem member
  exact List.mem_map.mp listed

/-- A frame for the workers is a whole message. -/
theorem Delivering.sound
    (holds : Delivering sender receiver senderAddress receiverAddress mtuSize messages log sets
      link) (fewer : (messages.countP fun message => Long mtuSize message) ≤ 2 ^ 16)
    {frame : MiscFrame}
    (member : frame ∈ forWorkers (assemble (arrivedFrames link.processed) KeyedArray.empty).2) :
    frame.isFragmented = 0 ∧ ∃ message ∈ messages, message.stream = frame.stream := by
  obtain ⟨channel, same⟩ := holds.channel fewer
  obtain ⟨unsplit, sent, listed, payload, -⟩ :=
    assembled_sent same (fun part => holds.known) (List.mem_of_mem_filter member)
  obtain ⟨message, added, stream⟩ := holds.message_of_sent listed
  exact ⟨unsplit, message, added, stream.trans payload⟩

/-- The frame sets a party has sent. -/
def sentSets (server : RaknetServer) : List PacketFrameSet :=
  server.sent.filterMap fun entry =>
    match entry.2 with
    | .frameSet set => some set
    | _ => none

theorem Delivering.sentSets
    (holds : Delivering sender receiver senderAddress receiverAddress mtuSize messages log sets
      link) : sentSets link.sender.2 = sets := by
  rw [LinkDelivery.sentSets, holds.sending.ledger.sent, List.nil_append, List.filterMap_map]
  exact List.filterMap_some

/-- Every frame of what was sent has arrived. -/
def AllArrived (sets processed : List PacketFrameSet) : Prop :=
  ∀ set ∈ sets, ∀ frame ∈ set.frames, ∃ handled ∈ processed, frame ∈ handled.frames

instance (sets processed : List PacketFrameSet) : Decidable (AllArrived sets processed) :=
  inferInstanceAs (Decidable (∀ set ∈ sets, ∀ frame ∈ set.frames, _))

/-- When nothing is queued and all frames have arrived, each message is posted. -/
theorem Delivering.complete
    (holds : Delivering sender receiver senderAddress receiverAddress mtuSize messages log sets
      link) (fewer : (messages.countP fun message => Long mtuSize message) ≤ 2 ^ 16)
    (flushed : link.sender.1.queue.frames = []) (arrived : AllArrived sets link.processed)
    {message : MiscFrame} (member : message ∈ messages) (notOwn : ¬ ForRaknet message) :
    ∃ frame ∈ forWorkers (assemble (arrivedFrames link.processed) KeyedArray.empty).2,
      frame.stream = message.stream := by
  obtain ⟨channel, same⟩ := holds.channel fewer
  obtain ⟨sent, listed, payload⟩ := holds.sent_of_message member
  obtain ⟨frame, out, stream⟩ := sent_assembled same (fun part => holds.known) listed (by
    intro part inside
    obtain ⟨original, queuedHere, rfl⟩ :=
      holds.sending.put part (List.mem_flatMap.mpr ⟨sent, listed, inside⟩)
    rw [queued, flushed, List.append_nil] at queuedHere
    obtain ⟨set, setSent, original_mem⟩ := List.mem_flatMap.mp queuedHere
    obtain ⟨handled, processed, again⟩ := arrived set setSent original original_mem
    exact List.mem_flatMap.mpr ⟨handled, processed, List.mem_map_of_mem again⟩)
  have same := stream.trans payload
  refine ⟨frame, List.mem_filter.mpr ⟨out, decide_eq_true fun own => notOwn ?_⟩, same⟩
  rwa [ForRaknet, ← same]

end Delivered

/-- Whatever is lost, repeated or reordered, a frame that is handed to the
workers is a whole message that was added. -/
theorem handed_frames_were_added (environment : Environment)
    (senderAddress receiverAddress : MiscAddress) (senderMtu receiverMtu : UInt16)
    (sender receiver : RaknetServer) (events : List LinkEvent) (link : Link)
    (mtuFits : 61 ≤ senderMtu.toNat) (short : senderMtu.toNat ≤ 8251)
    (connected : hasRaknetConnection senderAddress receiver = true)
    (sendable : ∀ message ∈ addedMessages events, Sendable senderMtu message)
    (fewer : ((addedMessages events).countP fun message => Long senderMtu message) ≤ 2 ^ 16)
    (reached : run (linkStep environment) events
      (newLink senderAddress receiverAddress senderMtu receiverMtu sender receiver) = some link) :
    ∃ handed, postedFrames link.receiver.2 = postedFrames receiver ++ handed ∧
      ∀ frame ∈ handed, frame.isFragmented = 0 ∧
        ∃ message ∈ addedMessages events, message.stream = frame.stream := by
  obtain ⟨log, sets, holds⟩ := run_delivering mtuFits short sendable connected reached
  exact ⟨_, holds.posted, fun frame member => holds.sound fewer member⟩

/-- A long message and a short one, over an MTU of 64. -/
def smallLink : Link :=
  newLink ⟨4, [0x31], 19132⟩ ⟨4, [0x32], 19133⟩ 64 64 {}
    (addRaknetConnection ⟨4, [0x31], 19132⟩ 64 {})

def messagesAdded : List LinkEvent :=
  [.add { stream := [0xfe, 1, 2, 3, 4, 5] }, .add { stream := [0xfe] }, .flush]

/-- The second fragment arrives first, and the first one twice. -/
def outOfOrder : List LinkEvent :=
  messagesAdded ++ [.deliver 1, .deliver 0, .deliver 0, .deliver 2]

theorem outOfOrder_sendable : ∀ message ∈ addedMessages outOfOrder, Sendable 64 message := by
  intro message member
  simp only [addedMessages, outOfOrder, messagesAdded, List.cons_append, List.nil_append,
    List.filterMap_cons, List.filterMap_nil, List.mem_cons, List.not_mem_nil, or_false] at member
  rcases member with rfl | rfl
  · exact ⟨rfl, by decide, by decide⟩
  · exact ⟨rfl, by decide, by decide⟩

theorem handed_frames_were_added_outOfOrder :
    ∃ link handed, run (linkStep stillEnvironment) outOfOrder smallLink = some link ∧
      postedFrames link.receiver.2 = handed ∧
      ∀ frame ∈ handed, frame.isFragmented = 0 ∧
        ∃ message ∈ addedMessages outOfOrder, message.stream = frame.stream := by
  obtain ⟨link, reached⟩ : ∃ link,
      run (linkStep stillEnvironment) outOfOrder smallLink = some link := ⟨_, rfl⟩
  obtain ⟨handed, posted, each⟩ := handed_frames_were_added stillEnvironment _ _ 64 64 _ _
    outOfOrder link (by decide) (by decide) (by decide) outOfOrder_sendable (by decide) reached
  exact ⟨link, handed, reached, posted, each⟩

/-- Once every frame that was sent has arrived, by whatever datagrams, each
added message has been handed to the workers. -/
theorem added_messages_are_handed (environment : Environment)
    (senderAddress receiverAddress : MiscAddress) (senderMtu receiverMtu : UInt16)
    (sender receiver : RaknetServer) (events : List LinkEvent) (link : Link)
    (mtuFits : 61 ≤ senderMtu.toNat) (short : senderMtu.toNat ≤ 8251)
    (connected : hasRaknetConnection senderAddress receiver = true)
    (sendable : ∀ message ∈ addedMessages events, Sendable senderMtu message)
    (fewer : ((addedMessages events).countP fun message => Long senderMtu message) ≤ 2 ^ 16)
    (reached : run (linkStep environment) events
      (newLink senderAddress receiverAddress senderMtu receiverMtu sender receiver) = some link)
    (flushed : link.sender.1.queue.frames = [])
    (arrived : AllArrived (sentSets link.sender.2) link.processed) :
    ∃ handed, postedFrames link.receiver.2 = postedFrames receiver ++ handed ∧
      ∀ message ∈ addedMessages events, ¬ ForRaknet message →
        ∃ frame ∈ handed, frame.stream = message.stream := by
  obtain ⟨log, sets, holds⟩ := run_delivering mtuFits short sendable connected reached
  rw [holds.sentSets] at arrived
  exact ⟨_, holds.posted, fun message member notOwn =>
    holds.complete fewer flushed arrived member notOwn⟩

theorem added_messages_are_handed_outOfOrder :
    ∃ link handed, run (linkStep stillEnvironment) outOfOrder smallLink = some link ∧
      postedFrames link.receiver.2 = handed ∧
      ∀ message ∈ addedMessages outOfOrder, ¬ ForRaknet message →
        ∃ frame ∈ handed, frame.stream = message.stream := by
  obtain ⟨link, reached, flushed, arrived⟩ : ∃ link,
      run (linkStep stillEnvironment) outOfOrder smallLink = some link ∧
      link.sender.1.queue.frames = [] ∧ AllArrived (sentSets link.sender.2) link.processed :=
    ⟨_, rfl, rfl, by decide⟩
  obtain ⟨handed, posted, each⟩ := added_messages_are_handed stillEnvironment _ _ 64 64 _ _
    outOfOrder link (by decide) (by decide) (by decide) outOfOrder_sendable (by decide) reached
    flushed arrived
  exact ⟨link, handed, reached, posted, each⟩

end PodrumRakNet.LinkDelivery
