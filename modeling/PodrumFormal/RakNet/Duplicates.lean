import PodrumFormal.RakNet.HandlerEffects
import PodrumFormal.RakNet.NackQueue

/-!
# Frame sets that arrive again

`handle_frame` never looks at `receiver_reliable_frame_index`.  Over any run of
a connection, a frame that goes to the workers goes there once for every
arrival of its frames, whatever comes in between.
-/

set_option autoImplicit false

namespace PodrumRakNet.Duplicates

open EventRun PodrumRakNet.Frame PodrumRakNet.FrameSet PodrumRakNet.Packet
open PodrumRakNet.Connections PodrumRakNet.Handler PodrumRakNet.ReceiveWindow
open PodrumRakNet.Recovery PodrumRakNet.HandlerEffects PodrumRakNet.NackQueue

/-! ## Runs -/

inductive TrafficEvent where
  | receive (event : ReceiverEvent)
  | send (event : SenderEvent)

def trafficStep (environment : Environment) (state : Connection × RaknetServer) :
    TrafficEvent → Option (Connection × RaknetServer)
  | .receive event => receiverStep environment state event
  | .send event => senderStep state event

/-- A datagram with these frames, under whatever sequence number. -/
def delivers (frames : List MiscFrame) : TrafficEvent → Bool
  | .receive (.frameSet stream) =>
      (getPacketFrameSet stream).any fun decoded => decoded.1.frames = frames
  | _ => false

def deliveries (frames : List MiscFrame) (events : List TrafficEvent) : Nat :=
  events.countP (delivers frames)

/-- How often the frame was posted to the workers between the two states. -/
def handed (frame : MiscFrame) (before after : Connection × RaknetServer) : Nat :=
  (after.2.mainToThreaded.drop before.2.mainToThreaded.length).count
    (.frame frame before.1.address)

/-! ## Posted frames -/

section Posted

variable {kind : Datagram → Prop} {first second third : Connection × RaknetServer}
  {frame : MiscFrame}

theorem handed_append {messages : List InternalMessage}
    (posted : second.2.mainToThreaded = first.2.mainToThreaded ++ messages) :
    handed frame first second = messages.count (.frame frame first.1.address) := by
  rw [handed, posted, List.drop_left]

theorem handed_trans (left : Posts kind first second)
    (right : Posts kind second third) :
    handed frame first third = handed frame first second + handed frame second third := by
  obtain ⟨messages, before, _⟩ := left.toThreaded
  obtain ⟨more, after, _⟩ := right.toThreaded
  have both : third.2.mainToThreaded = first.2.mainToThreaded ++ (messages ++ more) := by
    rw [after, before, List.append_assoc]
  rw [handed_append both, handed_append before, handed_append after, left.address,
    List.count_append]

/-- The frames RakNet answers itself and those of a connection that is not in
the table are never posted. -/
theorem handed_none (posts : Posts kind first second)
    (excluded : ForRaknet frame ∨ hasRaknetConnection first.1.address first.2 = false) :
    handed frame first second = 0 := by
  obtain ⟨messages, appended, each⟩ := posts.toThreaded
  rw [handed_append appended, List.count_eq_zero]
  intro member
  obtain ⟨_, connected, notOwn⟩ := each _ member
  rcases excluded with own | absent
  · exact notOwn own
  · rw [absent] at connected
    cases connected

end Posted

/-! ## One frame set -/

section Delivery

variable {environment : Environment} {connection next : Connection}
  {server nextServer : RaknetServer} {frame : MiscFrame}

theorem handleWholeFrame_hands (notOwn : ¬ ForRaknet frame)
    (connected : hasRaknetConnection connection.address server = true)
    (success : handleWholeFrame environment frame connection server = some (next, nextServer)) :
    handed frame (connection, server) (next, nextServer) = 1 := by
  obtain ⟨packetId, first, success⟩ := Option.bind_eq_some_iff.mp success
  have foreign : packetId ∉ ownPacketIds := fun member => notOwn ⟨packetId, member, first⟩
  simp only [ownPacketIds, List.mem_cons, List.not_mem_nil, or_false, not_or] at foreign
  rcases foreign with ⟨notRequest, notPing, notGoodbye, notArrival⟩
  rw [if_neg notRequest, if_neg notPing, if_neg notGoodbye, if_neg notArrival, sendRaknetFrame,
    if_pos connected] at success
  cases success
  rw [handed_append rfl, List.count_singleton_self]

/-- Every unfragmented frame of a frame set is posted, with nothing asked about
its reliable index. -/
theorem handleFrames_hands (whole : frame.isFragmented = 0) (notOwn : ¬ ForRaknet frame) :
    ∀ (frames : List MiscFrame) (connection : Connection) (server : RaknetServer),
    frame ∈ frames → hasRaknetConnection connection.address server = true →
    handleFrames environment connection.address frames connection server =
      some (next, nextServer) →
    1 ≤ handed frame (connection, server) (next, nextServer) := by
  intro frames
  induction frames with
  | nil =>
      intro connection server member
      cases member
  | cons first rest ih =>
      intro connection server member connected success
      simp only [handleFrames, if_pos connected] at success
      obtain ⟨⟨middle, middleServer⟩, handled, success⟩ := Option.bind_eq_some_iff.mp success
      have posts := handleFrame_posts handled
      have later := handleFrames_posts _ _ _ success
      rw [handed_trans posts later]
      rcases List.mem_cons.mp member with same | behind
      · subst same
        rw [handleFrame, if_neg (not_not.mpr whole)] at handled
        rw [handleWholeFrame_hands notOwn connected handled]
        exact Nat.le_add_right 1 _
      · have still : hasRaknetConnection middle.address middleServer = true :=
          posts.connected.trans connected
        have address : connection.address = middle.address := posts.address.symm
        rw [address] at success
        exact Nat.le_add_left_of_le (ih middle middleServer behind still success)

theorem handleFrameSet_hands {stream : List UInt8} {frames : List MiscFrame}
    (delivered : delivers frames (.receive (.frameSet stream)) = true)
    (member : frame ∈ frames) (whole : frame.isFragmented = 0) (notOwn : ¬ ForRaknet frame)
    (connected : hasRaknetConnection connection.address server = true)
    (success : handleFrameSet environment stream connection server = some (next, nextServer)) :
    1 ≤ handed frame (connection, server) (next, nextServer) := by
  obtain ⟨⟨frameSet, rest⟩, decoded, success⟩ := Option.bind_eq_some_iff.mp success
  obtain ⟨received, windowed, success⟩ := Option.bind_eq_some_iff.mp success
  have address : connection.address = received.address :=
    (receiveSequenceNumber_address windowed).1.symm
  simp only [delivers, decoded, Option.any_some, decide_eq_true_eq] at delivered
  subst delivered
  rw [address] at success connected
  have posted := handleFrames_hands whole notOwn _ _ _ member connected success
  have quiet : Posts IsFrameSet (connection, server) (received, server) :=
    posts_connection server address.symm
  rw [handed_trans quiet (handleFrames_posts _ _ _ success)]
  exact Nat.le_add_left_of_le posted

end Delivery

/-! ## Whole runs -/

section Run

variable {environment : Environment} {state next : Connection × RaknetServer}
  {event : TrafficEvent} {frame : MiscFrame} {frames : List MiscFrame}

theorem trafficStep_posts (stepped : trafficStep environment state event = some next) :
    Posts (fun _ => True) state next := by
  cases event with
  | receive event =>
      cases event with
      | frameSet stream => exact (handleFrameSet_posts stepped).mono fun _ _ => trivial
      | sendAckQueue =>
          obtain rfl := Option.some.inj stepped
          exact sendRaknetAckQueue_posts _ _
      | sendNackQueue =>
          obtain rfl := Option.some.inj stepped
          exact sendRaknetNackQueue_posts _ _
      | sendQueue =>
          obtain rfl := Option.some.inj stepped
          exact (sendRaknetQueue_posts _ _).mono fun _ _ => trivial
  | send event =>
      exact (posts_of_sending (senderStep_sending stepped)).mono fun _ _ => trivial

theorem trafficStep_hands (delivered : delivers frames event = true) (member : frame ∈ frames)
    (whole : frame.isFragmented = 0) (notOwn : ¬ ForRaknet frame)
    (connected : hasRaknetConnection state.1.address state.2 = true)
    (stepped : trafficStep environment state event = some next) :
    1 ≤ handed frame state next := by
  cases event with
  | receive event =>
      cases event with
      | frameSet stream =>
          exact handleFrameSet_hands delivered member whole notOwn connected stepped
      | sendAckQueue => cases delivered
      | sendNackQueue => cases delivered
      | sendQueue => cases delivered
  | send event => cases delivered

theorem run_posts {events : List TrafficEvent} {start final : Connection × RaknetServer}
    (returned : run (trafficStep environment) events start = some final) :
    Posts (fun _ => True) start final :=
  run_preserves (fun _ reached => Posts (fun _ => True) start reached)
    (fun _ _ _ _ before stepped => before.trans (trafficStep_posts stepped)) events [] start final
    (Posts.refl start) returned

/-- Every arrival of its frames posts the frame again. -/
theorem run_hands {events : List TrafficEvent} {start final : Connection × RaknetServer}
    (member : frame ∈ frames) (whole : frame.isFragmented = 0) (notOwn : ¬ ForRaknet frame)
    (connected : hasRaknetConnection start.1.address start.2 = true)
    (returned : run (trafficStep environment) events start = some final) :
    deliveries frames events ≤ handed frame start final := by
  refine run_induction (fun history reached =>
    deliveries frames history ≤ handed frame start reached) (Nat.zero_le _) ?_ returned
  intro history state event next reached counted stepped
  have before := run_posts reached
  have still : hasRaknetConnection state.1.address state.2 = true :=
    before.connected.trans connected
  rw [handed_trans before (trafficStep_posts stepped), deliveries, List.countP_append,
    List.countP_singleton]
  apply Nat.add_le_add counted
  split
  · rename_i delivered
    exact trafficStep_hands delivered member whole notOwn still stepped
  · exact Nat.zero_le _

end Run

theorem frame_handed_once_iff (environment : Environment) (start final : Connection × RaknetServer)
    (frames : List MiscFrame) (events : List TrafficEvent)
    (returned : run (trafficStep environment) events start = some final)
    (again : 2 ≤ deliveries frames events) :
    (∀ frame ∈ frames, frame.isFragmented = 0 → isReliable frame.reliability = true →
      handed frame start final ≤ 1) ↔
    ∀ frame ∈ frames, frame.isFragmented = 0 → isReliable frame.reliability = true →
      ForRaknet frame ∨ hasRaknetConnection start.1.address start.2 = false := by
  constructor
  · intro once frame member whole reliable
    by_contra neither
    obtain ⟨notOwn, present⟩ := not_or.mp neither
    have connected := (Bool.not_eq_false _).mp present
    have twice := run_hands member whole notOwn connected returned
    have single := once frame member whole reliable
    omega
  · intro excluded frame member whole reliable
    have none := handed_none (run_posts returned) (excluded frame member whole reliable)
    omega

/-- One reliable frame, under sequence number 0 and again under 1. -/
def gamePayload : MiscFrame := { reliability := reliabilityReliable, stream := [0xfe] }

def arrivedTwice : List TrafficEvent :=
  [.receive (.frameSet [0x80, 0, 0, 0, 0x40, 0, 8, 0, 0, 0, 0xfe]),
    .receive (.frameSet [0x80, 1, 0, 0, 0x40, 0, 8, 0, 0, 0, 0xfe])]

theorem frame_handed_once_iff_gamePayload :
    ∃ final, run (trafficStep stillEnvironment) arrivedTwice firstConnection = some final ∧
      ((∀ frame ∈ [gamePayload], frame.isFragmented = 0 → isReliable frame.reliability = true →
        handed frame firstConnection final ≤ 1) ↔
      ∀ frame ∈ [gamePayload], frame.isFragmented = 0 → isReliable frame.reliability = true →
        ForRaknet frame ∨
          hasRaknetConnection firstConnection.1.address firstConnection.2 = false) :=
  ⟨_, rfl, frame_handed_once_iff stillEnvironment firstConnection _ [gamePayload] arrivedTwice
    rfl (by decide)⟩

theorem frame_handed_twice :
    ¬ ∀ (start final : Connection × RaknetServer) (frames : List MiscFrame)
      (events : List TrafficEvent),
      run (trafficStep stillEnvironment) events start = some final →
      2 ≤ deliveries frames events →
      ∀ frame ∈ frames, frame.isFragmented = 0 → isReliable frame.reliability = true →
        handed frame start final ≤ 1 := by
  intro once
  have single := once firstConnection _ [gamePayload] arrivedTwice rfl (by decide) gamePayload
    (List.mem_singleton.mpr rfl) rfl rfl
  exact absurd single (by decide)

end PodrumRakNet.Duplicates
