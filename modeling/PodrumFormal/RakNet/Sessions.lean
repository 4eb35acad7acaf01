import Mathlib.Data.List.Forall2
import PodrumFormal.RakNet.PeerAddress

/-!
# Frames of an earlier connection

A frame waits for the worker under the address it came from.  The connection
that the worker looks up by that address may be a later one.
-/

set_option autoImplicit false

namespace PodrumRakNet.Sessions

open EventRun PodrumRakNet.Frame PodrumRakNet.Packet PodrumRakNet.Connections
open PodrumRakNet.Handshake PodrumRakNet.Server PodrumRakNet.Threads PodrumRakNet.OpenPeers
open PodrumRakNet.PeerAddress

variable {α : Type}

/-! ## The instrumented threads -/

/-- The number of the connection that was opened last for the address. -/
def session (address : MiscAddress) (opened : List MiscAddress) : Nat :=
  opened.countP fun other => peerKey other = peerKey address

def messageAddress : InternalMessage → MiscAddress
  | .frame _ address => address
  | .newIncomingConnection address => address
  | .disconnectNotification address => address

/-- A call of `on_frame_executor`. -/
structure Passing where
  frame : MiscFrame
  receivedOn : Nat
  passedWith : Nat
  deriving DecidableEq

/-- `waiting` has, for every message of `main_to_threaded`, the number of the
connection its address had when it was posted. -/
structure Threaded (α : Type) where
  server : Podrum α
  waiting : List Nat := []
  passed : List Passing := []

def postedSessions (before after : Podrum α) : List Nat :=
  (after.raknet.mainToThreaded.drop before.raknet.mainToThreaded.length).map fun message =>
    session (messageAddress message) after.opened

def passing (state : Threaded α) : List Passing :=
  match state.server.raknet.mainToThreaded, state.waiting with
  | .frame frame address :: _, received :: _ =>
      match getRaknetConnection address state.server.raknet with
      | some connection => [⟨frame, received, session connection.address state.server.opened⟩]
      | none => []
  | _, _ => []

inductive ThreadEvent
  | tick (received : Option SocketData)
  | worker

def threadStep (configuration : Configuration) (executors : Executors α) (state : Threaded α) :
    ThreadEvent → Option (Threaded α)
  | .tick received =>
      (tickRaknet .copied configuration executors received state.server).map fun next =>
        { state with
          server := next
          waiting := state.waiting ++ postedSessions state.server next }
  | .worker =>
      (handleMainToThreaded executors state.server).map fun next =>
        { server := next
          waiting := state.waiting.tail
          passed := state.passed ++ passing state }

/-! ## The condition -/

/-- The datagram is one that a connection is added for. -/
def OpensConnection (server : RaknetServer) (data : SocketData) : Prop :=
  data.stream.length < 65535 ∧ data.stream.head? = some idOpenConnectionRequest2 ∧
    hasRaknetConnection data.address server = false

/-- No connection is opened from an address while a frame of that address
waits. -/
def NoneWaiting (state : Threaded α) : ThreadEvent → Prop
  | .tick (some data) => OpensConnection state.server.raknet data →
      ∀ frame address, .frame frame address ∈ state.server.raknet.mainToThreaded →
        peerKey address ≠ peerKey data.address
  | _ => True

/-! ## One tick -/

theorem session_append (address other : MiscAddress) (opened : List MiscAddress) :
    session address (opened ++ [other]) =
      session address opened + if peerKey other = peerKey address then 1 else 0 := by
  rw [session, List.countP_append, List.countP_singleton, session]
  simp

section Tick

variable {configuration : Configuration} {executors : Executors α}
  {received : Option SocketData} {server next : Podrum α}

/-- A datagram posts messages, and opens at most the connection of its
sender. -/
theorem handleRaknetPacket_effect
    (success : handleRaknetPacket .copied configuration received server = some next) :
    (∃ messages, next.raknet.mainToThreaded = server.raknet.mainToThreaded ++ messages) ∧
      (next.opened = server.opened ∨ ∃ data address, received = some data ∧
        OpensConnection server.raknet data ∧ peerKey address = peerKey data.address ∧
        next.opened = server.opened ++ [address]) := by
  obtain ⟨⟨data, raknet⟩, heard, success⟩ := Option.bind_eq_some_iff.mp success
  obtain ⟨rfl, source⟩ := receiveData_copied heard
  have change := dispatch_change success
  refine ⟨change.posts, ?_⟩
  by_cases request : data.stream.head? = some idOpenConnectionRequest2
  · cases change with
    | talks messages table opened => exact Or.inl opened
    | opens address cause absent table opened =>
        right
        rcases source with rfl | ⟨original, rfl, short, rfl⟩
        · cases request
        · obtain rfl := Option.some.inj cause
          refine ⟨original, _, rfl, ⟨short, request, absent⟩, ?_, opened⟩
          rfl
    | closes address cause => cases cause
  · exact Or.inl (dispatch_opened request success)

theorem tickRaknet_effect
    (success : tickRaknet .copied configuration executors received server = some next) :
    (∃ messages, next.raknet.mainToThreaded = server.raknet.mainToThreaded ++ messages) ∧
      (next.opened = server.opened ∨ ∃ data address, received = some data ∧
        OpensConnection server.raknet data ∧ peerKey address = peerKey data.address ∧
        next.opened = server.opened ++ [address]) := by
  obtain ⟨handled, first, success⟩ := Option.bind_eq_some_iff.mp success
  obtain ⟨drained, emptied, success⟩ := Option.bind_eq_some_iff.mp success
  obtain rfl := Option.some.inj success
  obtain ⟨⟨messages, posted⟩, opened⟩ := handleRaknetPacket_effect first
  obtain ⟨sameOpened, more, later⟩ := drain_effect emptied
  have flush := updateConnections_change drained
  obtain ⟨last, flushed⟩ := flush.posts
  refine ⟨⟨messages ++ (more ++ last), ?_⟩, ?_⟩
  · rw [flushed, later, posted, List.append_assoc, List.append_assoc]
  · rw [flush.opened_none, sameOpened]
    exact opened

end Tick

/-! ## The invariant -/

/-- A waiting frame was received on the connection its address has now, unless
that one is closed. -/
def Stamped (opened : List MiscAddress) : InternalMessage → Nat → Prop
  | .frame _ address, received => received = session address opened
  | _, _ => True

def NeverLater (state : Threaded α) : Prop :=
  ∀ entry ∈ state.passed, ¬ entry.receivedOn < entry.passedWith

structure SessionsInvariant (state : Threaded α) : Prop where
  stamped : List.Forall₂ (Stamped state.server.opened) state.server.raknet.mainToThreaded
    state.waiting
  neverLater : NeverLater state

section Steps

variable {configuration : Configuration} {executors : Executors α} {state next : Threaded α}

/-- An opening leaves the number of every address but its own. -/
theorem stamped_opens {opened : List MiscAddress} {opening : MiscAddress}
    {queue : List InternalMessage} {waiting : List Nat}
    (stamped : List.Forall₂ (Stamped opened) queue waiting)
    (others : ∀ frame address, .frame frame address ∈ queue →
      peerKey address ≠ peerKey opening) :
    List.Forall₂ (Stamped (opened ++ [opening])) queue waiting := by
  induction stamped with
  | nil => exact List.Forall₂.nil
  | @cons message received _ _ first _ ih =>
      refine List.Forall₂.cons ?_ (ih fun frame address member =>
        others frame address (List.mem_cons_of_mem _ member))
      cases message with
      | frame frame address =>
          have different := (others frame address (List.mem_cons_self ..)).symm
          rw [Stamped, session_append, if_neg different]
          exact first
      | newIncomingConnection address => trivial
      | disconnectNotification address => trivial

theorem stamped_posted (opened : List MiscAddress) (messages : List InternalMessage) :
    List.Forall₂ (Stamped opened) messages
      (messages.map fun message => session (messageAddress message) opened) := by
  rw [List.forall₂_map_right_iff, List.forall₂_same]
  intro message _
  cases message with
  | frame frame address => rfl
  | newIncomingConnection address => trivial
  | disconnectNotification address => trivial

theorem tick_keeps {received : Option SocketData} (holds : SessionsInvariant state)
    (allowed : NoneWaiting state (.tick received))
    (stepped : threadStep configuration executors state (.tick received) = some next) :
    SessionsInvariant next := by
  obtain ⟨server, ticked, rfl⟩ := Option.map_eq_some_iff.mp stepped
  obtain ⟨⟨messages, posted⟩, opened⟩ := tickRaknet_effect ticked
  refine ⟨?_, holds.neverLater⟩
  have still : List.Forall₂ (Stamped server.opened) state.server.raknet.mainToThreaded
      state.waiting := by
    rcases opened with same | ⟨data, address, rfl, opens, sameKey, more⟩
    · rw [same]
      exact holds.stamped
    · rw [more]
      apply stamped_opens holds.stamped
      rw [sameKey]
      exact allowed opens
  rw [postedSessions, posted, List.drop_left]
  exact List.rel_append still (stamped_posted server.opened messages)

theorem passing_current (holds : SessionsInvariant state) :
    ∀ entry ∈ passing state, ¬ entry.receivedOn < entry.passedWith := by
  intro entry member
  unfold passing at member
  split at member
  · rename_i frame address rest received later queued numbered
    split at member
    · rename_i connection found
      obtain rfl := List.mem_singleton.mp member
      have stamped := holds.stamped
      rw [queued, numbered] at stamped
      have current : received = session address state.server.opened :=
        (List.forall₂_cons.mp stamped).1
      have sameKey : peerKey connection.address = peerKey address :=
        getRaknetConnection_key found
      rw [current, session, session, sameKey]
      exact Nat.lt_irrefl _
    · cases member
  · cases member

theorem worker_keeps (holds : SessionsInvariant state)
    (stepped : threadStep configuration executors state .worker = some next) :
    SessionsInvariant next := by
  obtain ⟨server, handled, rfl⟩ := Option.map_eq_some_iff.mp stepped
  obtain ⟨_, opened, taken⟩ := handleMainToThreaded_effect handled
  refine ⟨?_, ?_⟩
  · rw [opened, taken]
    have stamped := holds.stamped
    dsimp only
    generalize state.server.raknet.mainToThreaded = queue at stamped ⊢
    generalize state.waiting = waiting at stamped ⊢
    cases stamped with
    | nil => exact List.Forall₂.nil
    | cons first rest => exact rest
  · intro entry member
    rcases List.mem_append.mp member with earlier | now
    · exact holds.neverLater entry earlier
    · exact passing_current holds entry now

end Steps

/-- In whatever order the threads take their steps. -/
theorem frames_never_later (configuration : Configuration) (executors : Executors α) (app : α)
    (events : List ThreadEvent)
    (noneWaiting : Throughout (threadStep configuration executors) NoneWaiting events
      { server := { app } })
    (state : Threaded α)
    (visited : Visits (threadStep configuration executors) events { server := { app } } state) :
    NeverLater state := by
  have start : SessionsInvariant ({ server := { app } } : Threaded α) :=
    ⟨List.Forall₂.nil, fun _ member => absurd member List.not_mem_nil⟩
  refine (throughout_visits SessionsInvariant ?_ events _ start noneWaiting state
    visited).neverLater
  intro before event after holds allowed stepped
  cases event with
  | tick received => exact tick_keeps holds allowed stepped
  | worker => exact worker_keeps holds stepped

/-- A frame of an unknown packet, and goodbye. -/
def lastFrames : SocketData :=
  ⟨opening.address, [0x80, 0, 0, 0, 0x00, 0, 8, 0xfe, 0x00, 0, 8, 0x15]⟩

theorem frames_never_later_received :
    ∃ state, run (threadStep podrum idleExecutors)
        [.tick (some opening), .tick (some lastFrames), .worker] { server := { app := () } } =
        some state ∧ NeverLater state := by
  have computed : (run (threadStep podrum idleExecutors)
      [.tick (some opening), .tick (some lastFrames), .worker]
      { server := { app := () } }).isSome := by decide
  obtain ⟨state, returned⟩ := Option.isSome_iff_exists.mp computed
  refine ⟨state, returned, frames_never_later podrum idleExecutors () _ ?_ state
    (visits_end returned)⟩
  refine ⟨fun _ _ _ member => absurd member List.not_mem_nil, fun _ _ => ⟨?_, fun _ _ =>
    ⟨trivial, fun _ _ => trivial⟩⟩⟩
  intro opens
  exact absurd opens.2.1 (by decide)

/-- The client comes back before the worker has taken its last frame. -/
theorem frame_passed_later :
    ¬ ∀ (events : List ThreadEvent) (state : Threaded Unit),
      Visits (threadStep podrum idleExecutors) events { server := { app := () } } state →
      NeverLater state := by
  intro never
  have computed : (run (threadStep podrum idleExecutors)
      [.tick (some opening), .tick (some lastFrames), .tick (some opening), .worker]
      { server := { app := () } }).map Threaded.passed =
        some [⟨{ stream := [0xfe] }, 1, 2⟩] := by decide
  obtain ⟨final, returned, passed⟩ := Option.map_eq_some_iff.mp computed
  have current := never _ final (visits_end returned)
  rw [NeverLater, passed] at current
  exact current _ (List.mem_singleton.mpr rfl) (by decide)

end PodrumRakNet.Sessions
