import PodrumFormal.Minecraft.PlayerSessions
import PodrumFormal.RakNet.ByteQueues

/-!
# The game over the byte queues

`on_f` uses of a frame its payload, and of the server the table of connections,
so that the game does over buffers what it does over values.
-/

set_option autoImplicit false

namespace PodrumMinecraft.GameQueues

open EventRun PodrumRakNet.Frame PodrumRakNet.Packet PodrumRakNet.Connections
open PodrumRakNet.Server PodrumRakNet.Threads PodrumRakNet.OpenPeers PodrumRakNet.InternalMessages
open PodrumRakNet.ByteQueues PodrumMisc.CString PodrumMinecraft.Login PodrumMinecraft.Dispatch
open PodrumMinecraft.GameGate PodrumMinecraft.PlayerSessions

/-! ## Who is told to leave -/

/-- A notification is for the connection that the frame came from. -/
def Own (address : MiscAddress) (action : Action) : Prop :=
  ∀ other, action = .disconnectNotification other → other = address

/-- The actions grow by some of this kind. -/
def GrowsBy (address : MiscAddress) (before after : List Action) : Prop :=
  ∃ more, after = before ++ more ∧ ∀ action ∈ more, Own address action

section Actions

variable {environment : GameEnvironment} {address : MiscAddress} {state next : GameState}
  {first second third : List Action}

theorem GrowsBy.trans (one : GrowsBy address first second) (two : GrowsBy address second third) :
    GrowsBy address first third := by
  obtain ⟨more, rfl, each⟩ := one
  obtain ⟨others, rfl, rest⟩ := two
  refine ⟨more ++ others, List.append_assoc .., fun action member => ?_⟩
  exact (List.mem_append.mp member).elim (each action) (rest action)

/-- Nothing but packets and calls. -/
theorem growsBy_quiet (before more : List Action)
    (quiet : ∀ action ∈ more, ∀ other, action ≠ .disconnectNotification other) :
    GrowsBy address before (before ++ more) :=
  ⟨more, rfl, fun action member other same => absurd same (quiet action member other)⟩

theorem settings_grows {protocolVersion : Int32}
    (returned : handleRequestNetworkSettings environment address protocolVersion state = .ok next) :
    GrowsBy address state.actions next.actions := by
  unfold handleRequestNetworkSettings at returned
  split at returned
  · obtain ⟨entityUniqueId, -, returned⟩ := bind_eq_ok.mp returned
    obtain ⟨entityRuntimeId, -, returned⟩ := bind_eq_ok.mp returned
    obtain rfl := Except.ok.inj returned
    exact growsBy_quiet state.actions _ (by simp)
  · obtain rfl := Except.ok.inj returned
    exact growsBy_quiet state.actions _ (by simp)

theorem login_grows {login : PacketLogin}
    (returned : handleLogin environment address login state = .ok next) :
    GrowsBy address state.actions next.actions := by
  obtain ⟨⟨manager, outcome⟩, -, returned⟩ := bind_eq_ok.mp returned
  obtain rfl := Except.ok.inj returned
  refine growsBy_quiet state.actions _ ?_
  cases outcome <;> simp [loginActions]

theorem handleGamePacket_grows {i : Nat} {packet : GamePacket} {goesOn : Bool}
    (returned : handleGamePacket environment address i packet state = .ok (next, goesOn)) :
    GrowsBy address state.actions next.actions := by
  have inbound : GrowsBy address state.actions (state.record [.inbound address packet]).actions :=
    growsBy_quiet state.actions [.inbound address packet] (by simp)
  rcases handleGamePacket_cases returned with
    ⟨protocolVersion, rfl, handled⟩ | ⟨login, rfl, handled⟩ | ⟨-, -, rfl⟩ |
      ⟨-, player, after, actions, -, branch, rfl⟩
  · exact inbound.trans (settings_grows handled)
  · exact inbound.trans (login_grows handled)
  · exact inbound
  · refine growsBy_quiet state.actions _ fun action member other => ?_
    rcases List.mem_cons.mp member with rfl | sent
    · simp
    · obtain ⟨peer, packet, rfl⟩ := (handlePlayerPacket_branch branch).sends action sent
      simp

theorem handleBatch_grows {packets : List GamePacket} {i : Nat}
    (returned : handleBatch environment address i packets state = .ok next) :
    GrowsBy address state.actions next.actions := by
  induction packets generalizing i state with
  | nil =>
      obtain rfl := Except.ok.inj returned
      exact ⟨[], (List.append_nil _).symm, fun _ member => absurd member List.not_mem_nil⟩
  | cons packet packets ih =>
      obtain ⟨⟨middle, goesOn⟩, round, returned⟩ := bind_eq_ok.mp returned
      have first := handleGamePacket_grows round
      dsimp only at returned
      split at returned
      · exact first.trans (ih returned)
      · obtain rfl := Except.ok.inj returned
        exact first

theorem onF_grows {frame : GameFrame} (returned : onF environment address frame state = .ok next) :
    GrowsBy address state.actions next.actions := by
  cases frame with
  | game packets => exact handleBatch_grows returned
  | other =>
      obtain rfl := Except.ok.inj returned
      refine ⟨[.disconnectNotification address], rfl, fun action member other same => ?_⟩
      obtain rfl := List.mem_singleton.mp member
      exact (Action.disconnectNotification.inj same).symm

end Actions

/-! ## What is posted -/

/-- The frames of the packets get through the queue. -/
def FramesPass (codec : GameCodec) : Prop :=
  ∀ actions, ∀ entry ∈ codec.frames actions,
    wireFrame { entry.2 with isFragmented := 0 } = entry.2 ∧
      FrameFits (.frame { address := entry.1, frame := entry.2 })

theorem gameExecutors_portable (environment : GameEnvironment) {codec : GameCodec}
    (frames : FramesPass codec) : Portable (gameExecutors environment codec) where
  blind _ _ _ _ _ _ := rfl
  wire _ _ _ _ := rfl
  posts {frame connection server app next requests} called request member := by
    obtain ⟨gameFrame, -, called⟩ := Option.bind_eq_some_iff.mp called
    obtain ⟨after, handled, called⟩ := Option.bind_eq_some_iff.mp called
    obtain ⟨rfl, rfl⟩ := Prod.mk.inj (Option.some.inj called)
    have result : onF environment connection.address gameFrame app = .ok after := by
      cases outcome : onF environment connection.address gameFrame app with
      | error fault => rw [outcome] at handled; cases handled
      | ok value => rw [outcome] at handled; exact congrArg _ (Option.some.inj handled)
    rcases List.mem_append.mp member with sent | told
    · obtain ⟨entry, listed, posted⟩ := List.mem_flatMap.mp sent
      unfold postFrame at posted
      split at posted
      · rename_i connected
        obtain rfl := List.mem_singleton.mp posted
        obtain ⟨same, fits⟩ := frames _ entry listed
        refine ⟨congrArg (InternalMessage.frame · entry.1) same, fits, fun text inside => ?_⟩
        obtain ⟨known, present, key⟩ :=
          List.mem_map.mp ((hasRaknetConnection_addresses _ _).mp connected)
        refine ⟨known, List.mem_cons_of_mem _ present, ?_⟩
        rw [List.mem_singleton.mp inside]
        exact (Prod.mk.inj key).2.symm
      · exact absurd posted List.not_mem_nil
    · obtain ⟨action, listed, posted⟩ := List.mem_flatMap.mp told
      obtain ⟨more, grown, own⟩ := onF_grows result
      rw [grown, List.drop_left] at listed
      cases action with
      | disconnectNotification other =>
          obtain rfl := List.mem_singleton.mp posted
          obtain rfl := own _ listed other rfl
          exact ⟨rfl, trivial, fun text inside =>
            ⟨connection.address, List.mem_cons_self, List.mem_singleton.mp inside⟩⟩
      | inbound other packet => exact absurd posted List.not_mem_nil
      | playSuccess other => exact absurd posted List.not_mem_nil
      | send other packet => exact absurd posted List.not_mem_nil

/-- Podrum over buffers is Podrum over values. -/
theorem game_byteQueues_refine (texts : AddressTexts) (configuration : Configuration)
    (environment : GameEnvironment) {codec : GameCodec} (frames : FramesPass codec)
    (events : List ServerEvent) (heard : ∀ event ∈ events, Heard event)
    (fit : ∀ state, Visits (serverStep texts configuration (gameExecutors environment codec)) events
      { app := {} } state → FramesFit state) :
    run (byteStep texts configuration (gameExecutors environment codec)) events
        { podrum := { app := {} } } =
      (run (serverStep texts configuration (gameExecutors environment codec)) events
        { app := {} }).map toBytes :=
  run_toBytes (gameExecutors_portable environment frames) events (passable_start {}) heard fit

end PodrumMinecraft.GameQueues
