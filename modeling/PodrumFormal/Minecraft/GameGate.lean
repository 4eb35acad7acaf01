import PodrumFormal.Lib.History
import PodrumFormal.Minecraft.AcceptedLogin
import PodrumFormal.Minecraft.Dispatch

/-!
# The way into the game

No branch behind the lookup of the player asks for an accepted login.  The
game is sent before one exactly in the runs in which a client asks for it
before one.
-/

set_option autoImplicit false

namespace PodrumMinecraft.GameGate

open PodrumMisc.CString PodrumMisc.Json PodrumRakNet.Packet History
open Player Login Dispatch
open AcceptedLogin (sampleEnvironment sampleLogin sampleToken rootHeader)

/-! ## The laws -/

/-- `START_GAME`, `LEVEL_CHUNK` and the play status of a spawn. -/
def isGameplay : SentPacket → Bool
  | .startGame _ _ _ => true
  | .levelChunk _ _ => true
  | .playStatus status => status = playStatusPlayerSpawn
  | _ => false

/-- The packets on which a branch sends gameplay to a player that has not
spawned. -/
def opensGame : GamePacket → Bool
  | .resourcePackClientResponse responseStatus _ =>
      responseStatus = resourcePackClientResponseCompleted
  | .requestChunkRadius _ => true
  | _ => false

/-- A login was accepted on the connection. -/
def loggedIn (address : MiscAddress) (actions : List Action) : Bool :=
  actions.any fun
    | .playSuccess other => addressKey other = addressKey address
    | _ => false

/-- The connection has asked for the settings, with a protocol that is served. -/
def registered (address : MiscAddress) (actions : List Action) : Bool :=
  actions.any fun
    | .inbound other (.requestNetworkSettings protocolVersion) =>
        addressKey other = addressKey address && 594 ≤ protocolVersion
    | _ => false

def Gated (history : List Action) : Action → Prop
  | .send address packet => isGameplay packet → loggedIn address history
  | _ => True

def Timely (history : List Action) : Action → Prop
  | .inbound address packet =>
      opensGame packet → registered address history → loggedIn address history
  | _ => True

instance (history : List Action) : ∀ action, Decidable (Gated history action)
  | .send address packet =>
      inferInstanceAs (Decidable (isGameplay packet → loggedIn address history))
  | .inbound _ _ | .playSuccess _ | .disconnectNotification _ => isTrue trivial

instance (history : List Action) : ∀ action, Decidable (Timely history action)
  | .inbound address packet =>
      inferInstanceAs (Decidable
        (opensGame packet → registered address history → loggedIn address history))
  | .send _ _ | .playSuccess _ | .disconnectNotification _ => isTrue trivial

theorem loggedIn_append (address : MiscAddress) (first second : List Action) :
    loggedIn address (first ++ second) = (loggedIn address first || loggedIn address second) :=
  List.any_append

theorem registered_append (address : MiscAddress) (first second : List Action) :
    registered address (first ++ second) =
      (registered address first || registered address second) :=
  List.any_append

theorem loggedIn_congr {address other : MiscAddress} (same : addressKey address = addressKey other)
    (actions : List Action) : loggedIn address actions = loggedIn other actions := by
  rw [loggedIn, loggedIn, same]

/-! ## The record of a connection -/

/-- The flag of the record, `none` where there is no record. -/
def spawnedOf (address : MiscAddress) (manager : MinecraftPlayerManager) : Option UInt8 :=
  (getMinecraftPlayerAddress address manager).map MinecraftPlayer.spawned

theorem spawnedOf_found {address : MiscAddress} {manager : MinecraftPlayerManager}
    {player : MinecraftPlayer} (found : getMinecraftPlayerAddress address manager = some player) :
    spawnedOf address manager = some player.spawned := by rw [spawnedOf, found, Option.map_some]

theorem spawnedOf_replace (player : MinecraftPlayer) (manager : MinecraftPlayerManager)
    (address : MiscAddress) :
    spawnedOf address (manager.replace player) =
      if playerKey player = addressKey address then
        (spawnedOf address manager).map fun _ => player.spawned
      else spawnedOf address manager := by
  simp only [spawnedOf, getMinecraftPlayerAddress, KeyedArray.find_replace]
  split <;> simp [Function.comp_def]

theorem spawnedOf_add (player : MinecraftPlayer) (manager : MinecraftPlayerManager)
    (address : MiscAddress) :
    spawnedOf address (addMinecraftPlayer player manager) =
      (spawnedOf address manager).or
        (if playerKey player = addressKey address then some player.spawned else none) := by
  simp only [spawnedOf, getMinecraftPlayerAddress, addMinecraftPlayer, KeyedArray.find_append,
    Option.map_or]
  split <;> rfl

/-- A store that changes neither the address nor the flag of a record. -/
theorem spawnedOf_store {address : MiscAddress} {manager : MinecraftPlayerManager}
    {player after : MinecraftPlayer}
    (found : getMinecraftPlayerAddress address manager = some player)
    (place : after.address = player.address) (flag : after.spawned = player.spawned)
    (other : MiscAddress) :
    spawnedOf other (manager.replace after) = spawnedOf other manager := by
  have key : playerKey after = addressKey address := by
    rw [playerKey, place]
    exact (KeyedArray.find_some found).2
  rw [spawnedOf_replace]
  split
  · rename_i same
    have record : spawnedOf other manager = some player.spawned := by
      rw [← spawnedOf_found found, spawnedOf, spawnedOf, getMinecraftPlayerAddress,
        getMinecraftPlayerAddress, ← same, key]
    rw [record, flag]
    rfl
  · rfl

/-! ## What a login leaves alone -/

theorem readExtraData_keeps {payload : JsonRoot} {state next : ChainState} {goesOn : Bool}
    (returned : readExtraData payload state = .ok (next, goesOn)) :
    next.player.address = state.player.address ∧ next.player.spawned = state.player.spawned := by
  obtain ⟨value, -, returned⟩ := bind_eq_ok.mp returned
  split at returned
  · obtain ⟨_, -, returned⟩ := bind_eq_ok.mp returned
    obtain ⟨_, -, returned⟩ := bind_eq_ok.mp returned
    obtain ⟨_, -, returned⟩ := bind_eq_ok.mp returned
    obtain ⟨_, -, returned⟩ := bind_eq_ok.mp returned
    obtain ⟨rfl, -⟩ := Prod.mk.inj (Except.ok.inj returned)
    exact ⟨rfl, rfl⟩
  · obtain ⟨rfl, -⟩ := Prod.mk.inj (Except.ok.inj returned)
    exact ⟨rfl, rfl⟩

theorem chainRound_keeps {environment : LoginEnvironment} {i : Nat} {member : JsonMulti}
    {state next : ChainState} {goesOn : Bool}
    (returned : chainRound environment i member state = .ok (next, goesOn)) :
    next.player.address = state.player.address ∧ next.player.spawned = state.player.spawned := by
  obtain ⟨token, -, returned⟩ := bind_eq_ok.mp returned
  obtain ⟨jwt, -, returned⟩ := bind_eq_ok.mp returned
  obtain ⟨⟨stat, key⟩, -, returned⟩ := bind_eq_ok.mp returned
  dsimp only at returned
  generalize (if isSet stat 9 then state.kicktype else kicktypeOf stat) = kicktype at returned
  split at returned
  · obtain ⟨rfl, -⟩ := Prod.mk.inj (Except.ok.inj returned)
    exact ⟨rfl, rfl⟩
  · split at returned
    · have kept := readExtraData_keeps returned
      exact kept
    · obtain ⟨rfl, -⟩ := Prod.mk.inj (Except.ok.inj returned)
      exact ⟨rfl, rfl⟩

theorem checkChain_keeps {environment : LoginEnvironment} {chain : List JsonMulti} :
    ∀ {i : Nat} {state final : ChainState}, checkChain environment i chain state = .ok final →
      final.player.address = state.player.address ∧
        final.player.spawned = state.player.spawned := by
  induction chain with
  | nil =>
      intro i state final returned
      obtain rfl := Except.ok.inj returned
      exact ⟨rfl, rfl⟩
  | cons member chain ih =>
      intro i state final returned
      obtain ⟨⟨next, goesOn⟩, round, returned⟩ := bind_eq_ok.mp returned
      obtain ⟨place, flag⟩ := chainRound_keeps round
      dsimp only at returned
      split at returned
      · obtain ⟨finalPlace, finalFlag⟩ := ih returned
        exact ⟨finalPlace.trans place, finalFlag.trans flag⟩
      · obtain rfl := Except.ok.inj returned
        exact ⟨place, flag⟩

theorem handlePacketLogin_keeps {environment : LoginEnvironment} {address : MiscAddress}
    {manager after : MinecraftPlayerManager} {login : PacketLogin} {outcome : LoginOutcome}
    (returned : handlePacketLogin environment address manager login = .ok (after, outcome))
    (other : MiscAddress) : spawnedOf other after = spawnedOf other manager := by
  unfold handlePacketLogin at returned
  split at returned
  · obtain ⟨rfl, -⟩ := Prod.mk.inj (Except.ok.inj returned)
    rfl
  · rename_i player found
    obtain ⟨chain, -, returned⟩ := bind_eq_ok.mp returned
    obtain ⟨state, checked, returned⟩ := bind_eq_ok.mp returned
    obtain ⟨place, flag⟩ := checkChain_keeps checked
    have stored := spawnedOf_store found place flag other
    dsimp only at returned
    split at returned
    · obtain ⟨rfl, -⟩ := Prod.mk.inj (Except.ok.inj returned)
      exact stored
    · obtain ⟨_, -, returned⟩ := bind_eq_ok.mp returned
      obtain ⟨rfl, -⟩ := Prod.mk.inj (Except.ok.inj returned)
      exact stored

/-! ## The branches of a player -/

/-- All that a branch can do: it only sends, and it sends gameplay to its own
connection, when the player has spawned or the packet opens the game. -/
structure Branch (address : MiscAddress) (packet : GamePacket) (player after : MinecraftPlayer)
    (actions : List Action) : Prop where
  place : after.address = player.address
  spawned : after.spawned = 1 → player.spawned = 1 ∨ opensGame packet
  sends : ∀ action ∈ actions, ∃ other sent, action = .send other sent
  gameplay : ∀ other sent, .send other sent ∈ actions → isGameplay sent →
    other = address ∧ (player.spawned = 1 ∨ opensGame packet)
  opens : opensGame packet →
    player.spawned = 1 ∨ ∃ sent, .send address sent ∈ actions ∧ isGameplay sent

/-- A branch that sends on its own connection and leaves the player in place. -/
theorem Branch.ofSent {address : MiscAddress} {packet : GamePacket}
    {player after : MinecraftPlayer} {sent : List SentPacket}
    (place : after.address = player.address)
    (spawned : after.spawned = 1 → player.spawned = 1 ∨ opensGame packet)
    (gameplay : ∀ packet' ∈ sent, isGameplay packet' → player.spawned = 1 ∨ opensGame packet)
    (opens : opensGame packet →
      player.spawned = 1 ∨ ∃ packet' ∈ sent, isGameplay packet') :
    Branch address packet player after (sent.map (.send address)) where
  place := place
  spawned := spawned
  sends := by
    intro action member
    obtain ⟨packet', -, rfl⟩ := List.mem_map.mp member
    exact ⟨address, packet', rfl⟩
  gameplay := by
    intro other packet' member isGame
    obtain ⟨_, listed, same⟩ := List.mem_map.mp member
    obtain ⟨rfl, rfl⟩ := Action.send.inj same
    exact ⟨rfl, gameplay _ listed isGame⟩
  opens := by
    intro isOpen
    apply (opens isOpen).imp_right
    rintro ⟨packet', listed, isGame⟩
    exact ⟨packet', List.mem_map_of_mem listed, isGame⟩

/-- A branch that sends no gameplay, on a packet that does not open the game. -/
theorem Branch.ofQuiet {address : MiscAddress} {packet : GamePacket}
    {player after : MinecraftPlayer} {actions : List Action}
    (place : after.address = player.address) (spawned : after.spawned = player.spawned)
    (closed : opensGame packet = false)
    (sends : ∀ action ∈ actions, ∃ other sent, action = .send other sent ∧
      isGameplay sent = false) :
    Branch address packet player after actions where
  place := place
  spawned := fun after => Or.inl (spawned ▸ after)
  sends := by
    intro action member
    obtain ⟨other, sent, rfl, -⟩ := sends action member
    exact ⟨other, sent, rfl⟩
  gameplay := by
    intro other sent member isGame
    obtain ⟨_, _, same, quiet⟩ := sends _ member
    obtain ⟨rfl, rfl⟩ := Action.send.inj same
    exact absurd isGame (by simp [quiet])
  opens := fun isOpen => absurd isOpen (by simp [closed])

theorem boardcast_quiet {packet : SentPacket} (quiet : isGameplay packet = false)
    (manager : MinecraftPlayerManager) :
    ∀ action ∈ boardcastPacket packet manager, ∃ other sent, action = .send other sent ∧
      isGameplay sent = false := by
  intro action member
  obtain ⟨player, -, rfl⟩ := List.mem_map.mp member
  exact ⟨player.address, packet, rfl, quiet⟩

section Branches

variable {environment : GameEnvironment} {address : MiscAddress} {i : Nat}
  {manager : MinecraftPlayerManager} {player after : MinecraftPlayer} {actions : List Action}

theorem resourcePackClientResponse_branch {responseStatus : UInt8} {ids : List (List UInt8)}
    (returned : handlePlayerPacket environment address i manager player
      (.resourcePackClientResponse responseStatus ids) = .ok (after, actions)) :
    Branch address (.resourcePackClientResponse responseStatus ids) player after actions := by
  obtain ⟨sent, answered, returned⟩ := bind_eq_ok.mp returned
  obtain ⟨rfl, rfl⟩ := Prod.mk.inj (Except.ok.inj returned)
  unfold handleResourcePackClientResponse at answered
  split at answered
  · rename_i early
    obtain rfl := Except.ok.inj answered
    apply Branch.ofSent rfl Or.inl (by simp [isGameplay])
    intro isOpen
    obtain rfl : responseStatus = resourcePackClientResponseCompleted := by
      simpa [opensGame] using isOpen
    exact absurd early (by decide)
  · split at answered
    · rename_i completed
      obtain ⟨entryIds, -, answered⟩ := bind_eq_ok.mp answered
      obtain rfl := Except.ok.inj answered
      have isOpen : opensGame (.resourcePackClientResponse responseStatus ids) = true := by
        simpa [opensGame] using completed
      exact Branch.ofSent rfl Or.inl (fun _ _ _ => Or.inr isOpen)
        fun _ => Or.inr ⟨_, List.mem_cons_self .., rfl⟩
    · rename_i other
      obtain rfl := Except.ok.inj answered
      exact Branch.ofSent rfl Or.inl (by simp) fun isOpen =>
        absurd (by simpa [opensGame] using isOpen) other

theorem requestChunkRadius_branch {chunkRadius : Int32}
    (returned : handlePlayerPacket environment address i manager player
      (.requestChunkRadius chunkRadius) = .ok (after, actions)) :
    Branch address (.requestChunkRadius chunkRadius) player after actions := by
  simp only [handlePlayerPacket] at returned
  obtain ⟨rfl, rfl⟩ := Prod.mk.inj (Except.ok.inj returned)
  refine Branch.ofSent ?_ (fun _ => Or.inr rfl) (fun _ _ _ => Or.inr rfl) fun _ => ?_
  · unfold handlePacketRequestChunkRadius
    split <;> rfl
  · by_cases spawned : player.spawned = 1
    · exact Or.inl spawned
    · right
      rw [handlePacketRequestChunkRadius, if_neg spawned]
      exact ⟨.playStatus playStatusPlayerSpawn, by simp, by decide⟩

theorem interact_branch {actionId : UInt8}
    (returned : handlePlayerPacket environment address i manager player (.interact actionId) =
      .ok (after, actions)) : Branch address (.interact actionId) player after actions := by
  obtain ⟨sent, answered, returned⟩ := bind_eq_ok.mp returned
  obtain ⟨rfl, rfl⟩ := Prod.mk.inj (Except.ok.inj returned)
  apply Branch.ofQuiet rfl rfl rfl
  unfold handlePacketInteract at answered
  split at answered
  · obtain ⟨windowId, -, answered⟩ := bind_eq_ok.mp answered
    obtain rfl := Except.ok.inj answered
    simp [isGameplay]
  · obtain rfl := Except.ok.inj answered
    simp

/-- Chunks are sent on a move only to a player that has spawned. -/
theorem movePlayer_branch {x y z : Int}
    (returned : handlePlayerPacket environment address i manager player (.movePlayer x y z) =
      .ok (after, actions)) : Branch address (.movePlayer x y z) player after actions := by
  simp only [handlePlayerPacket] at returned
  obtain ⟨rfl, rfl⟩ := Prod.mk.inj (Except.ok.inj returned)
  refine Branch.ofSent rfl Or.inl ?_ (fun isOpen => by cases isOpen)
  intro sent member _
  left
  rw [handlePacketMovePlayer] at member
  by_contra waiting
  simp [waiting] at member

theorem handlePlayerPacket_branch {packet : GamePacket}
    (returned : handlePlayerPacket environment address i manager player packet =
      .ok (after, actions)) : Branch address packet player after actions := by
  cases packet with
  | resourcePackClientResponse responseStatus ids =>
      exact resourcePackClientResponse_branch returned
  | requestChunkRadius chunkRadius => exact requestChunkRadius_branch returned
  | interact actionId => exact interact_branch returned
  | movePlayer x y z => exact movePlayer_branch returned
  | text body =>
      obtain ⟨rfl, rfl⟩ := Prod.mk.inj (Except.ok.inj returned)
      refine Branch.ofQuiet rfl rfl rfl ?_
      rw [List.forall_mem_cons]
      exact ⟨⟨_, _, rfl, rfl⟩, boardcast_quiet rfl _⟩
  | containerClose windowId =>
      obtain ⟨rfl, rfl⟩ := Prod.mk.inj (Except.ok.inj returned)
      exact Branch.ofQuiet rfl rfl rfl (by simp [isGameplay])
  | playerSkin body =>
      obtain ⟨rfl, rfl⟩ := Prod.mk.inj (Except.ok.inj returned)
      exact Branch.ofQuiet rfl rfl rfl (boardcast_quiet rfl _)
  | _ =>
      obtain ⟨rfl, rfl⟩ := Prod.mk.inj (Except.ok.inj returned)
      exact Branch.ofQuiet rfl rfl rfl (by simp)

end Branches

/-! ## What a branch means for the laws -/

section Laws

variable {address : MiscAddress} {packet : GamePacket} {player after : MinecraftPlayer}
  {actions history : List Action}

theorem Branch.noInbound (does : Branch address packet player after actions) :
    ∀ action ∈ actions, ∀ other received, action ≠ .inbound other received := by
  rintro action member other received rfl
  obtain ⟨_, _, sent⟩ := does.sends _ member
  cases sent

/-- What is sent accepts no login. -/
theorem loggedIn_sends (sends : ∀ action ∈ actions, ∃ other sent, action = .send other sent) :
    loggedIn address actions = false := by
  apply List.any_eq_false.mpr
  intro action member
  obtain ⟨_, _, rfl⟩ := sends action member
  simp

theorem Branch.gated (does : Branch address packet player after actions)
    (reason : player.spawned = 1 ∨ opensGame packet → loggedIn address history = true) :
    Along Gated history actions := by
  rw [along_iff]
  rintro before action rest rfl
  cases action with
  | send other sent =>
      intro isGame
      obtain ⟨rfl, cause⟩ := does.gameplay other sent (by simp) isGame
      rw [loggedIn_append, reason cause, Bool.true_or]
  | _ => trivial

theorem Branch.loggedIn_of_gated (does : Branch address packet player after actions)
    (gated : Along Gated history actions) (isOpen : opensGame packet)
    (waiting : player.spawned ≠ 1) : loggedIn address history = true := by
  rcases does.opens isOpen with one | ⟨sent, member, isGame⟩
  · exact absurd one waiting
  · obtain ⟨before, rest, rfl⟩ := List.append_of_mem member
    have allowed : loggedIn address (history ++ before) = true := gated.at isGame
    have quiet : loggedIn address before = false :=
      loggedIn_sends fun action listed => does.sends action (List.mem_append_left _ listed)
    rwa [loggedIn_append, quiet, Bool.or_false] at allowed

end Laws

/-! ## One round -/

/-- What holds between two rounds.  The flag of a spawned player tells of an
earlier request for chunks, which was timely if every packet was. -/
structure GateInvariant (state : GameState) : Prop where
  recorded : ∀ address,
    (spawnedOf address state.manager).isSome = registered address state.actions
  spawned : ∀ address, spawnedOf address state.manager = some 1 →
    Along Timely [] state.actions → loggedIn address state.actions
  gated : Along Gated [] state.actions ↔ Along Timely [] state.actions

theorem timely_round {history actions : List Action} {address : MiscAddress} {packet : GamePacket}
    (noInbound : ∀ action ∈ actions, ∀ other received, action ≠ .inbound other received) :
    Along Timely [] (history ++ .inbound address packet :: actions) ↔
      Along Timely [] history ∧ Timely history (.inbound address packet) := by
  rw [along_append, Along, List.nil_append]
  refine and_congr_right fun _ => and_iff_left (along_of_forall fun action member before => ?_)
  cases action with
  | inbound other received => exact absurd rfl (noInbound _ member other received)
  | _ => trivial

theorem registered_round {history actions : List Action} {other : MiscAddress} {first : Action}
    (noInbound : ∀ action ∈ actions, ∀ other received, action ≠ .inbound other received) :
    registered other (history ++ first :: actions) =
      (registered other history || registered other [first]) := by
  have silent : registered other actions = false := by
    apply List.any_eq_false.mpr
    intro action member
    cases action with
    | inbound other received => exact absurd rfl (noInbound _ member other received)
    | _ => simp
  rw [← List.singleton_append, registered_append, registered_append, silent, Bool.or_false]

theorem GateInvariant.extend {state next : GameState} (holds : GateInvariant state)
    (address : MiscAddress) (packet : GamePacket) (actions : List Action)
    (recorded : next.actions = state.actions ++ .inbound address packet :: actions)
    (noInbound : ∀ action ∈ actions, ∀ other received, action ≠ .inbound other received)
    (record : ∀ other, (spawnedOf other next.manager).isSome =
      ((spawnedOf other state.manager).isSome || registered other [.inbound address packet]))
    (flag : ∀ other, spawnedOf other next.manager = some 1 →
      spawnedOf other state.manager = some 1 ∨
        (addressKey other = addressKey address ∧ opensGame packet ∧
          (spawnedOf address state.manager).isSome))
    (shut : Along Timely [] state.actions → Timely state.actions (.inbound address packet) →
      Along Gated (state.actions ++ [.inbound address packet]) actions)
    (asked : Along Timely [] state.actions →
      Along Gated (state.actions ++ [.inbound address packet]) actions →
      Timely state.actions (.inbound address packet)) : GateInvariant next := by
  constructor
  · intro other
    rw [recorded, registered_round noInbound, record, holds.recorded]
  · intro other isSpawned timely
    rw [recorded] at timely ⊢
    obtain ⟨before, now⟩ := (timely_round noInbound).mp timely
    rw [loggedIn_append, Bool.or_eq_true]
    left
    rcases flag other isSpawned with already | ⟨same, isOpen, present⟩
    · exact holds.spawned other already before
    · rw [loggedIn_congr same]
      exact now isOpen (by rw [← holds.recorded]; exact present)
  · rw [recorded, timely_round noInbound, along_append, Along, holds.gated, List.nil_append]
    constructor
    · rintro ⟨before, -, after⟩
      exact ⟨before, asked before after⟩
    · rintro ⟨before, now⟩
      exact ⟨before, trivial, shut before now⟩

/-- A round that sends no gameplay and could not be asked to. -/
theorem GateInvariant.extendQuiet {state next : GameState} (holds : GateInvariant state)
    (address : MiscAddress) (packet : GamePacket) (actions : List Action)
    (recorded : next.actions = state.actions ++ .inbound address packet :: actions)
    (noInbound : ∀ action ∈ actions, ∀ other received, action ≠ .inbound other received)
    (quiet : ∀ action ∈ actions, ∀ other sent, action = .send other sent →
      isGameplay sent = false)
    (closed : opensGame packet → (spawnedOf address state.manager).isSome = false)
    (record : ∀ other, (spawnedOf other next.manager).isSome =
      ((spawnedOf other state.manager).isSome || registered other [.inbound address packet]))
    (flag : ∀ other, spawnedOf other next.manager = some 1 →
      spawnedOf other state.manager = some 1) : GateInvariant next := by
  refine holds.extend address packet actions recorded noInbound record
    (fun other one => Or.inl (flag other one)) ?_ ?_
  · refine fun _ _ => along_of_forall fun action member before => ?_
    cases action with
    | send other sent =>
        intro isGame
        exact absurd isGame (by simp [quiet _ member other sent rfl])
    | _ => trivial
  · intro _ _ isOpen known
    rw [← holds.recorded, closed isOpen] at known
    cases known

theorem settings_gate {environment : GameEnvironment} {address : MiscAddress}
    {protocolVersion : Int32} {state next : GameState} (holds : GateInvariant state)
    (returned : handleRequestNetworkSettings environment address protocolVersion
      (state.record [.inbound address (.requestNetworkSettings protocolVersion)]) = .ok next) :
    GateInvariant next := by
  unfold handleRequestNetworkSettings at returned
  split at returned
  · rename_i served
    obtain ⟨entityUniqueId, -, returned⟩ := bind_eq_ok.mp returned
    obtain ⟨entityRuntimeId, -, returned⟩ := bind_eq_ok.mp returned
    obtain rfl := Except.ok.inj returned
    refine holds.extendQuiet address (.requestNetworkSettings protocolVersion)
      [.send address .networkSettings] (List.append_assoc ..) (by simp) (by simp [isGameplay])
      (by simp [opensGame]) ?_ ?_
    · intro other
      simp only [spawnedOf_add, Option.isSome_or, GameState.record, registered, List.any_cons,
        List.any_nil, served, decide_true, Bool.and_true, Bool.or_false]
      congr 1
      by_cases same : addressKey address = addressKey other <;>
        simp [playerKey, newPlayer, same]
    · intro other isSpawned
      simp only [spawnedOf_add, GameState.record, Option.or_eq_some_iff] at isSpawned
      rcases isSpawned with already | ⟨-, added⟩
      · exact already
      · split at added
        · exact absurd (Option.some.inj added : (0 : UInt8) = 1) (by decide)
        · cases added
  · rename_i refused
    obtain rfl := Except.ok.inj returned
    have failed : isGameplay (.playStatus (if protocolVersion < 594 then playStatusFailedClient
        else playStatusFailedServer)) = false := by
      split <;> decide
    refine holds.extendQuiet address (.requestNetworkSettings protocolVersion) [_]
      (List.append_assoc ..) (by simp) ?_ (by simp [opensGame]) ?_ (fun _ => id)
    · intro action member other sent same
      rw [List.mem_singleton.mp member] at same
      obtain ⟨-, rfl⟩ := Action.send.inj same
      exact failed
    · intro other
      simp [GameState.record, registered, refused]

theorem login_gate {environment : GameEnvironment} {address : MiscAddress}
    {login : PacketLogin} {state next : GameState} (holds : GateInvariant state)
    (returned : handleLogin environment address login
      (state.record [.inbound address (.login login)]) = .ok next) :
    GateInvariant next := by
  obtain ⟨⟨manager, outcome⟩, handled, returned⟩ := bind_eq_ok.mp returned
  obtain rfl := Except.ok.inj returned
  have kept := handlePacketLogin_keeps handled
  refine holds.extendQuiet address (.login login) (loginActions address outcome)
    (List.append_assoc ..) ?_ ?_ (by simp [opensGame]) ?_ ?_
  · cases outcome <;> simp [loginActions]
  · cases outcome <;> simp [loginActions, isGameplay]
    decide
  · intro other
    simp [kept, GameState.record, registered]
  · intro other isSpawned
    rwa [kept] at isSpawned

/-- A branch sets the flag of its own player only, on a packet that opens the
game. -/
theorem Branch.flag {address : MiscAddress} {packet : GamePacket} {player after : MinecraftPlayer}
    {actions : List Action} {manager : MinecraftPlayerManager}
    (does : Branch address packet player after actions)
    (found : getMinecraftPlayerAddress address manager = some player) (other : MiscAddress)
    (isSpawned : spawnedOf other (manager.replace after) = some 1) :
    spawnedOf other manager = some 1 ∨
      (addressKey other = addressKey address ∧ opensGame packet ∧
        (spawnedOf address manager).isSome) := by
  have present : spawnedOf address manager = some player.spawned := spawnedOf_found found
  have key : playerKey after = addressKey address := by
    rw [playerKey, does.place]
    exact (KeyedArray.find_some found).2
  rw [spawnedOf_replace, key] at isSpawned
  split at isSpawned
  · rename_i same
    obtain ⟨_, -, one⟩ := Option.map_eq_some_iff.mp isSpawned
    rcases does.spawned one with already | isOpen
    · left
      rw [spawnedOf, getMinecraftPlayerAddress] at present ⊢
      rw [← same, present, already]
    · exact Or.inr ⟨same.symm, isOpen, by rw [present]; rfl⟩
  · exact Or.inl isSpawned

theorem player_gate {environment : GameEnvironment} {address : MiscAddress} {i : Nat}
    {packet : GamePacket} {state : GameState} {player after : MinecraftPlayer}
    {actions : List Action} (holds : GateInvariant state)
    (silent : ∀ other, registered other [.inbound address packet] = false)
    (found : getMinecraftPlayerAddress address state.manager = some player)
    (branch : handlePlayerPacket environment address i state.manager player packet =
      .ok (after, actions)) :
    GateInvariant { state with
      manager := state.manager.replace after
      actions := state.actions ++ .inbound address packet :: actions } := by
  have does := handlePlayerPacket_branch branch
  have present : spawnedOf address state.manager = some player.spawned := spawnedOf_found found
  have known : registered address state.actions = true := by
    rw [← holds.recorded, present]
    rfl
  have early (one : player.spawned = 1) (timely : Along Timely [] state.actions) :
      loggedIn address state.actions = true :=
    holds.spawned address (by rw [present, one]) timely
  have received : loggedIn address (state.actions ++ [.inbound address packet]) =
      loggedIn address state.actions := by
    rw [loggedIn_append]
    exact Bool.or_false _
  refine holds.extend address packet actions rfl does.noInbound ?_ (does.flag found) ?_ ?_
  · intro other
    rw [silent, Bool.or_false, spawnedOf_replace]
    split
    · rw [Option.isSome_map]
    · rfl
  · intro timely now
    apply does.gated
    intro reason
    rw [received]
    rcases reason with one | isOpen
    · exact early one timely
    · exact now isOpen known
  · intro timely gated isOpen _
    by_cases one : player.spawned = 1
    · exact early one timely
    · rw [← received]
      exact does.loggedIn_of_gated gated isOpen one

/-- What a round does: a registration, a login, nothing where there is no player,
or the branch of the packet. -/
theorem handleGamePacket_cases {environment : GameEnvironment} {address : MiscAddress} {i : Nat}
    {packet : GamePacket} {state next : GameState} {goesOn : Bool}
    (returned : handleGamePacket environment address i packet state = .ok (next, goesOn)) :
    (∃ protocolVersion, packet = .requestNetworkSettings protocolVersion ∧
      handleRequestNetworkSettings environment address protocolVersion
        (state.record [.inbound address packet]) = .ok next) ∨
    (∃ login, packet = .login login ∧
      handleLogin environment address login (state.record [.inbound address packet]) = .ok next) ∨
    ((∀ other, registered other [.inbound address packet] = false) ∧
      getMinecraftPlayerAddress address state.manager = none ∧
      next = state.record [.inbound address packet]) ∨
    (∀ other, registered other [.inbound address packet] = false) ∧
      ∃ player after actions, getMinecraftPlayerAddress address state.manager = some player ∧
        handlePlayerPacket environment address i state.manager player packet =
          .ok (after, actions) ∧
        next = { state with
          manager := state.manager.replace after
          actions := state.actions ++ .inbound address packet :: actions } := by
  unfold handleGamePacket at returned
  dsimp only at returned
  split at returned
  · rename_i protocolVersion
    obtain ⟨after, handled, returned⟩ := bind_eq_ok.mp returned
    obtain ⟨rfl, -⟩ := Prod.mk.inj (Except.ok.inj returned)
    exact .inl ⟨protocolVersion, rfl, handled⟩
  · rename_i login
    obtain ⟨after, handled, returned⟩ := bind_eq_ok.mp returned
    obtain ⟨rfl, -⟩ := Prod.mk.inj (Except.ok.inj returned)
    exact .inr (.inl ⟨login, rfl, handled⟩)
  · rename_i notSettings notLogin
    have silent (other : MiscAddress) : registered other [.inbound address packet] = false := by
      cases packet with
      | requestNetworkSettings protocolVersion => exact absurd rfl (notSettings protocolVersion)
      | _ => simp [registered]
    split at returned
    · rename_i missing
      obtain ⟨rfl, -⟩ := Prod.mk.inj (Except.ok.inj returned)
      exact .inr (.inr (.inl ⟨silent, missing, rfl⟩))
    · rename_i player found
      obtain ⟨⟨after, actions⟩, branch, returned⟩ := bind_eq_ok.mp returned
      obtain ⟨rfl, -⟩ := Prod.mk.inj (Except.ok.inj returned)
      refine .inr (.inr (.inr ⟨silent, player, after, actions, found, branch, ?_⟩))
      simp [GameState.record]

theorem handleGamePacket_gate {environment : GameEnvironment} {address : MiscAddress} {i : Nat}
    {packet : GamePacket} {state next : GameState} {goesOn : Bool} (holds : GateInvariant state)
    (returned : handleGamePacket environment address i packet state = .ok (next, goesOn)) :
    GateInvariant next := by
  rcases handleGamePacket_cases returned with
    ⟨protocolVersion, rfl, handled⟩ | ⟨login, rfl, handled⟩ | ⟨silent, missing, rfl⟩ |
      ⟨silent, player, after, actions, found, branch, rfl⟩
  · exact settings_gate holds handled
  · exact login_gate holds handled
  · refine holds.extendQuiet address packet [] rfl (by simp) (by simp) ?_ ?_ (fun _ => id)
    · intro _
      rw [spawnedOf]
      exact Option.isSome_map.trans (by rw [show
        getMinecraftPlayerAddress address state.manager = none from missing]; rfl)
    · intro other
      rw [silent, Bool.or_false]
      rfl
  · exact player_gate holds silent found branch

/-! ## Runs -/

theorem handleBatch_gate {environment : GameEnvironment} {address : MiscAddress}
    {packets : List GamePacket} :
    ∀ {i : Nat} {state next : GameState}, GateInvariant state →
      handleBatch environment address i packets state = .ok next → GateInvariant next := by
  induction packets with
  | nil =>
      intro i state next holds returned
      obtain rfl := Except.ok.inj returned
      exact holds
  | cons packet packets ih =>
      intro i state next holds returned
      obtain ⟨⟨middle, goesOn⟩, round, returned⟩ := bind_eq_ok.mp returned
      have middleHolds := handleGamePacket_gate holds round
      dsimp only at returned
      split at returned
      · exact ih middleHolds returned
      · obtain rfl := Except.ok.inj returned
        exact middleHolds

theorem gateInvariant_notification {state : GameState} (holds : GateInvariant state)
    (address : MiscAddress) : GateInvariant (state.record [.disconnectNotification address]) := by
  constructor
  · intro other
    have kept := holds.recorded other
    simpa [GameState.record, registered] using kept
  · intro other isSpawned timely
    rw [GameState.record, along_append] at timely
    rw [GameState.record, loggedIn_append, holds.spawned other isSpawned timely.1, Bool.true_or]
  · simp only [GameState.record, along_append, along_singleton, holds.gated]
    exact Iff.rfl

theorem gameStep_gate {environment : GameEnvironment} {state next : GameState}
    {event : MiscAddress × GameFrame} (holds : GateInvariant state)
    (returned : gameStep environment state event = some next) : GateInvariant next := by
  have called : onF environment event.1 event.2 state = .ok next := by
    unfold gameStep at returned
    cases result : onF environment event.1 event.2 state with
    | error fault => rw [result] at returned; cases returned
    | ok after => rw [result] at returned; exact congrArg _ (Option.some.inj returned)
  unfold onF at called
  split at called
  · exact handleBatch_gate holds called
  · obtain rfl := Except.ok.inj called
    exact gateInvariant_notification holds _

/-- Along every run of frames from any connections, gameplay is only sent to a
connection whose login was accepted if and only if no connection with a player
record completes its resource packs or asks for chunks before that. -/
theorem gameplay_gated_iff (environment : GameEnvironment) {events : List (MiscAddress × GameFrame)}
    {final : GameState}
    (returned : EventRun.run (gameStep environment) events {} = some final) :
    Along Gated [] final.actions ↔ Along Timely [] final.actions := by
  have start : GateInvariant {} :=
    ⟨fun _ => rfl, (by intro _ spawned; cases spawned), Iff.rfl⟩
  exact (EventRun.run_preserves (fun _ => GateInvariant)
    (fun _ _ _ _ holds stepped => gameStep_gate holds stepped) events [] {} final start
    returned).gated

def client : MiscAddress := ⟨4, bytes "10.0.0.1", 19132⟩

/-- A server on which every look for an id ends at once. -/
def quietEnvironment : GameEnvironment where
  login := fun _ =>
    { time := fun _ => 0
      unwrittenOutLen := fun _ => 0
      unwrittenSignatureSize := fun _ => 0
      beyondBuffer := fun _ _ => [0]
      readFreed := id
      floatBits := fun _ => 0
      i2dEcdsaSig := fun r s => r ++ s
      mdCtxNew := true
      digestVerifyInit := fun _ => 1
      digestVerifyUpdate := fun _ => 1
      digestVerifyFinal := fun _ _ _ => 0 }
  uniqueDraws := fun _ => [1]
  runtimeDraws := fun _ => [2]
  creativeItems := 0

/-- A login that is accepted, the end of its resource packs, and the spawn. -/
def loginAndSpawn : List (MiscAddress × GameFrame) :=
  [(client, .game [.requestNetworkSettings 594]),
    (client, .game [.login (sampleLogin (sampleToken rootHeader)), .requestAbility 9]),
    (client, .game [.clientToServerHandshake, .resourcePackClientResponse 4 []]),
    (client, .game [.requestChunkRadius 1, .text (bytes "b")])]

def acceptingEnvironment : GameEnvironment :=
  { quietEnvironment with login := fun _ => sampleEnvironment 1 }

theorem gameplay_gated_loginAndSpawn :
    ∃ final, EventRun.run (gameStep acceptingEnvironment) loginAndSpawn {} = some final ∧
      loggedIn client final.actions = true ∧
      .send client (.playStatus playStatusPlayerSpawn) ∈ final.actions ∧
      Along Gated [] final.actions := by
  have computed : (EventRun.run (gameStep acceptingEnvironment) loginAndSpawn {}).map
      (fun final => decide (loggedIn client final.actions = true ∧
        .send client (.playStatus playStatusPlayerSpawn) ∈ final.actions ∧
        Along Timely [] final.actions)) = some true := by decide +kernel
  obtain ⟨final, returned, holds⟩ := Option.map_eq_some_iff.mp computed
  obtain ⟨login, spawned, timely⟩ := of_decide_eq_true holds
  exact ⟨final, returned, login, spawned,
    (gameplay_gated_iff acceptingEnvironment returned).mpr timely⟩

/-- No login at all, and the client is told that its player has spawned. -/
theorem spawned_without_login :
    ∃ final, EventRun.run (gameStep quietEnvironment)
        [(client, .game [.requestNetworkSettings 594]), (client, .game [.requestChunkRadius 0])]
        {} = some final ∧
      .send client (.playStatus playStatusPlayerSpawn) ∈ final.actions ∧
      loggedIn client final.actions = false ∧ ¬Along Gated [] final.actions := by
  have computed : (EventRun.run (gameStep quietEnvironment)
      [(client, .game [.requestNetworkSettings 594]), (client, .game [.requestChunkRadius 0])]
      {}).map GameState.actions = some
        [.inbound client (.requestNetworkSettings 594), .send client .networkSettings,
          .inbound client (.requestChunkRadius 0), .send client (.chunkRadiusUpdated 0),
          .send client (.networkChunkPublisherUpdate 0 (-56) 0 0),
          .send client (.playStatus playStatusPlayerSpawn)] := by decide
  obtain ⟨final, returned, actions⟩ := Option.map_eq_some_iff.mp computed
  refine ⟨final, returned, ?_⟩
  rw [actions]
  decide

end PodrumMinecraft.GameGate
