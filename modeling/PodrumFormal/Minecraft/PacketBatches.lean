import PodrumFormal.Minecraft.Dispatch
import PodrumFormal.Minecraft.GameLink
import PodrumFormal.Minecraft.ServerPackets

/-!
# Batches of packets

The frame of a batch tells the packets in it, over any channel.  So a client is
told by the answer to a completed resource pack response which player it is, and
all that the resources hold of items, biomes and entities.
-/

set_option autoImplicit false

namespace PodrumMinecraft.PacketBatches

open ByteReader ByteWriter CountedArray PodrumMisc.CString PodrumNbt.Tag PodrumZlib.ZlibHelper
open Player Item GamePacket GameLink MiscValues PacketFields ServerPackets
open EventRun PodrumRakNet.Frame PodrumRakNet.FrameSet PodrumRakNet.Packet PodrumRakNet.Connections
open PodrumRakNet.SendLedger PodrumRakNet.Handler PodrumRakNet.HandlerEffects
open PodrumRakNet.Recovery PodrumRakNet.AckSafety PodrumRakNet.Assembly
open PodrumRakNet.SentMessages PodrumRakNet.LinkDelivery PodrumRakNet.IdleSender
open PodrumRakNet.NackQueue (stillEnvironment)

/-! ## Frames of packets -/

/-- The sub-packets of a batch. -/
def putAll : List Packet → Option (List (List UInt8))
  | [] => some []
  | packet :: packets => do
      let block ← packet.put
      let blocks ← putAll packets
      some (block :: blocks)

theorem putAll_told {first : List Packet} :
    ∀ {second : List Packet} {blocks : List (List UInt8)}, (∀ packet ∈ first, packet.Fits) →
      (∀ packet ∈ second, packet.Fits) → putAll first = some blocks →
      putAll second = some blocks → first.map Packet.carried = second.map Packet.carried := by
  induction first with
  | nil =>
      intro second blocks _ _ written written'
      cases written
      cases second with
      | nil => rfl
      | cons packet packets =>
          obtain ⟨_, -, later⟩ := Option.bind_eq_some_iff.mp written'
          obtain ⟨_, -, impossible⟩ := Option.bind_eq_some_iff.mp later
          cases impossible
  | cons packet first ih =>
      intro second blocks fit fit' written written'
      obtain ⟨block, head, later⟩ := Option.bind_eq_some_iff.mp written
      obtain ⟨others, tail, same⟩ := Option.bind_eq_some_iff.mp later
      cases same
      cases second with
      | nil => cases written'
      | cons packet' second =>
          obtain ⟨block', head', later'⟩ := Option.bind_eq_some_iff.mp written'
          obtain ⟨others', tail', same'⟩ := Option.bind_eq_some_iff.mp later'
          cases same'
          obtain ⟨fits, fitLater⟩ := List.forall_mem_cons.mp fit
          obtain ⟨fits', fitLater'⟩ := List.forall_mem_cons.mp fit'
          obtain ⟨equal, -⟩ := @separates_packets _ _ fits fits' _ _ [] [] head head' rfl
          rw [List.map_cons, List.map_cons, equal, ih fitLater fitLater' tail tail']

/-- The frame of `send_minecraft_packet` on these packets. -/
structure Framed (miniz : Miniz) (packets : List Packet) (frame : MiscFrame) : Prop where
  fit : ∀ packet ∈ packets, packet.Fits
  built : ∃ streams compress, putAll packets = some streams ∧
    Decodable miniz ⟨streams, compress⟩ ∧ minecraftFrame miniz ⟨streams, compress⟩ = some frame

section Frames

variable {miniz : Miniz} {packets others : List Packet} {frame other : MiscFrame}

/-- Deflated or not, a payload is of one list of packets. -/
theorem Framed.carried (laws : RawLaws miniz 7) (framed : Framed miniz packets frame)
    (framed' : Framed miniz others other) (same : frame.stream = other.stream) :
    packets.map Packet.carried = others.map Packet.carried := by
  obtain ⟨streams, compress, written, decodable, built⟩ := framed.built
  obtain ⟨streams', compress', written', decodable', built'⟩ := framed'.built
  have carries := minecraftFrame_carries laws decodable built
  have carries' := minecraftFrame_carries laws decodable' built'
  rw [← same] at carries'
  obtain rfl : streams = streams' := carries.unique carries'
  exact putAll_told framed.fit framed'.fit written written'

theorem Framed.sendable (mtuSize : UInt16) (framed : Framed miniz packets frame) :
    Sendable mtuSize frame := by
  obtain ⟨streams, compress, -, decodable, built⟩ := framed.built
  exact minecraftFrame_sendable mtuSize decodable built

theorem Framed.notOwn (laws : RawLaws miniz 7) (framed : Framed miniz packets frame) :
    ¬ForRaknet frame := by
  obtain ⟨streams, compress, -, decodable, built⟩ := framed.built
  exact minecraftFrame_notOwn laws decodable built

end Frames

/-! ## Over a channel that loses, repeats and reorders -/

/-- What `get_resources` loads, the block states apart. -/
structure Resources where
  itemStates : MiscItemStates
  creativeItems : List MiscItem
  biomeDefinitions : NbtNamed
  entityIdentifiers : NbtNamed

def enabledExperiments : MiscExperiments where
  size := 7
  entries := ["cameras", "data_driven_biomes", "data_driven_items",
    "experimental_molang_features", "gametest", "short_sneaking",
    "upcoming_creator_features"].map fun name => ⟨bytes name, 1⟩

/-- The bits of the floats 0 and -56. -/
def floatZero : UInt32 := 0
def floatSpawnY : UInt32 := 0xc2600000

def startGame (player : MinecraftPlayer) (resources : Resources) : PacketStartGame where
  entityUniqueId := player.entityUniqueId
  entityRuntimeId := player.entityRuntimeId
  playerGamemode := player.gamemode
  playerX := floatZero
  playerY := floatSpawnY
  playerZ := floatZero
  pitch := floatZero
  yaw := floatZero
  seed := -1
  biomeType := 0
  biomeName := []
  dimension := 0
  generator := 0
  worldGamemode := 2
  difficulty := -1
  spawnX := 0
  spawnY := 4
  spawnZ := 0
  achievementsDisabled := 1
  dayCycleStopTime := 0
  eduOffer := 0
  eduFeaturesEnabled := 0
  eduProductUuid := []
  rainLevel := floatZero
  lightningLevel := floatZero
  hasConfirmedPlatformLockedContent := 0
  isMultiplayer := 1
  broadcastToLan := 1
  xboxLiveBroadcastMode := 4
  platformBroadcastMode := 4
  enableCommands := 1
  areTexturePacksRequired := 0
  gamerules := ⟨0, []⟩
  experiments := enabledExperiments
  experimentsPreviouslyUsed := 1
  bonusChest := 0
  mapEnabled := 0
  permissionLevel := -1
  serverChunkTickRange := 0
  hasLockedBehaviorPack := 0
  hasLockedTexturePack := 0
  isFromLockedWorldTemplate := 0
  msaGamertagsOnly := 0
  isFromWorldTemplate := 0
  isWorldTemplateOptionLocked := 0
  onlySpawnV1Villagers := 0
  gameVersion := bytes "*"
  limitedWorldWidth := 16
  limitedWorldLength := 16
  isNewNether := 0
  eduResourceUri := ⟨[], []⟩
  experimentalGameplayOverride := 0
  levelId := []
  worldName := bytes "BlueMyth Games"
  premiumWorldTemplateId := []
  isTrial := 0
  movementAuthority := 0
  rewindHistorySize := 0
  serverAuthoritativeBlockBreaking := 0
  currentTick := 0
  enchantmentSeed := 0
  blockProperties := ⟨0, []⟩
  itemStates := resources.itemStates
  multiplayerCorrelationId := []
  serverAuthoritativeInventory := 0
  engine := bytes "BlueSky v0.0.1"
  blockPalleteChecksum := 0

/-- The entry ids are what the array holds; not all of them have to be set. -/
def creativeContent (resources : Resources) (entryIds : List UInt32) :
    Counted UInt32 (UInt32 × MiscItem) :=
  ⟨UInt32.ofNat resources.creativeItems.length, entryIds.zip resources.creativeItems⟩

structure Resources.Fits (resources : Resources) : Prop where
  itemStates : resources.itemStates.Full UInt32.toNat fun state => Short [state.name]
  wellFormed : ∀ item ∈ resources.creativeItems, WellFormedItem item
  extra : ∀ item ∈ resources.creativeItems, ExtraFits item
  fewer : resources.creativeItems.length < 2 ^ 32
  biomeDefinitions : NetworkTag resources.biomeDefinitions
  entityIdentifiers : NetworkTag resources.entityIdentifiers

def spawned (id : Int32) : MinecraftPlayer :=
  Dispatch.newPlayer ⟨4, bytes "10.0.0.1", 19132⟩ 594 (-id).toInt64 id.toInt64

end PodrumMinecraft.PacketBatches
