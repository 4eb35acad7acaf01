import PodrumFormal.Minecraft.BlockStates
import PodrumFormal.Minecraft.ChunkWalk
import PodrumFormal.Minecraft.LevelChunk

/-!
# The chunks around a player

`send_chunks` generates the same flat chunk for every position of a square and
sends it.
-/

set_option autoImplicit false

namespace PodrumMinecraft.FlatChunks

open ByteReader EventRun LastWrite PodrumMisc.CString PodrumMinecraft.BlockStates
open PodrumMinecraft.Dispatch PodrumMinecraft.LevelChunk PodrumMinecraft.Player
open PodrumWorld.Storage PodrumWorld.ChunkMap PodrumWorld.ChunkScan

/-- The ids that `send_chunks` looks up. -/
structure FlatIds where
  air : Int32
  bedrock : Int32
  dirt : Int32
  grass : Int32

def flatIds (states : List MappingBlockState) : FlatIds where
  air := blockStateToRuntimeId (bytes "minecraft:air") 0 states
  bedrock := blockStateToRuntimeId (bytes "minecraft:bedrock") 0 states
  dirt := blockStateToRuntimeId (bytes "minecraft:dirt") 0 states
  grass := blockStateToRuntimeId (bytes "minecraft:grass") 0 states

/-- The body of the two inner loops. -/
def columnWrites (ids : FlatIds) (xx zz : Nat) : List BlockWrite :=
  [⟨UInt8.ofNat xx, 0, UInt8.ofNat zz, ids.bedrock, 0⟩,
    ⟨UInt8.ofNat xx, 1, UInt8.ofNat zz, ids.dirt, 0⟩,
    ⟨UInt8.ofNat xx, 2, UInt8.ofNat zz, ids.dirt, 0⟩,
    ⟨UInt8.ofNat xx, 3, UInt8.ofNat zz, ids.grass, 0⟩]

def flatWrites (ids : FlatIds) : List BlockWrite :=
  (List.range 16).flatMap fun xx => (List.range 16).flatMap fun zz => columnWrites ids xx zz

def flatChunk (ids : FlatIds) (position : Int × Int) : Option Chunk :=
  setBlocks (newChunk (Int32.ofInt position.1) (Int32.ofInt position.2) ids.air) (flatWrites ids)

/-- The value is one of `int32_t`. -/
def HeldInt32 (value : Int) : Prop := -2 ^ 31 ≤ value ∧ value < 2 ^ 31

/-- The casts of the position and the bounds of the loops are `int32_t`s; the
bounds of the inner loop are only computed where the outer one runs. -/
structure SumsHeld (player : MinecraftPlayer) : Prop where
  x : HeldInt32 player.x
  z : HeldInt32 player.z
  columns : HeldInt32 (player.x / 16 - player.viewDistance.toInt) ∧
    HeldInt32 (player.x / 16 + player.viewDistance.toInt)
  rows : 0 < player.viewDistance.toInt →
    HeldInt32 (player.z / 16 - player.viewDistance.toInt) ∧
      HeldInt32 (player.z / 16 + player.viewDistance.toInt)

instance (value : Int) : Decidable (HeldInt32 value) := inferInstanceAs (Decidable (_ ∧ _))

instance (player : MinecraftPlayer) : Decidable (SumsHeld player) :=
  decidable_of_iff (HeldInt32 player.x ∧ HeldInt32 player.z ∧
      (HeldInt32 (player.x / 16 - player.viewDistance.toInt) ∧
        HeldInt32 (player.x / 16 + player.viewDistance.toInt)) ∧
      (0 < player.viewDistance.toInt →
        HeldInt32 (player.z / 16 - player.viewDistance.toInt) ∧
          HeldInt32 (player.z / 16 + player.viewDistance.toInt)))
    ⟨fun held => ⟨held.1, held.2.1, held.2.2.1, held.2.2.2⟩,
      fun held => ⟨held.x, held.z, held.columns, held.rows⟩⟩

/-- The LEVEL_CHUNK packets, in the order of the loops; an overflow in their
bounds is not defined. -/
def levelChunkPackets (states : List MappingBlockState) (player : MinecraftPlayer) :
    Option (List (List UInt8)) :=
  if SumsHeld player then
    (chunkSquare (player.x / 16) (player.z / 16) player.viewDistance.toInt).mapM fun position =>
      (flatChunk (flatIds states) position).bind sendChunk
  else none

/-! ## The flat chunk -/

/-- The id at a height of a layer. -/
def flatBlock (ids : FlatIds) (height layer : Nat) : Int32 :=
  if layer = 0 then
    if height = 0 then ids.bedrock
    else if height = 1 ∨ height = 2 then ids.dirt
    else if height = 3 then ids.grass
    else ids.air
  else ids.air

theorem flatBlock_high (ids : FlatIds) {height layer : Nat} (high : ¬(height < 4 ∧ layer = 0)) :
    flatBlock ids height layer = ids.air := by
  unfold flatBlock
  by_cases first : layer = 0
  · rw [if_pos first, if_neg (by omega), if_neg (by omega), if_neg (by omega)]
  · rw [if_neg first]

theorem flatWrites_length (ids : FlatIds) : (flatWrites ids).length = 1024 := by
  simp [flatWrites, columnWrites, List.length_flatMap]

theorem mem_flatWrites {ids : FlatIds} {write : BlockWrite} :
    write ∈ flatWrites ids ↔ ∃ xx < 16, ∃ zz < 16, write ∈ columnWrites ids xx zz := by
  simp only [flatWrites, List.mem_flatMap, List.mem_range]

theorem flatWrites_agree {ids : FlatIds} {write : BlockWrite} (member : write ∈ flatWrites ids) :
    write.layer = 0 ∧ write.runtimeId = flatBlock ids write.y.toNat 0 := by
  obtain ⟨xx, -, zz, -, listed⟩ := mem_flatWrites.mp member
  simp only [columnWrites, List.mem_cons, List.not_mem_nil, or_false] at listed
  rcases listed with rfl | rfl | rfl | rfl <;> exact ⟨rfl, rfl⟩

/-- Every low place of the first layer is written. -/
theorem flatWrites_cover (ids : FlatIds) (x y z layer : UInt8) (low : y.toNat < 4)
    (first : layer.toNat = 0) :
    place x y z layer ∈ (placedWrites (flatWrites ids)).map Prod.fst := by
  have known : ∀ value : Nat, (UInt8.ofNat (value % 16)).toNat % 16 = value % 16 := by
    intro value
    rw [UInt8.toNat_ofNat_of_lt' (by simp only [UInt8.size]; omega), Nat.mod_mod]
  have each : ∀ height : UInt8, height.toNat < 4 → ∃ runtimeId,
      (⟨UInt8.ofNat (x.toNat % 16), height, UInt8.ofNat (z.toNat % 16), runtimeId, 0⟩ :
        BlockWrite) ∈ columnWrites ids (x.toNat % 16) (z.toNat % 16) := by
    intro height below
    have cases : height = 0 ∨ height = 1 ∨ height = 2 ∨ height = 3 := by
      simp only [← UInt8.toNat_inj, UInt8.toNat_zero, UInt8.toNat_one, UInt8.reduceToNat]
      omega
    rcases cases with rfl | rfl | rfl | rfl
    · exact ⟨ids.bedrock, by simp [columnWrites]⟩
    · exact ⟨ids.dirt, by simp [columnWrites]⟩
    · exact ⟨ids.dirt, by simp [columnWrites]⟩
    · exact ⟨ids.grass, by simp [columnWrites]⟩
  obtain ⟨runtimeId, listed⟩ := each y low
  rw [placedWrites, List.map_map, List.mem_map]
  refine ⟨_, mem_flatWrites.mpr ⟨_, Nat.mod_lt _ (by decide), _, Nat.mod_lt _ (by decide), listed⟩,
    ?_⟩
  simp only [Function.comp_apply, place, known, first, UInt8.toNat_zero]

theorem flat_written (ids : FlatIds) (x y z layer : UInt8) :
    written (fun _ => ids.air) (placedWrites (flatWrites ids)) (place x y z layer) =
      flatBlock ids y.toNat layer.toNat := by
  have agree : ∀ entry ∈ placedWrites (flatWrites ids),
      entry.2 = (fun there : Place => flatBlock ids there.2.1 there.2.2.2) entry.1 := by
    intro entry member
    obtain ⟨write, listed, rfl⟩ := List.mem_map.mp member
    obtain ⟨first, agrees⟩ := flatWrites_agree listed
    simp only [place, first, UInt8.toNat_zero]
    exact agrees
  refine @written_of_agree Place Int32 _ _ (fun there => flatBlock ids there.2.1 there.2.2.2) _ agree
    (place x y z layer) fun absent => ?_
  have high : ¬(y.toNat < 4 ∧ layer.toNat = 0) := fun both =>
    absent (flatWrites_cover ids x y z layer both.1 both.2)
  exact (flatBlock_high ids high).symm

theorem flatChunk_blocks (ids : FlatIds) (position : Int × Int) :
    ∃ chunk, flatChunk ids position = some chunk ∧
      run writeStep ((flatWrites ids).map .block)
        (newChunk (Int32.ofInt position.1) (Int32.ofInt position.2) ids.air) = some chunk ∧
      ∀ blockX blockY blockZ layer : UInt8, layer.toNat ≤ 1 →
        getChunkBlockRuntimeId blockX blockY blockZ layer chunk =
          some (flatBlock ids blockY.toNat layer.toNat) := by
  have fits : ∀ subChunk layer, layer < 2 →
      PaletteFits (allowedIds ids.air (flatWrites ids) subChunk layer) := fun subChunk layer _ =>
    paletteFits_of_length (by rw [flatWrites_length]; decide) subChunk layer
  obtain ⟨chunk, same, refines⟩ := setBlocks_refines fits
    (newChunk_refines (fun _ _ => List.mem_cons_self ..) (Int32.ofInt position.1)
      (Int32.ofInt position.2)) fun _ => mem_allowedIds ids.air
  refine ⟨chunk, same, (run_map_block _ _).trans same, ?_⟩
  intro blockX blockY blockZ layer stored
  rw [getChunk_refines fits refines, if_pos stored]
  rw [flat_written]

/-! ## The packets -/

/-- The chunk has a block when some id differs from that of air. -/
theorem flatBlock_present (ids : FlatIds) :
    (∃ height layer : UInt8, layer.toNat ≤ 1 ∧
      flatBlock ids height.toNat layer.toNat ≠ ids.air) ↔
      ids.bedrock ≠ ids.air ∨ ids.dirt ≠ ids.air ∨ ids.grass ≠ ids.air := by
  constructor
  · rintro ⟨height, layer, -, other⟩
    by_contra none
    push Not at none
    obtain ⟨bedrock, dirt, grass⟩ := none
    exact other (by simp only [flatBlock, bedrock, dirt, grass, ite_self])
  · rintro (bedrock | dirt | grass)
    · exact ⟨0, 0, by decide, bedrock⟩
    · exact ⟨1, 0, by decide, dirt⟩
    · exact ⟨3, 0, by decide, grass⟩

/-- The packet says where its chunk is and what is in it. -/
def Flat (ids : FlatIds) (position : Int × Int) (wire : WireChunk) : Prop :=
  wire.x.toInt = position.1 ∧ wire.z.toInt = position.2 ∧
    ∀ blockX blockY blockZ layer : UInt8, layer.toNat ≤ 1 →
      wire.blockAt ids.air blockX blockY blockZ layer =
        some (flatBlock ids blockY.toNat layer.toNat)

def Differ (ids : FlatIds) : Prop :=
  ids.bedrock ≠ ids.air ∨ ids.dirt ≠ ids.air ∨ ids.grass ≠ ids.air

theorem flatChunk_sent {ids : FlatIds} (differ : Differ ids) {position : Int × Int}
    (column : HeldInt32 position.1) (row : HeldInt32 position.2) :
    ∃ packet, (flatChunk ids position).bind sendChunk = some packet ∧
      ∃ wire, Reads getLevelChunk packet wire ∧ Flat ids position wire := by
  obtain ⟨chunk, generated, reached, blocks⟩ := flatChunk_blocks ids position
  obtain ⟨height, layer, stored, other⟩ := (flatBlock_present ids).mpr differ
  have short : ((flatWrites ids).map ChunkWrite.block).length < 65536 := by
    rw [List.length_map, flatWrites_length]
    decide
  obtain ⟨packet, wire, sent, reads, recovers⟩ := sendChunk_wire reached short
    ⟨0, height, 0, layer, stored, by rw [blocks 0 height 0 layer stored]; simpa using other⟩
  obtain ⟨-, -, -, sameX, sameZ⟩ := run_blocks reached
  refine ⟨packet, by rw [generated, Option.bind_some, sent], wire, reads, ?_, ?_,
    fun blockX blockY blockZ layer stored => ?_⟩
  · rw [recovers.x.trans sameX]
    exact Int32.toInt_ofInt_of_le column.1 column.2
  · rw [recovers.z.trans sameZ]
    exact Int32.toInt_ofInt_of_le row.1 row.2
  · rw [recovers.blocks blockX blockY blockZ layer stored,
      blocks blockX blockY blockZ layer stored]

theorem flatChunk_unsent {ids : FlatIds} (same : ¬Differ ids) (position : Int × Int) :
    (flatChunk ids position).bind sendChunk = none := by
  obtain ⟨chunk, generated, reached, blocks⟩ := flatChunk_blocks ids position
  rw [generated, Option.bind_some]
  refine sendChunk_air reached ?_
  rintro ⟨blockX, blockY, blockZ, layer, stored, other⟩
  rw [blocks blockX blockY blockZ layer stored] at other
  exact same ((flatBlock_present ids).mp ⟨blockY, layer, stored, fun equal => other (by rw [equal])⟩)

theorem mapM_related {α β : Type} {make : α → Option β} {relates : α → β → Prop} {items : List α}
    (each : ∀ item ∈ items, ∃ made, make item = some made ∧ relates item made) :
    ∃ all, items.mapM make = some all ∧ List.Forall₂ relates items all := by
  induction items with
  | nil => exact ⟨[], rfl, .nil⟩
  | cons item items ih =>
      obtain ⟨made, success, related⟩ := each item List.mem_cons_self
      obtain ⟨all, others, rest⟩ := ih fun other member => each other (List.mem_cons_of_mem _ member)
      refine ⟨made :: all, ?_, .cons related rest⟩
      simp only [List.mapM_cons, success, others, Option.bind_eq_bind, Option.bind_some]
      rfl

theorem chunkSquare_eq_nil {currentX currentZ viewDistance : Int} :
    chunkSquare currentX currentZ viewDistance = [] ↔ viewDistance ≤ 0 := by
  constructor
  · intro none
    by_contra positive
    have corner : (currentX - viewDistance, currentZ - viewDistance) ∈
        chunkSquare currentX currentZ viewDistance := by
      rw [ChunkWalk.mem_chunkSquare]
      unfold ChunkWalk.Around
      omega
    rw [none] at corner
    cases corner
  · intro negative
    rw [chunkSquare, show (2 * viewDistance).toNat = 0 by omega]
    rfl

theorem chunkSquare_held {player : MinecraftPlayer} (held : SumsHeld player) {chunk : Int × Int}
    (member : chunk ∈ chunkSquare (player.x / 16) (player.z / 16) player.viewDistance.toInt) :
    HeldInt32 chunk.1 ∧ HeldInt32 chunk.2 := by
  obtain ⟨⟨west, east⟩, north, south⟩ := ChunkWalk.mem_chunkSquare.mp member
  dsimp only at west east north south
  obtain ⟨columnLow, columnHigh⟩ := held.columns
  obtain ⟨rowLow, rowHigh⟩ := held.rows (by omega)
  unfold HeldInt32 at *
  omega

/-- The square is sent where its bounds do not overflow and it is empty or the
ids differ, and then each packet has the flat chunk of its position: bedrock, two
layers of dirt, grass, and air above. -/
theorem levelChunkPackets_flat (states : List MappingBlockState) (player : MinecraftPlayer) :
    ((∃ packets, levelChunkPackets states player = some packets) ↔
      SumsHeld player ∧ (player.viewDistance.toInt ≤ 0 ∨ Differ (flatIds states))) ∧
    ∀ packets, levelChunkPackets states player = some packets →
      List.Forall₂ (fun position packet => ∃ wire, Reads getLevelChunk packet wire ∧
          Flat (flatIds states) position wire)
        (chunkSquare (player.x / 16) (player.z / 16) player.viewDistance.toInt) packets := by
  unfold levelChunkPackets
  by_cases held : SumsHeld player
  · rw [if_pos held, and_iff_right held]
    by_cases differ : Differ (flatIds states)
    · obtain ⟨all, sent, related⟩ := mapM_related
        fun position (member : position ∈ chunkSquare (player.x / 16) (player.z / 16)
          player.viewDistance.toInt) =>
            flatChunk_sent differ (chunkSquare_held held member).1 (chunkSquare_held held member).2
      refine ⟨⟨fun _ => Or.inr differ, fun _ => ⟨all, sent⟩⟩, fun packets success => ?_⟩
      obtain rfl := Option.some.inj (sent.symm.trans success)
      exact related
    · cases square : chunkSquare (player.x / 16) (player.z / 16) player.viewDistance.toInt with
      | nil =>
          refine ⟨⟨fun _ => Or.inl (chunkSquare_eq_nil.mp square), fun _ => ⟨[], rfl⟩⟩,
            fun packets success => ?_⟩
          obtain rfl := Option.some.inj success
          exact .nil
      | cons position rest =>
          have unsent : (position :: rest).mapM (fun position =>
              (flatChunk (flatIds states) position).bind sendChunk) = none := by
            rw [List.mapM_cons, flatChunk_unsent differ]
            rfl
          have positive : ¬player.viewDistance.toInt ≤ 0 := fun negative => by
            rw [chunkSquare_eq_nil.mpr negative] at square
            cases square
          refine ⟨iff_of_false ?_ (not_or.mpr ⟨positive, differ⟩), fun packets success => ?_⟩
          · rintro ⟨packets, success⟩
            rw [unsent] at success
            cases success
          · rw [unsent] at success
            cases success
  · rw [if_neg held]
    exact ⟨iff_of_false (fun ⟨packets, success⟩ => nomatch success) fun both => held both.1,
      fun packets success => nomatch success⟩

end PodrumMinecraft.FlatChunks
