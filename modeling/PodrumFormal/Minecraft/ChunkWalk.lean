import PodrumFormal.Minecraft.Dispatch

/-!
# The chunks around a walking player

The chunks that a player is sent when it spawns and on each move packet after
that, against the square around where it stands.
-/

set_option autoImplicit false

namespace PodrumMinecraft.ChunkWalk

open EventRun Player Dispatch PodrumRakNet.Packet

/-! ## Squares of chunks -/

/-- The chunk of a place. -/
def chunkAt (x z : Int) : Int × Int := (x / 16, z / 16)

def Around (viewDistance : Int) (center chunk : Int × Int) : Prop :=
  (center.1 - viewDistance ≤ chunk.1 ∧ chunk.1 < center.1 + viewDistance) ∧
    center.2 - viewDistance ≤ chunk.2 ∧ chunk.2 < center.2 + viewDistance

instance (viewDistance : Int) (center chunk : Int × Int) :
    Decidable (Around viewDistance center chunk) := by
  unfold Around
  infer_instance

theorem mem_chunkSquare {currentX currentZ viewDistance : Int} {chunk : Int × Int} :
    chunk ∈ chunkSquare currentX currentZ viewDistance ↔
      Around viewDistance (currentX, currentZ) chunk := by
  simp only [chunkSquare, List.bind_eq_flatMap, List.pure_def, List.mem_flatMap, List.mem_map,
    List.mem_singleton, List.mem_range, Around]
  constructor
  · rintro ⟨x, ⟨column, columnBelow, rfl⟩, z, ⟨row, rowBelow, rfl⟩, rfl⟩
    dsimp only
    omega
  · rintro ⟨⟨left, right⟩, low, high⟩
    refine ⟨_, ⟨(chunk.1 - (currentX - viewDistance)).toNat, by omega, rfl⟩,
      _, ⟨(chunk.2 - (currentZ - viewDistance)).toNat, by omega, rfl⟩, ?_⟩
    apply Prod.ext <;> dsimp only <;> omega

/-- Squares of one size do not lie inside each other. -/
theorem center_unique {viewDistance : Int} {first second : Int × Int} (positive : 0 < viewDistance)
    (inside : ∀ chunk, Around viewDistance first chunk → Around viewDistance second chunk) :
    first = second := by
  have low := inside (first.1 - viewDistance, first.2 - viewDistance)
    ⟨⟨by dsimp only; omega, by dsimp only; omega⟩, by dsimp only; omega, by dsimp only; omega⟩
  have high := inside (first.1 + viewDistance - 1, first.2 + viewDistance - 1)
    ⟨⟨by dsimp only; omega, by dsimp only; omega⟩, by dsimp only; omega, by dsimp only; omega⟩
  simp only [Around] at low high
  apply Prod.ext <;> omega

/-! ## Walks -/

structure BlockPosition where
  x : Int
  y : Int
  z : Int

/-- A player and what it was sent since the spawn. -/
structure Walk where
  player : MinecraftPlayer
  sent : List SentPacket

def Walk.spawn (chunkRadius : Int32) (player : MinecraftPlayer) : Walk :=
  let (player, sent) := handlePacketRequestChunkRadius chunkRadius player
  { player, sent }

def Walk.move (walk : Walk) (position : BlockPosition) : Option Walk :=
  let (player, sent) := handlePacketMovePlayer position.x position.y position.z walk.player
  some { player, sent := walk.sent ++ sent }

def Walk.chunk (walk : Walk) : Int × Int := chunkAt walk.player.x walk.player.z

/-- Every chunk of the square around the player was sent. -/
def Covered (walk : Walk) : Prop :=
  ∀ chunk, Around walk.player.viewDistance.toInt walk.chunk chunk →
    .levelChunk chunk.1 chunk.2 ∈ walk.sent

theorem levelChunk_mem {player : MinecraftPlayer} {chunk : Int × Int} :
    .levelChunk chunk.1 chunk.2 ∈ sendChunks player ↔
      Around player.viewDistance.toInt (chunkAt player.x player.z) chunk := by
  rw [chunkAt, ← mem_chunkSquare]
  simp [sendChunks]

/-- The player has not left the chunk it spawned in. -/
structure Settled (center : Int × Int) (walk : Walk) : Prop where
  spawned : walk.player.spawned = 1
  positive : 0 < walk.player.viewDistance.toInt
  chunk : walk.chunk = center
  sent : ∀ chunk : Int × Int, .levelChunk chunk.1 chunk.2 ∈ walk.sent ↔
    Around walk.player.viewDistance.toInt center chunk

theorem Settled.covered {center : Int × Int} {walk : Walk} (settled : Settled center walk) :
    Covered walk := by
  intro chunk around
  rw [settled.chunk] at around
  exact (settled.sent chunk).mpr around

theorem settled_spawn {player : MinecraftPlayer} {chunkRadius : Int32}
    (waiting : player.spawned ≠ 1) (positive : 0 < chunkRadius) :
    Settled (chunkAt player.x player.z) (Walk.spawn chunkRadius player) := by
  have radius : 0 < (if chunkRadius < 8 then chunkRadius else 8).toInt := by
    split
    · exact Int32.lt_iff_toInt_lt.mp positive
    · decide
  simp only [Walk.spawn, handlePacketRequestChunkRadius, if_neg waiting]
  refine ⟨rfl, radius, rfl, fun chunk => ?_⟩
  simp [levelChunk_mem]

/-- The chunks that a move sends are those around the place it leaves. -/
theorem move_eq {walk next : Walk} {position : BlockPosition} (spawned : walk.player.spawned = 1)
    (moved : walk.move position = some next) :
    next.player = { walk.player with x := position.x, y := position.y, z := position.z } ∧
      next.sent = walk.sent ++
        if walk.chunk = chunkAt position.x position.z then [] else sendChunks walk.player := by
  cases moved
  refine ⟨rfl, congrArg (walk.sent ++ ·) ?_⟩
  by_cases same : walk.chunk = chunkAt position.x position.z
  · obtain ⟨column, row⟩ := Prod.mk.inj same
    rw [if_pos same, if_neg fun crossed => crossed.2.elim (· column) (· row)]
  · have crossed : walk.player.x / 16 ≠ position.x / 16 ∨ walk.player.z / 16 ≠ position.z / 16 := by
      by_contra inside
      obtain ⟨column, row⟩ := not_or.mp inside
      exact same (Prod.ext (not_not.mp column) (not_not.mp row))
    rw [if_neg same, if_pos ⟨spawned, crossed⟩]

theorem Settled.stay {center : Int × Int} {walk next : Walk} {position : BlockPosition}
    (settled : Settled center walk) (inside : chunkAt position.x position.z = center)
    (moved : walk.move position = some next) : Settled center next := by
  obtain ⟨player, sent⟩ := move_eq settled.spawned moved
  rw [if_pos (settled.chunk.trans inside.symm), List.append_nil] at sent
  refine ⟨?_, ?_, ?_, fun chunk => ?_⟩
  · rw [player]
    exact settled.spawned
  · rw [player]
    exact settled.positive
  · rw [Walk.chunk, player]
    exact inside
  · rw [player, sent]
    exact settled.sent chunk

theorem Settled.leave {center : Int × Int} {walk next : Walk} {position : BlockPosition}
    (settled : Settled center walk) (outside : chunkAt position.x position.z ≠ center)
    (moved : walk.move position = some next) : ¬Covered next := by
  intro covered
  obtain ⟨player, sent⟩ := move_eq settled.spawned moved
  rw [settled.chunk, if_neg (Ne.symm outside)] at sent
  rw [Covered, Walk.chunk, player, sent] at covered
  refine outside (center_unique settled.positive fun chunk around => ?_)
  rcases List.mem_append.mp (covered chunk around) with before | now
  · exact (settled.sent chunk).mp before
  · rw [← settled.chunk]
    exact levelChunk_mem.mp now

theorem covered_iff_settled {center : Int × Int} (positions : List BlockPosition) :
    ∀ walk, Settled center walk →
      ((∀ state, Visits Walk.move positions walk state → Covered state) ↔
        ∀ position ∈ positions, chunkAt position.x position.z = center) := by
  induction positions with
  | nil =>
      intro walk settled
      refine iff_of_true ?_ fun _ member => nomatch member
      rintro state rfl
      exact settled.covered
  | cons position positions ih =>
      intro walk settled
      obtain ⟨next, moved⟩ : ∃ next, walk.move position = some next := ⟨_, rfl⟩
      rw [List.forall_mem_cons]
      constructor
      · intro everywhere
        have inside : chunkAt position.x position.z = center := by
          by_contra outside
          exact settled.leave outside moved
            (everywhere next (.inr ⟨next, moved, visits_start positions next⟩))
        refine ⟨inside, (ih next (settled.stay inside moved)).mp fun state visited => ?_⟩
        exact everywhere state (.inr ⟨next, moved, visited⟩)
      · rintro ⟨inside, others⟩ state (rfl | ⟨other, step, visited⟩)
        · exact settled.covered
        · exact (ih other (settled.stay inside step)).mpr others state visited

/-- The square around the player is there after the spawn and after every move
packet exactly where no move leaves the chunk of the spawn. -/
theorem walk_covered_iff (player : MinecraftPlayer) (waiting : player.spawned ≠ 1)
    (chunkRadius : Int32) (positive : 0 < chunkRadius) (positions : List BlockPosition) :
    (∀ state, Visits Walk.move positions (Walk.spawn chunkRadius player) state →
        Covered state) ↔
      ∀ position ∈ positions, chunkAt position.x position.z = chunkAt player.x player.z :=
  covered_iff_settled positions _ (settled_spawn waiting positive)

def localPlayer : MinecraftPlayer := newPlayer ⟨4, [], 19132⟩ 594 (-1) 1

theorem walk_covered_iff_local :
    (∀ state, Visits Walk.move [⟨15, -56, 15⟩] (Walk.spawn 8 localPlayer) state →
        Covered state) ↔
      ∀ position ∈ [(⟨15, -56, 15⟩ : BlockPosition)],
        chunkAt position.x position.z = chunkAt localPlayer.x localPlayer.z :=
  walk_covered_iff localPlayer (by decide) 8 (by decide) [⟨15, -56, 15⟩]

/-- One step over the border of a chunk. -/
theorem neighbour_uncovered :
    ∃ walk, run Walk.move [⟨16, -56, 0⟩] (Walk.spawn 1 localPlayer) = some walk ∧
      Around walk.player.viewDistance.toInt walk.chunk (1, 0) ∧
      .levelChunk 1 0 ∉ walk.sent := ⟨_, rfl, by decide, by decide⟩

end PodrumMinecraft.ChunkWalk
