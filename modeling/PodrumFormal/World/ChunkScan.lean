import Mathlib.Data.Nat.SuccPred
import PodrumFormal.Lib.DownwardLoop
import PodrumFormal.World.ChunkMap

/-!
# The blocks of a chunk that are not air

The searches of a chunk look at palette indices: an index is 0 exactly where
the block is air.  The two downward searches count on an unsigned byte.
-/

set_option autoImplicit false

namespace PodrumWorld.ChunkScan

open ChunkMap DownwardLoop LastWrite Storage

/-! ## Block storages and sub-chunks -/

def blockStorageEmpty : Int32 := -1

/-- The loop over `y`, from below the bound down to 0. -/
def highestBelow (x z : UInt8) (blocks : Vector UInt32 blockStorageBlocksSize) :
    Nat → Option Int8
  | 0 => some blockStorageEmpty.toInt8
  | y + 1 => do
    let block ← blocks[blockIndex x (UInt8.ofNat y) z]?
    if block ≠ 0 then some (Int8.ofNat y) else highestBelow x z blocks y

def getBlockStorageHighestBlockAt (x z : UInt8) (blockStorage : BlockStorage) : Option Int8 :=
  highestBelow x z blockStorage.blocks 16

def isEmptyBlockStorage (blockStorage : BlockStorage) : UInt8 :=
  if blockStorage.blocks.toList.any (· ≠ 0) then 0 else 1

def getSubChunkHighestBlockAt (x z layer : UInt8) (subChunk : SubChunk) : Option Int8 :=
  match subChunk.blockStorages[layer.toNat]? with
  | some blockStorage => getBlockStorageHighestBlockAt x z blockStorage
  | none => some subChunkLayerNotPresent.toInt8

def isEmptySubChunk (subChunk : SubChunk) : UInt8 :=
  if subChunk.blockStorages.any fun blockStorage => isEmptyBlockStorage blockStorage = 0 then 0
  else 1

/-! ## Chunks -/

def chunkEmpty : Int32 := -3

def highestTurn (x z layer : UInt8) (i : UInt8) (subChunk : SubChunk) (_ : Unit) :
    Option (Unit ⊕ Int32) := do
  let y ← getSubChunkHighestBlockAt (x &&& 0x0f) (z &&& 0x0f) layer subChunk
  if y.toInt32 ≠ subChunkLayerNotPresent ∧ y.toInt32 ≠ blockStorageEmpty then
    some (.inr (y.toInt32 + (i.toUInt32 <<< 4).toInt32))
  else some (.inl ())

/-- `none` is an access outside the sub-chunks.  The loop does not end at its
condition, so `CHUNK_EMPTY` is never returned. -/
def getChunkHighestBlockAt (x z layer : UInt8) (chunk : Chunk) : Option Int32 :=
  downward chunk.subChunks (highestTurn x z layer) 256 (UInt8.ofNat (chunkSubChunkSize - 1)) ()

/-- The turns that are left, and `i`. -/
def emptyFrom (subChunks : List SubChunk) : Nat → UInt8 → Option UInt8
  | 0, _ => some 1
  | turns + 1, i => do
    let subChunk ← subChunks[i.toNat]?
    if isEmptySubChunk subChunk = 0 then some 0 else emptyFrom subChunks turns (i + 1)

def isEmptyChunk (chunk : Chunk) : Option UInt8 :=
  emptyFrom chunk.subChunks chunkSubChunkSize 0

/-- A break stops with the count. -/
def countTurn (_ : UInt8) (subChunk : SubChunk) (topEmpty : UInt32) :
    Option (UInt32 ⊕ UInt32) :=
  if isEmptySubChunk subChunk = 1 then some (.inl (topEmpty + 1)) else some (.inr topEmpty)

def getChunkSubChunkSendCount (chunk : Chunk) : Option UInt32 := do
  let topEmpty ← downward chunk.subChunks countTurn 256 (UInt8.ofNat (chunkSubChunkSize - 1)) 0
  some (UInt32.ofNat chunkSubChunkSize - topEmpty)

/-! ## What the chunk holds -/

/-- A layer of the sub-chunk has a block that does not read as air. -/
def HoldsBlock (air : Int32) (subChunk : SubChunk) : Prop :=
  ∃ x y z layer : UInt8, Local x y z ∧ layer.toNat < subChunk.blockStorages.length ∧
    getSubChunkBlockRuntimeId x y z layer subChunk ≠ some air

/-- The block of a column at a height reads as something else than air.  A
layer that is not there has no block. -/
def NotAir (air : Int32) (chunk : Chunk) (x z layer : UInt8) (height : Nat) : Prop :=
  ∃ subChunk, chunk.subChunks[height / 16]? = some subChunk ∧
    layer.toNat < subChunk.blockStorages.length ∧
    getSubChunkBlockRuntimeId (x &&& 0x0f) (UInt8.ofNat (height % 16)) (z &&& 0x0f) layer
      subChunk ≠ some air

/-- The indices of the sub-chunks with a block. -/
def filled (air : Int32) (chunk : Chunk) : Set Nat :=
  {index | ∃ subChunk, chunk.subChunks[index]? = some subChunk ∧ HoldsBlock air subChunk}

/-- One more than the greatest index of a sub-chunk with a block, or 0. -/
def SendCount (air : Int32) (chunk : Chunk) (count : Nat) : Prop :=
  (∃ index, count = index + 1 ∧ IsGreatest (filled air chunk) index) ∨
    (count = 0 ∧ filled air chunk = ∅)

/-- The greatest height of the column with a block, or `CHUNK_EMPTY`. -/
def Highest (air : Int32) (chunk : Chunk) (x z layer : UInt8) (result : Int32) : Prop :=
  (∃ height : Nat, result.toInt = height ∧
      IsGreatest {height | NotAir air chunk x z layer height} height) ∨
    (result = chunkEmpty ∧ ∀ height, ¬NotAir air chunk x z layer height)

/-! ## A reached chunk -/

/-- A run that is defined refines the plain map, and its palettes fit. -/
theorem reached_refines {x z air : Int32} {writes : List BlockWrite} {chunk : Chunk}
    (run : setBlocks (newChunk x z air) writes = some chunk) :
    (∀ subChunk layer, layer < 2 → PaletteFits (allowedIds air writes subChunk layer)) ∧
      Refines air (allowedIds air writes) (written (fun _ => air) (placedWrites writes))
        chunk := by
  have fits : ∀ subChunk layer, layer < 2 →
      PaletteFits (allowedIds air writes subChunk layer) := by
    intro subChunk layer stored
    by_cases inside : subChunk < chunkSubChunkSize
    · exact paletteFits_of_run run subChunk layer inside stored
    · -- No height is in a sub-chunk that far up.
      have none : allowedIds air writes subChunk layer = [air] := by
        rw [allowedIds, List.filter_eq_nil_iff.mpr, List.map_nil]
        intro write _ there
        have low := write.y.toNat_lt
        have same := (of_decide_eq_true there).1
        rw [chunkSubChunkSize] at inside
        omega
      rw [PaletteFits, none]
      exact show 1 < 2 ^ 31 by decide
  have start : Refines air (allowedIds air writes) (fun _ => air) (newChunk x z air) :=
    newChunk_refines (fun _ _ => List.mem_cons_self ..) x z
  obtain ⟨after, same, refines⟩ := setBlocks_refines fits start fun _ => mem_allowedIds air
  rw [run] at same
  cases same
  exact ⟨fits, refines⟩

/-- The places above the greatest height that a write can name stay air. -/
theorem written_above {air : Int32} {writes : List BlockWrite} {place : Place}
    (above : 256 ≤ place.2.1) : written (fun _ => air) (placedWrites writes) place = air := by
  apply written_of_not_mem
  intro member
  obtain ⟨entry, entered, rfl⟩ := List.mem_map.mp member
  obtain ⟨write, -, rfl⟩ := List.mem_map.mp entered
  have low := write.y.toNat_lt
  simp only [ChunkMap.place] at above
  omega

theorem exists_cell (position : Fin blockStorageBlocksSize) :
    ∃ x y z, ∃ inside : Local x y z, cell inside = position := by
  have bound : position.val < 4096 := position.isLt
  have column : (UInt8.ofNat (position.val / 256)).toNat = position.val / 256 :=
    UInt8.toNat_ofNat_of_lt' (by simp only [UInt8.size]; omega)
  have height : (UInt8.ofNat (position.val % 16)).toNat = position.val % 16 :=
    UInt8.toNat_ofNat_of_lt' (by simp only [UInt8.size]; omega)
  have row : (UInt8.ofNat (position.val / 16 % 16)).toNat = position.val / 16 % 16 :=
    UInt8.toNat_ofNat_of_lt' (by simp only [UInt8.size]; omega)
  refine ⟨UInt8.ofNat (position.val / 256), UInt8.ofNat (position.val % 16),
    UInt8.ofNat (position.val / 16 % 16), ⟨?_, ?_, ?_⟩, Fin.ext ?_⟩
  · rw [column]; omega
  · rw [height]; omega
  · rw [row]; omega
  · simp only [cell]
    rw [blockIndex_eq (by rw [row]; omega) (by rw [height]; omega), column, height, row]
    omega

/-- A flag that is cleared by the first item that passes the test. -/
theorem flag_eq_zero {α : Type} {items : List α} {test : α → Bool} :
    (if items.any test then (0 : UInt8) else 1) = 0 ↔ ∃ item ∈ items, test item = true := by
  rw [← List.any_eq_true]
  cases items.any test with
  | false => exact iff_of_false (by decide) Bool.false_ne_true
  | true => exact iff_of_true rfl rfl

section Refinement

variable {air : Int32} {allowed : Allowed} {content : Place → Int32} {index : Nat}
  {subChunk : SubChunk}

theorem getSubChunk_refines (fits : ∀ layer < 2, PaletteFits (allowed index layer))
    (refines : RefinesSubChunk air allowed content index subChunk) {x y z layer : UInt8}
    (inside : Local x y z) (stored : layer.toNat < subChunk.blockStorages.length) :
    getSubChunkBlockRuntimeId x y z layer subChunk =
      some (content (placeOf index layer.toNat (cell inside))) := by
  have present := List.getElem?_eq_getElem stored
  rw [refines.layers] at stored
  rw [getSubChunkBlockRuntimeId, present]
  exact get_of_represents (refines.stores _ _ present) (fits _ stored) inside

theorem isEmptyBlockStorage_iff {layer : Nat} {blockStorage : BlockStorage}
    (stores : StoresPart air allowed content index layer blockStorage) :
    isEmptyBlockStorage blockStorage = 0 ↔
      ∃ position, content (placeOf index layer position) ≠ air := by
  have zero : ∀ position, indices blockStorage position ≠ 0 ↔
      content (placeOf index layer position) ≠ air := fun position =>
    not_congr (stores.cell_eq_zero_iff position)
  have search : isEmptyBlockStorage blockStorage = 0 ↔
      ∃ block ∈ blockStorage.blocks.toList, block ≠ 0 := by
    rw [isEmptyBlockStorage, flag_eq_zero]
    simp only [decide_eq_true_eq]
  rw [search]
  constructor
  · rintro ⟨block, member, other⟩
    obtain ⟨position, bound, same⟩ := List.getElem_of_mem member
    rw [Vector.length_toList] at bound
    refine ⟨⟨position, bound⟩, (zero _).mp ?_⟩
    rw [Vector.getElem_toList] at same
    intro none
    rw [indices, Fin.getElem_fin, same] at none
    exact other (UInt32.toNat_inj.mp none)
  · rintro ⟨position, other⟩
    refine ⟨blockStorage.blocks[position], ?_, fun none => (zero position).mpr other ?_⟩
    · exact Vector.mem_toList_iff.mpr (Vector.getElem_mem position.isLt)
    · rw [indices, none, UInt32.toNat_zero]

/-- The index test is the test of the blocks. -/
theorem isEmptySubChunk_iff (fits : ∀ layer < 2, PaletteFits (allowed index layer))
    (refines : RefinesSubChunk air allowed content index subChunk) :
    isEmptySubChunk subChunk = 0 ↔ HoldsBlock air subChunk := by
  have search : isEmptySubChunk subChunk = 0 ↔
      ∃ blockStorage ∈ subChunk.blockStorages, isEmptyBlockStorage blockStorage = 0 := by
    rw [isEmptySubChunk, flag_eq_zero]
    simp only [decide_eq_true_eq]
  rw [search]
  constructor
  · rintro ⟨blockStorage, member, other⟩
    obtain ⟨layer, stored, same⟩ := List.getElem_of_mem member
    have present := List.getElem?_eq_some_iff.mpr ⟨stored, same⟩
    obtain ⟨position, other⟩ :=
      (isEmptyBlockStorage_iff (refines.stores layer _ present)).mp other
    obtain ⟨x, y, z, inside, rfl⟩ := exists_cell position
    have small : layer < 2 := by rwa [refines.layers] at stored
    have number : (UInt8.ofNat layer).toNat = layer :=
      UInt8.toNat_ofNat_of_lt' (by simp only [UInt8.size]; omega)
    refine ⟨x, y, z, UInt8.ofNat layer, inside, by rwa [number], ?_⟩
    rw [getSubChunk_refines fits refines inside (by rwa [number]), number]
    exact fun air => other (Option.some.inj air)
  · rintro ⟨x, y, z, layer, inside, stored, other⟩
    rw [getSubChunk_refines fits refines inside stored] at other
    have present := List.getElem?_eq_getElem stored
    refine ⟨_, List.getElem_mem stored, ?_⟩
    exact (isEmptyBlockStorage_iff (refines.stores _ _ present)).mpr
      ⟨cell inside, fun air => other (congrArg some air)⟩

theorem isEmptySubChunk_bit (subChunk : SubChunk) :
    isEmptySubChunk subChunk = 1 ↔ ¬isEmptySubChunk subChunk = 0 := by
  rw [isEmptySubChunk]
  split <;> decide

end Refinement

/-! ## Emptiness -/

theorem emptyFrom_iff {subChunks : List SubChunk} (count : subChunks.length = chunkSubChunkSize)
    (turns : Nat) :
    ∀ {i : Nat}, i + turns = chunkSubChunkSize →
      ∃ result, emptyFrom subChunks turns (UInt8.ofNat i) = some result ∧
        (result = 1 ↔ ∀ index, i ≤ index → ∀ subChunk, subChunks[index]? = some subChunk →
          ¬isEmptySubChunk subChunk = 0) := by
  induction turns with
  | zero =>
    intro i last
    refine ⟨1, rfl, iff_of_true rfl fun index above subChunk present => ?_⟩
    have inside := (List.getElem?_eq_some_iff.mp present).1
    omega
  | succ turns ih =>
    intro i last
    have size : chunkSubChunkSize = 25 := rfl
    have inside : i < subChunks.length := by omega
    have number : (UInt8.ofNat i).toNat = i :=
      UInt8.toNat_ofNat_of_lt' (by simp only [UInt8.size]; omega)
    have present := List.getElem?_eq_getElem inside
    simp only [emptyFrom, number, present, Option.bind_eq_bind, Option.bind_some]
    by_cases filled : isEmptySubChunk subChunks[i] = 0
    · rw [if_pos filled]
      exact ⟨0, rfl, iff_of_false (by decide) fun all => all i (Nat.le_refl i) _ present filled⟩
    · rw [if_neg filled]
      obtain ⟨result, rest, empty⟩ := @ih (i + 1) (by omega)
      have next : UInt8.ofNat i + 1 = UInt8.ofNat (i + 1) := (UInt8.ofNat_add i 1).symm
      refine ⟨result, by rw [next]; exact rest, empty.trans ⟨fun later index above => ?_, ?_⟩⟩
      · rcases Nat.lt_or_eq_of_le above with above | rfl
        · exact later index above
        · intro subChunk found
          rw [present] at found
          cases found
          exact filled
      · exact fun all index above => all index (Nat.le_of_succ_le above)

section Reached

variable {x z air : Int32} {writes : List BlockWrite} {chunk : Chunk}

theorem reached_subChunk (run : setBlocks (newChunk x z air) writes = some chunk)
    {index : Nat} {subChunk : SubChunk} (present : chunk.subChunks[index]? = some subChunk) :
    index < 25 ∧ subChunk.blockStorages.length = 2 ∧
      (isEmptySubChunk subChunk = 0 ↔ HoldsBlock air subChunk) ∧
      ∀ {x y z layer : UInt8} (inside : Local x y z), layer.toNat < 2 →
        getSubChunkBlockRuntimeId x y z layer subChunk =
          some (written (fun _ => air) (placedWrites writes)
            (placeOf index layer.toNat (cell inside))) := by
  obtain ⟨fits, refines⟩ := reached_refines run
  have part := refines.each index subChunk present
  have bound := (List.getElem?_eq_some_iff.mp present).1
  rw [refines.count] at bound
  refine ⟨bound, part.layers, isEmptySubChunk_iff (fits index) part, ?_⟩
  intro x y z layer inside stored
  exact getSubChunk_refines (fits index) part inside (by rwa [part.layers])

theorem low_ofNat (y : UInt8) : UInt8.ofNat (y.toNat % 16) = y &&& 0x0f := by
  apply UInt8.toNat_inj.mp
  rw [low_toNat, UInt8.toNat_ofNat_of_lt' (by simp only [UInt8.size]; omega)]

theorem notAir_at (run : setBlocks (newChunk x z air) writes = some chunk)
    {blockX blockY blockZ layer : UInt8} :
    NotAir air chunk blockX blockZ layer blockY.toNat ↔
      layer.toNat ≤ 1 ∧ getChunkBlockRuntimeId blockX blockY blockZ layer chunk ≠ some air := by
  have bound : blockY.toNat / 16 < chunk.subChunks.length := by
    have below := blockY.toNat_lt
    rw [(reached_refines run).2.count, chunkSubChunkSize]
    omega
  have present := List.getElem?_eq_getElem bound
  obtain ⟨-, layers, -, -⟩ := reached_subChunk run present
  have read : getChunkBlockRuntimeId blockX blockY blockZ layer chunk =
      getSubChunkBlockRuntimeId (blockX &&& 0x0f) (blockY &&& 0x0f) (blockZ &&& 0x0f) layer
        chunk.subChunks[blockY.toNat / 16] := by
    rw [getChunkBlockRuntimeId, high_toNat, present]
    rfl
  rw [NotAir, low_ofNat, read]
  constructor
  · rintro ⟨subChunk, found, stored, other⟩
    rw [present] at found
    cases found
    exact ⟨by omega, other⟩
  · rintro ⟨stored, other⟩
    exact ⟨_, present, by omega, other⟩

/-- No write reaches the heights from 256 on. -/
theorem notAir_small (run : setBlocks (newChunk x z air) writes = some chunk)
    {blockX blockZ layer : UInt8} {height : Nat}
    (other : NotAir air chunk blockX blockZ layer height) : height < 256 := by
  obtain ⟨subChunk, present, stored, other⟩ := other
  obtain ⟨-, layers, -, value⟩ := reached_subChunk run present
  have low : (UInt8.ofNat (height % 16)).toNat = height % 16 :=
    UInt8.toNat_ofNat_of_lt' (by simp only [UInt8.size]; omega)
  have inside : Local (blockX &&& 0x0f) (UInt8.ofNat (height % 16)) (blockZ &&& 0x0f) := by
    refine ⟨?_, ?_, ?_⟩
    · rw [low_toNat]; omega
    · rw [low]; omega
    · rw [low_toNat]; omega
  rw [value inside (by omega)] at other
  by_contra above
  refine other (congrArg some (written_above ?_))
  simp only [placeOf]
  omega

/-- The heights with a block are those that the getter reads. -/
theorem notAir_iff (run : setBlocks (newChunk x z air) writes = some chunk)
    {blockX blockZ layer : UInt8} {height : Nat} :
    NotAir air chunk blockX blockZ layer height ↔ ∃ blockY : UInt8, blockY.toNat = height ∧
      layer.toNat ≤ 1 ∧ getChunkBlockRuntimeId blockX blockY blockZ layer chunk ≠ some air := by
  constructor
  · intro other
    have number : (UInt8.ofNat height).toNat = height :=
      UInt8.toNat_ofNat_of_lt' (notAir_small run other)
    rw [← number] at other
    exact ⟨UInt8.ofNat height, number, (notAir_at run).mp other⟩
  · rintro ⟨blockY, rfl, held⟩
    exact (notAir_at run).mpr held

/-- A sub-chunk has a block where some column has one at its heights. -/
theorem holdsBlock_iff {index : Nat} {subChunk : SubChunk}
    (present : chunk.subChunks[index]? = some subChunk) :
    HoldsBlock air subChunk ↔ ∃ blockX blockZ layer height,
      height / 16 = index ∧ NotAir air chunk blockX blockZ layer height := by
  constructor
  · rintro ⟨blockX, blockY, blockZ, layer, inside, stored, other⟩
    obtain ⟨left, middle, right⟩ := inside
    have kept : ∀ value : UInt8, value.toNat < 16 → value &&& 0x0f = value := fun value small =>
      UInt8.toNat_inj.mp (by rw [low_toNat, Nat.mod_eq_of_lt small])
    have height : (16 * index + blockY.toNat) / 16 = index := by omega
    have low : (16 * index + blockY.toNat) % 16 = blockY.toNat % 16 := by omega
    refine ⟨blockX, blockZ, layer, 16 * index + blockY.toNat, height, subChunk, ?_, stored, ?_⟩
    · rw [height]
      exact present
    · rw [low, low_ofNat, kept _ left, kept _ middle, kept _ right]
      exact other
  · rintro ⟨blockX, blockZ, layer, height, rfl, subChunk', found, stored, other⟩
    rw [present] at found
    cases found
    refine ⟨_, _, _, layer, ⟨?_, ?_, ?_⟩, stored, other⟩
    · rw [low_toNat]; omega
    · rw [UInt8.toNat_ofNat_of_lt' (by simp only [UInt8.size]; omega)]; omega
    · rw [low_toNat]; omega

/-- Some sub-chunk has a block where some place does not read as air. -/
theorem filled_iff (run : setBlocks (newChunk x z air) writes = some chunk) :
    (filled air chunk).Nonempty ↔ ∃ blockX blockY blockZ layer : UInt8, layer.toNat ≤ 1 ∧
      getChunkBlockRuntimeId blockX blockY blockZ layer chunk ≠ some air := by
  constructor
  · rintro ⟨index, subChunk, present, holds⟩
    obtain ⟨blockX, blockZ, layer, height, -, other⟩ := (holdsBlock_iff present).mp holds
    obtain ⟨blockY, -, held⟩ := (notAir_iff run).mp other
    exact ⟨blockX, blockY, blockZ, layer, held⟩
  · rintro ⟨blockX, blockY, blockZ, layer, held⟩
    have other := (notAir_at run).mpr held
    obtain ⟨subChunk, present, -⟩ := id other
    exact ⟨_, subChunk, present, (holdsBlock_iff present).mpr
      ⟨blockX, blockZ, layer, blockY.toNat, rfl, other⟩⟩

/-- The test for emptiness is right after every run. -/
theorem isEmptyChunk_iff (run : setBlocks (newChunk x z air) writes = some chunk) :
    ∃ result, isEmptyChunk chunk = some result ∧
      (result = 1 ↔ ∀ blockX blockY blockZ layer : UInt8, layer.toNat ≤ 1 →
        getChunkBlockRuntimeId blockX blockY blockZ layer chunk = some air) := by
  obtain ⟨result, returned, empty⟩ :=
    emptyFrom_iff (reached_refines run).2.count chunkSubChunkSize (Nat.zero_add _)
  refine ⟨result, returned, empty.trans ?_⟩
  have none : (∀ index, 0 ≤ index → ∀ subChunk, chunk.subChunks[index]? = some subChunk →
      ¬isEmptySubChunk subChunk = 0) ↔ ¬(filled air chunk).Nonempty := by
    constructor
    · rintro all ⟨index, subChunk, present, holds⟩
      obtain ⟨-, -, test, -⟩ := reached_subChunk run present
      exact all index (Nat.zero_le index) subChunk present (test.mpr holds)
    · intro none index _ subChunk present flag
      obtain ⟨-, -, test, -⟩ := reached_subChunk run present
      exact none ⟨index, subChunk, present, test.mp flag⟩
  rw [none, filled_iff run]
  push Not
  rfl

theorem isEmptyChunk_iff_three :
    ∃ chunk, setBlocks (newChunk 0 0 5) threeWrites = some chunk ∧
      ∃ result, isEmptyChunk chunk = some result ∧
        (result = 1 ↔ ∀ blockX blockY blockZ layer : UInt8, layer.toNat ≤ 1 →
          getChunkBlockRuntimeId blockX blockY blockZ layer chunk = some 5) := by
  obtain ⟨chunk, run, -⟩ := chunk_reads_written 0 0 5 threeWrites fun subChunk layer _ =>
    paletteFits_of_length (by decide) subChunk layer
  exact ⟨chunk, run, isEmptyChunk_iff run⟩

/-! ## The count of the sub-chunks to send -/

theorem countTurn_passes (run : setBlocks (newChunk x z air) writes = some chunk) {index : Nat}
    (empty : index ∉ filled air chunk) : Passes chunk.subChunks countTurn (· + 1) index := by
  intro subChunk present topEmpty
  obtain ⟨-, -, test, -⟩ := reached_subChunk run present
  have one : isEmptySubChunk subChunk = 1 := by
    rw [isEmptySubChunk_bit, test]
    exact fun holds => empty ⟨subChunk, present, holds⟩
  rw [countTurn, if_pos one]

theorem iterate_count (turns : Nat) : (· + 1)^[turns] (0 : UInt32) = UInt32.ofNat turns := by
  induction turns with
  | zero => rfl
  | succ turns ih => rw [Function.iterate_succ_apply', ih, ← UInt32.ofNat_one, UInt32.ofNat_add]

theorem chunk_length (run : setBlocks (newChunk x z air) writes = some chunk) :
    chunk.subChunks.length = 25 := (reached_refines run).2.count

theorem sendCount_greatest (run : setBlocks (newChunk x z air) writes = some chunk) {index : Nat}
    (greatest : IsGreatest (filled air chunk) index) :
    getChunkSubChunkSendCount chunk = some (UInt32.ofNat (index + 1)) := by
  obtain ⟨⟨subChunk, present, holds⟩, above⟩ := greatest
  obtain ⟨bound, -, test, -⟩ := reached_subChunk run present
  have zero := test.mpr holds
  have stopped : countTurn (UInt8.ofNat index) subChunk ((· + 1)^[24 - index] 0) =
      some (.inr (UInt32.ofNat (24 - index))) := by
    rw [countTurn, if_neg (by rw [zero]; decide), iterate_count]
  have loop := downward_stops (Nat.le_of_lt_succ bound) (by decide)
    (by rw [chunk_length run]; decide)
    (fun other lower _ => countTurn_passes run fun member =>
      Nat.not_lt.mpr (above member) lower) present (by decide : 24 < 256) stopped
  have difference : UInt32.ofNat chunkSubChunkSize - UInt32.ofNat (24 - index) =
      UInt32.ofNat (index + 1) := by
    rw [← UInt32.ofNat_sub (by rw [chunkSubChunkSize]; omega), chunkSubChunkSize]
    congr 1
    omega
  rw [getChunkSubChunkSendCount, show UInt8.ofNat (chunkSubChunkSize - 1) = UInt8.ofNat 24 from rfl,
    loop]
  exact congrArg some difference

theorem sendCount_none (run : setBlocks (newChunk x z air) writes = some chunk)
    (empty : ¬(filled air chunk).Nonempty) : getChunkSubChunkSendCount chunk = none := by
  have loop := @downward_none _ _ _ chunk.subChunks countTurn (· + 1)
    (by rw [chunk_length run]; decide) 24 (by decide)
    (fun index _ => countTurn_passes run fun member => empty ⟨index, member⟩) 256 0
  rw [getChunkSubChunkSendCount, show UInt8.ofNat (chunkSubChunkSize - 1) = UInt8.ofNat 24 from rfl,
    loop]
  rfl

theorem filled_greatest (run : setBlocks (newChunk x z air) writes = some chunk)
    (present : (filled air chunk).Nonempty) : ∃ index, IsGreatest (filled air chunk) index := by
  refine BddAbove.exists_isGreatest_of_nonempty ⟨25, fun index member => ?_⟩ present
  obtain ⟨subChunk, present, -⟩ := member
  exact Nat.le_of_lt (reached_subChunk run present).1

/-- The count is right exactly where the chunk has a block that is not air:
the search of an empty chunk leaves the sub-chunks. -/
theorem sendCount_iff (run : setBlocks (newChunk x z air) writes = some chunk) :
    (∃ count, getChunkSubChunkSendCount chunk = some count ∧
        SendCount air chunk count.toNat) ↔
      ∃ blockX blockY blockZ layer : UInt8, layer.toNat ≤ 1 ∧
        getChunkBlockRuntimeId blockX blockY blockZ layer chunk ≠ some air := by
  rw [← filled_iff run]
  constructor
  · rintro ⟨count, returned, -⟩
    by_contra empty
    rw [sendCount_none run empty] at returned
    cases returned
  · intro present
    obtain ⟨index, greatest⟩ := filled_greatest run present
    obtain ⟨subChunk, found, -⟩ := id greatest.1
    have bound := (reached_subChunk run found).1
    refine ⟨_, sendCount_greatest run greatest, Or.inl ⟨index, ?_, greatest⟩⟩
    exact UInt32.toNat_ofNat_of_lt' (by simp only [UInt32.size]; omega)

theorem sendCount_iff_three :
    ∃ chunk, setBlocks (newChunk 0 0 5) threeWrites = some chunk ∧
      ((∃ count, getChunkSubChunkSendCount chunk = some count ∧
          SendCount 5 chunk count.toNat) ↔
        ∃ blockX blockY blockZ layer : UInt8, layer.toNat ≤ 1 ∧
          getChunkBlockRuntimeId blockX blockY blockZ layer chunk ≠ some 5) := by
  obtain ⟨chunk, run, -⟩ := chunk_reads_written 0 0 5 threeWrites fun subChunk layer _ =>
    paletteFits_of_length (by decide) subChunk layer
  exact ⟨chunk, run, sendCount_iff run⟩

theorem filled_newChunk (x z air : Int32) : ¬(filled air (newChunk x z air)).Nonempty := by
  have run : setBlocks (newChunk x z air) [] = some (newChunk x z air) := rfl
  obtain ⟨fits, refines⟩ := reached_refines run
  rw [filled_iff run]
  rintro ⟨blockX, blockY, blockZ, layer, stored, other⟩
  rw [getChunk_refines fits refines, if_pos stored] at other
  exact other rfl

/-- A new chunk has no block, and the count does not return. -/
theorem sendCount_empty : setBlocks (newChunk 0 0 0) [] = some (newChunk 0 0 0) ∧
    ¬∃ count, getChunkSubChunkSendCount (newChunk 0 0 0) = some count ∧
      SendCount 0 (newChunk 0 0 0) count.toNat := by
  have none := @sendCount_none 0 0 0 [] _ rfl (filled_newChunk 0 0 0)
  refine ⟨rfl, ?_⟩
  rintro ⟨count, returned, -⟩
  rw [none] at returned
  cases returned

/-! ## The highest block of a column -/

/-- The heights of a sub-chunk's column with a block. -/
def column (air : Int32) (subChunk : SubChunk) (blockX blockZ layer : UInt8) : Set Nat :=
  {y | y < 16 ∧ getSubChunkBlockRuntimeId blockX (UInt8.ofNat y) blockZ layer subChunk ≠ some air}

/-- One block of the column: its index is 0 exactly where it is air. -/
theorem column_block (run : setBlocks (newChunk x z air) writes = some chunk) {index : Nat}
    {subChunk : SubChunk} (present : chunk.subChunks[index]? = some subChunk)
    {blockX blockZ layer : UInt8} (left : blockX.toNat < 16) (right : blockZ.toNat < 16)
    {blockStorage : BlockStorage}
    (stored : subChunk.blockStorages[layer.toNat]? = some blockStorage) {y : Nat} (low : y < 16) :
    ∃ block, blockStorage.blocks[blockIndex blockX (UInt8.ofNat y) blockZ]? = some block ∧
      (block ≠ 0 ↔ y ∈ column air subChunk blockX blockZ layer) := by
  obtain ⟨fits, refines⟩ := reached_refines run
  have part := refines.each index subChunk present
  have number : (UInt8.ofNat y).toNat = y :=
    UInt8.toNat_ofNat_of_lt' (by simp only [UInt8.size]; omega)
  have inside : Local blockX (UInt8.ofNat y) blockZ := ⟨left, by omega, right⟩
  have listed := (List.getElem?_eq_some_iff.mp stored).1
  have zero := (part.stores _ _ stored).cell_eq_zero_iff (cell inside)
  refine ⟨blockStorage.blocks[cell inside], Vector.getElem?_eq_getElem (blockIndex_lt inside), ?_⟩
  have read := getSubChunk_refines (fits index) part inside listed
  rw [column, Set.mem_ofPred_eq, read, and_iff_right low, ne_eq, ne_eq, Option.some.injEq, ← zero,
    indices, ← UInt32.toNat_zero, UInt32.toNat_inj]

theorem highestBelow_spec {blocks : Vector UInt32 blockStorageBlocksSize} {blockX blockZ : UInt8}
    {taken : Set Nat} {bound : Nat} :
    (∀ y < bound, ∃ block, blocks[blockIndex blockX (UInt8.ofNat y) blockZ]? = some block ∧
      (block ≠ 0 ↔ y ∈ taken)) →
      (highestBelow blockX blockZ blocks bound = some blockStorageEmpty.toInt8 ∧
          ∀ y < bound, y ∉ taken) ∨
        ∃ y < bound, highestBelow blockX blockZ blocks bound = some (Int8.ofNat y) ∧ y ∈ taken ∧
          ∀ other, y < other → other < bound → other ∉ taken := by
  induction bound with
  | zero => exact fun _ => Or.inl ⟨rfl, fun y below => nomatch below⟩
  | succ bound ih =>
    intro each
    obtain ⟨block, present, test⟩ := each bound (Nat.lt_succ_self bound)
    simp only [highestBelow, present, Option.bind_eq_bind, Option.bind_some]
    by_cases filled : block ≠ 0
    · rw [if_pos filled]
      exact Or.inr ⟨bound, Nat.lt_succ_self bound, rfl, test.mp filled,
        fun other lower upper => absurd upper (by omega)⟩
    · rw [if_neg filled]
      have last : bound ∉ taken := fun member => filled (test.mpr member)
      rcases ih fun y below => each y (Nat.lt_succ_of_lt below) with ⟨empty, none⟩ | ⟨y, below,
        result, member, above⟩
      · refine Or.inl ⟨empty, fun y upper => ?_⟩
        rcases Nat.lt_succ_iff_lt_or_eq.mp upper with lower | rfl
        · exact none y lower
        · exact last
      · refine Or.inr ⟨y, Nat.lt_succ_of_lt below, result, member, fun other lower upper => ?_⟩
        rcases Nat.lt_succ_iff_lt_or_eq.mp upper with inside | rfl
        · exact above other lower inside
        · exact last

/-- A turn goes on where the sub-chunk's column is air, or the layer is not
there. -/
theorem highestTurn_passes (run : setBlocks (newChunk x z air) writes = some chunk)
    {blockX blockZ layer : UInt8} {index : Nat}
    (empty : ∀ height, height / 16 = index → ¬NotAir air chunk blockX blockZ layer height) :
    Passes chunk.subChunks (highestTurn blockX blockZ layer) id index := by
  intro subChunk present state
  obtain ⟨-, layers, -, -⟩ := reached_subChunk run present
  have lowX : (blockX &&& 0x0f).toNat < 16 := by rw [low_toNat]; omega
  have lowZ : (blockZ &&& 0x0f).toNat < 16 := by rw [low_toNat]; omega
  by_cases there : layer.toNat < subChunk.blockStorages.length
  · have stored := List.getElem?_eq_getElem there
    have none : ∀ y < 16, y ∉ column air subChunk (blockX &&& 0x0f) (blockZ &&& 0x0f) layer := by
      rintro y low ⟨-, other⟩
      refine empty (16 * index + y) (by omega) ⟨subChunk, ?_, there, ?_⟩
      · rw [show (16 * index + y) / 16 = index by omega]
        exact present
      · rwa [show (16 * index + y) % 16 = y by omega]
    have searched := highestBelow_spec fun y low =>
      column_block run present lowX lowZ stored (y := y) low
    rcases searched with ⟨result, -⟩ | ⟨y, low, -, member, -⟩
    · simp only [highestTurn, getSubChunkHighestBlockAt, stored, getBlockStorageHighestBlockAt,
        result, Option.bind_eq_bind, Option.bind_some]
      rfl
    · exact absurd member (none y low)
  · have absent : subChunk.blockStorages[layer.toNat]? = none :=
      List.getElem?_eq_none (Nat.le_of_not_lt there)
    simp only [highestTurn, getSubChunkHighestBlockAt, absent, Option.bind_eq_bind,
      Option.bind_some]
    rfl

/-- The sum of the height in the sub-chunk and `i << 4`. -/
theorem height_sum (y : Fin 16) (index : Fin 25) :
    (Int8.ofNat y).toInt32 ≠ subChunkLayerNotPresent ∧
      (Int8.ofNat y).toInt32 ≠ blockStorageEmpty ∧
      ((Int8.ofNat y).toInt32 + ((UInt8.ofNat index).toUInt32 <<< 4).toInt32).toInt =
        ((16 * index.val + y.val : Nat) : Int) := by
  revert y index
  decide

theorem highest_greatest (run : setBlocks (newChunk x z air) writes = some chunk)
    {blockX blockZ layer : UInt8} {height : Nat}
    (greatest : IsGreatest {height | NotAir air chunk blockX blockZ layer height} height) :
    ∃ result, getChunkHighestBlockAt blockX blockZ layer chunk = some result ∧
      result.toInt = height := by
  obtain ⟨⟨subChunk, present, there, other⟩, above⟩ := greatest
  have bound := (reached_subChunk run present).1
  have lowX : (blockX &&& 0x0f).toNat < 16 := by rw [low_toNat]; omega
  have lowZ : (blockZ &&& 0x0f).toNat < 16 := by rw [low_toNat]; omega
  have stored := List.getElem?_eq_getElem there
  have member : height % 16 ∈ column air subChunk (blockX &&& 0x0f) (blockZ &&& 0x0f) layer :=
    ⟨by omega, other⟩
  have searched := highestBelow_spec fun y low =>
    column_block run present lowX lowZ stored (y := y) low
  -- The sub-chunk's search finds the greatest height: one above it would be above the column's.
  have found : getSubChunkHighestBlockAt (blockX &&& 0x0f) (blockZ &&& 0x0f) layer subChunk =
      some (Int8.ofNat (height % 16)) := by
    rw [getSubChunkHighestBlockAt, stored]
    rcases searched with ⟨-, none⟩ | ⟨y, low, result, ⟨_, held⟩, none⟩
    · exact absurd member (none _ (by omega))
    · have upper : ¬height % 16 > y := fun greater => none _ greater (by omega) member
      have below : 16 * (height / 16) + y ≤ height := by
        refine above ⟨subChunk, ?_, there, ?_⟩
        · rw [show (16 * (height / 16) + y) / 16 = height / 16 by omega]
          exact present
        · rwa [show (16 * (height / 16) + y) % 16 = y by omega]
      rw [show height % 16 = y by omega]
      exact result
  obtain ⟨layered, empty, sum⟩ :=
    height_sum ⟨height % 16, by omega⟩ ⟨height / 16, bound⟩
  have stopped : highestTurn blockX blockZ layer (UInt8.ofNat (height / 16)) subChunk
      (id^[24 - height / 16] ()) = some (.inr ((Int8.ofNat (height % 16)).toInt32 +
        ((UInt8.ofNat (height / 16)).toUInt32 <<< 4).toInt32)) := by
    simp only [highestTurn, found, Option.bind_eq_bind, Option.bind_some]
    rw [if_pos ⟨layered, empty⟩]
  have loop := downward_stops (Nat.le_of_lt_succ bound) (by decide)
    (by rw [chunk_length run]; decide)
    (fun index lower _ => highestTurn_passes run fun taller split held => by
      have below := above held
      omega) present (by decide : 24 < 256) stopped
  refine ⟨_, loop, sum.trans (congrArg Int.ofNat ?_)⟩
  exact Nat.div_add_mod height 16

theorem highest_none (run : setBlocks (newChunk x z air) writes = some chunk)
    {blockX blockZ layer : UInt8}
    (empty : ∀ height, ¬NotAir air chunk blockX blockZ layer height) :
    getChunkHighestBlockAt blockX blockZ layer chunk = none :=
  @downward_none _ _ _ chunk.subChunks (highestTurn blockX blockZ layer) id
    (by rw [chunk_length run]; decide) 24 (by decide)
    (fun _ _ => highestTurn_passes run fun height _ => empty height) 256 ()

/-- The search is right exactly where the column has a block on the layer:
elsewhere it leaves the sub-chunks, and `CHUNK_EMPTY` is not returned. -/
theorem highest_iff (run : setBlocks (newChunk x z air) writes = some chunk)
    (blockX blockZ layer : UInt8) :
    (∃ result, getChunkHighestBlockAt blockX blockZ layer chunk = some result ∧
        Highest air chunk blockX blockZ layer result) ↔
      ∃ blockY, layer.toNat ≤ 1 ∧
        getChunkBlockRuntimeId blockX blockY blockZ layer chunk ≠ some air := by
  constructor
  · rintro ⟨result, returned, -⟩
    by_contra clear
    have empty : ∀ height, ¬NotAir air chunk blockX blockZ layer height := by
      intro height other
      obtain ⟨blockY, -, held⟩ := (notAir_iff run).mp other
      exact clear ⟨blockY, held⟩
    rw [highest_none run empty] at returned
    cases returned
  · rintro ⟨blockY, held⟩
    have other := (notAir_at run).mpr held
    obtain ⟨height, greatest⟩ := BddAbove.exists_isGreatest_of_nonempty
      (S := {height | NotAir air chunk blockX blockZ layer height})
      ⟨256, fun height member => Nat.le_of_lt (notAir_small run member)⟩ ⟨_, other⟩
    obtain ⟨result, returned, value⟩ := highest_greatest run greatest
    exact ⟨result, returned, Or.inl ⟨height, value, greatest⟩⟩

theorem highest_iff_three :
    ∃ chunk, setBlocks (newChunk 0 0 5) threeWrites = some chunk ∧
      ((∃ result, getChunkHighestBlockAt 1 3 0 chunk = some result ∧
          Highest 5 chunk 1 3 0 result) ↔
        ∃ blockY, (0 : UInt8).toNat ≤ 1 ∧
          getChunkBlockRuntimeId 1 blockY 3 0 chunk ≠ some 5) := by
  obtain ⟨chunk, run, -⟩ := chunk_reads_written 0 0 5 threeWrites fun subChunk layer _ =>
    paletteFits_of_length (by decide) subChunk layer
  exact ⟨chunk, run, highest_iff run 1 3 0⟩

/-- The column of a new chunk is air, and its search does not return. -/
theorem highest_empty : setBlocks (newChunk 0 0 0) [] = some (newChunk 0 0 0) ∧
    ¬∃ result, getChunkHighestBlockAt 0 0 0 (newChunk 0 0 0) = some result ∧
      Highest 0 (newChunk 0 0 0) 0 0 0 result := by
  have run : setBlocks (newChunk 0 0 0) [] = some (newChunk 0 0 0) := rfl
  have empty : ∀ height, ¬NotAir 0 (newChunk 0 0 0) 0 0 0 height := by
    intro height other
    obtain ⟨subChunk, present, -⟩ := id other
    exact filled_newChunk 0 0 0
      ⟨_, subChunk, present, (holdsBlock_iff present).mpr ⟨0, 0, 0, height, rfl, other⟩⟩
  refine ⟨run, ?_⟩
  rintro ⟨result, returned, -⟩
  rw [highest_none run empty] at returned
  cases returned

end Reached

end PodrumWorld.ChunkScan
