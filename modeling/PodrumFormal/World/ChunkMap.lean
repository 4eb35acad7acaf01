import Mathlib.Data.List.Induction
import PodrumFormal.Lib.LastWrite
import PodrumFormal.World.Storage

/-!
# Chunks

A chunk is 25 sub-chunks of two layers, each a block storage.  Under every run
of writes it reads as the plain map from the column, the height and the layer.
-/

set_option autoImplicit false

namespace PodrumWorld.ChunkMap

open LastWrite Storage

/-! ## Sub-chunks -/

def subChunkLayerNotPresent : Int32 := -2

structure SubChunk where
  blockStorages : List BlockStorage

def newSubChunk (airRuntimeId : Int32) : SubChunk where
  blockStorages := List.replicate 2 (newBlockStorage airRuntimeId)

/-- `layer < block_storages_count` is the test of the list's length. -/
def getSubChunkBlockRuntimeId (x y z layer : UInt8) (subChunk : SubChunk) : Option Int32 :=
  match subChunk.blockStorages[layer.toNat]? with
  | some blockStorage => getBlockStorageBlockRuntimeId x y z blockStorage
  | none => some subChunkLayerNotPresent

def setSubChunkBlockRuntimeId (x y z : UInt8) (runtimeId : Int32) (layer : UInt8)
    (subChunk : SubChunk) : Option SubChunk :=
  match subChunk.blockStorages[layer.toNat]? with
  | some blockStorage => do
      let next ← setBlockStorageBlockRuntimeId x y z runtimeId blockStorage
      some { blockStorages := subChunk.blockStorages.set layer.toNat next }
  | none => some subChunk

/-! ## Chunks -/

def chunkSubChunkSize : Nat := 25

structure Chunk where
  x : Int32
  z : Int32
  subChunks : List SubChunk
  biomes : List BlockStorage

def newChunk (x z airRuntimeId : Int32) : Chunk where
  x := x
  z := z
  subChunks := List.replicate chunkSubChunkSize (newSubChunk airRuntimeId)
  biomes := List.replicate chunkSubChunkSize (newBlockStorage 1)

def getChunkBlockRuntimeId (x y z layer : UInt8) (chunk : Chunk) : Option Int32 := do
  let subChunk ← chunk.subChunks[(y >>> 4).toNat]?
  getSubChunkBlockRuntimeId (x &&& 0x0f) (y &&& 0x0f) (z &&& 0x0f) layer subChunk

def setChunkBlockRuntimeId (x y z : UInt8) (runtimeId : Int32) (layer : UInt8)
    (chunk : Chunk) : Option Chunk := do
  let subChunk ← chunk.subChunks[(y >>> 4).toNat]?
  let next ← setSubChunkBlockRuntimeId (x &&& 0x0f) (y &&& 0x0f) (z &&& 0x0f) runtimeId layer
    subChunk
  some { chunk with subChunks := chunk.subChunks.set (y >>> 4).toNat next }

structure BlockWrite where
  x : UInt8
  y : UInt8
  z : UInt8
  runtimeId : Int32
  layer : UInt8

def setBlocks (chunk : Chunk) (writes : List BlockWrite) : Option Chunk :=
  writes.foldlM
    (fun chunk write =>
      setChunkBlockRuntimeId write.x write.y write.z write.runtimeId write.layer chunk)
    chunk

/-! ## Places -/

/-- Column, height and layer: `(x mod 16, y, z mod 16, layer)`. -/
abbrev Place := Nat × Nat × Nat × Nat

def place (x y z layer : UInt8) : Place :=
  (x.toNat % 16, y.toNat, z.toNat % 16, layer.toNat)

/-- The place of a position in the block storage of a sub-chunk's layer. -/
def placeOf (subChunk layer : Nat) (position : Fin blockStorageBlocksSize) : Place :=
  (position.val / 256, 16 * subChunk + position.val % 16, position.val / 16 % 16, layer)

theorem low_toNat (value : UInt8) : (value &&& 0x0f).toNat = value.toNat % 16 := by
  rw [UInt8.toNat_and]
  exact Nat.and_two_pow_sub_one_eq_mod value.toNat 4

theorem high_toNat (value : UInt8) : (value >>> 4).toNat = value.toNat / 16 := by
  rw [UInt8.toNat_shiftRight]
  exact Nat.shiftRight_eq_div_pow value.toNat 4

theorem local_low (x y z : UInt8) : Local (x &&& 0x0f) (y &&& 0x0f) (z &&& 0x0f) := by
  refine ⟨?_, ?_, ?_⟩ <;> rw [low_toNat] <;> omega

theorem placeOf_eq_place (x y z layer : UInt8) (subChunk layerIndex : Nat)
    (position : Fin blockStorageBlocksSize) :
    placeOf subChunk layerIndex position = place x y z layer ↔
      subChunk = y.toNat / 16 ∧ layerIndex = layer.toNat ∧ position = cell (local_low x y z) := by
  have inside := local_low x y z
  have packed := blockIndex_eq inside.z inside.y (x := x &&& 0x0f)
  have bound : position.val < 4096 := position.isLt
  rw [low_toNat, low_toNat, low_toNat] at packed
  rw [Fin.ext_iff]
  simp only [placeOf, place, cell, Prod.mk.injEq, packed]
  constructor
  · rintro ⟨column, height, row, rfl⟩
    omega
  · rintro ⟨rfl, rfl, index⟩
    omega

/-! ## The chunk as a map of its places -/

/-- The ids that a layer of a sub-chunk may get, by sub-chunk and layer. -/
abbrev Allowed := Nat → Nat → List Int32

/-- The block storage of a layer reads as the part of `content` at its places. -/
def StoresPart (air : Int32) (allowed : Allowed) (content : Place → Int32)
    (subChunk layer : Nat) (blockStorage : BlockStorage) : Prop :=
  Represents air (allowed subChunk layer) blockStorage fun position =>
    content (placeOf subChunk layer position)

structure RefinesSubChunk (air : Int32) (allowed : Allowed) (content : Place → Int32)
    (index : Nat) (subChunk : SubChunk) : Prop where
  layers : subChunk.blockStorages.length = 2
  stores : ∀ layer blockStorage, subChunk.blockStorages[layer]? = some blockStorage →
    StoresPart air allowed content index layer blockStorage

structure Refines (air : Int32) (allowed : Allowed) (content : Place → Int32)
    (chunk : Chunk) : Prop where
  count : chunk.subChunks.length = chunkSubChunkSize
  each : ∀ index subChunk, chunk.subChunks[index]? = some subChunk →
    RefinesSubChunk air allowed content index subChunk

section Refinement

variable {air : Int32} {allowed : Allowed} {content : Place → Int32}

theorem storesPart_update {index layerIndex : Nat} {blockStorage : BlockStorage}
    (stores : StoresPart air allowed content index layerIndex blockStorage)
    {x y z layer : UInt8} (other : ¬(index = y.toNat / 16 ∧ layerIndex = layer.toNat))
    (runtimeId : Int32) :
    StoresPart air allowed (Function.update content (place x y z layer) runtimeId)
      index layerIndex blockStorage := by
  have same : (fun position => Function.update content (place x y z layer) runtimeId
      (placeOf index layerIndex position)) = fun position =>
        content (placeOf index layerIndex position) := by
    funext position
    apply Function.update_of_ne
    intro equal
    obtain ⟨first, second, -⟩ := (placeOf_eq_place x y z layer _ _ _).mp equal
    exact other ⟨first, second⟩
  rw [StoresPart, same]
  exact stores

theorem storesPart_write {x y z layer : UInt8} {blockStorage : BlockStorage}
    (fits : PaletteFits (allowed (y.toNat / 16) layer.toNat))
    (stores : StoresPart air allowed content (y.toNat / 16) layer.toNat blockStorage)
    {runtimeId : Int32} (member : runtimeId ∈ allowed (y.toNat / 16) layer.toNat) :
    ∃ next, setBlockStorageBlockRuntimeId (x &&& 0x0f) (y &&& 0x0f) (z &&& 0x0f) runtimeId
        blockStorage = some next ∧
      StoresPart air allowed (Function.update content (place x y z layer) runtimeId)
        (y.toNat / 16) layer.toNat next := by
  obtain ⟨next, success, represents⟩ :=
    set_of_represents stores fits (local_low x y z) member
  refine ⟨next, success, ?_⟩
  have moved : (fun position => Function.update content (place x y z layer) runtimeId
      (placeOf (y.toNat / 16) layer.toNat position)) =
      Function.update (fun position => content (placeOf (y.toNat / 16) layer.toNat position))
        (cell (local_low x y z)) runtimeId := by
    funext position
    have key := placeOf_eq_place x y z layer (y.toNat / 16) layer.toNat position
    by_cases here : position = cell (local_low x y z)
    · rw [key.mpr ⟨rfl, rfl, here⟩, Function.update_self, here, Function.update_self]
    · have there : placeOf (y.toNat / 16) layer.toNat position ≠ place x y z layer :=
        fun equal => here (key.mp equal).2.2
      rw [Function.update_of_ne there, Function.update_of_ne here]
  rw [StoresPart, moved]
  exact represents

theorem refinesSubChunk_update {index : Nat} {subChunk : SubChunk}
    (refines : RefinesSubChunk air allowed content index subChunk) {x y z layer : UInt8}
    (other : index ≠ y.toNat / 16) (runtimeId : Int32) :
    RefinesSubChunk air allowed (Function.update content (place x y z layer) runtimeId)
      index subChunk where
  layers := refines.layers
  stores layerIndex blockStorage found :=
    storesPart_update (refines.stores layerIndex blockStorage found)
      (fun same => other same.1) runtimeId

theorem setSubChunk_refines (fits : ∀ index layer, layer < 2 → PaletteFits (allowed index layer))
    {x y z layer : UInt8} {subChunk : SubChunk}
    (refines : RefinesSubChunk air allowed content (y.toNat / 16) subChunk) {runtimeId : Int32}
    (member : runtimeId ∈ allowed (y.toNat / 16) layer.toNat) :
    ∃ next, setSubChunkBlockRuntimeId (x &&& 0x0f) (y &&& 0x0f) (z &&& 0x0f) runtimeId layer
        subChunk = some next ∧
      RefinesSubChunk air allowed (Function.update content (place x y z layer) runtimeId)
        (y.toNat / 16) next := by
  unfold setSubChunkBlockRuntimeId
  cases present : subChunk.blockStorages[layer.toNat]? with
  | none =>
      refine ⟨subChunk, rfl, refines.layers, fun layerIndex blockStorage found => ?_⟩
      refine storesPart_update (refines.stores layerIndex blockStorage found) ?_ runtimeId
      rintro ⟨-, rfl⟩
      rw [present] at found
      cases found
  | some blockStorage =>
      have inside := (List.getElem?_eq_some_iff.mp present).1
      have kept : layer.toNat < 2 := refines.layers ▸ inside
      obtain ⟨next, success, stores⟩ :=
        storesPart_write (fits _ _ kept) (refines.stores _ _ present) member (x := x) (z := z)
      refine ⟨{ blockStorages := subChunk.blockStorages.set layer.toNat next }, ?_, ?_, ?_⟩
      · simp only [success, Option.bind_eq_bind, Option.bind_some]
      · rw [List.length_set]
        exact refines.layers
      · intro layerIndex found stored
        by_cases same : layer.toNat = layerIndex
        · subst same
          rw [List.getElem?_set_self inside] at stored
          cases stored
          exact stores
        · rw [List.getElem?_set_ne same] at stored
          exact storesPart_update (refines.stores _ _ stored) (fun both => same both.2.symm)
            runtimeId

theorem setChunk_refines (fits : ∀ index layer, layer < 2 → PaletteFits (allowed index layer))
    {chunk : Chunk} (refines : Refines air allowed content chunk) (write : BlockWrite)
    (member : write.runtimeId ∈ allowed (write.y.toNat / 16) write.layer.toNat) :
    ∃ after, setChunkBlockRuntimeId write.x write.y write.z write.runtimeId write.layer chunk =
        some after ∧
      Refines air allowed
        (Function.update content (place write.x write.y write.z write.layer) write.runtimeId)
        after := by
  have low : write.y.toNat < 256 := write.y.toNat_lt
  have bound : write.y.toNat / 16 < chunk.subChunks.length := by
    rw [refines.count, chunkSubChunkSize]
    omega
  have present := List.getElem?_eq_getElem bound
  obtain ⟨next, success, part⟩ :=
    setSubChunk_refines fits (refines.each _ _ present) member (x := write.x) (z := write.z)
  refine ⟨{ chunk with subChunks := chunk.subChunks.set (write.y.toNat / 16) next }, ?_, ?_, ?_⟩
  · simp only [setChunkBlockRuntimeId, high_toNat, present, success, Option.bind_eq_bind,
      Option.bind_some]
  · rw [List.length_set]
    exact refines.count
  · intro index found stored
    by_cases same : write.y.toNat / 16 = index
    · subst same
      rw [List.getElem?_set_self bound] at stored
      cases stored
      exact part
    · rw [List.getElem?_set_ne same] at stored
      exact refinesSubChunk_update (refines.each _ _ stored) (Ne.symm same) write.runtimeId

theorem getChunk_refines (fits : ∀ index layer, layer < 2 → PaletteFits (allowed index layer))
    {chunk : Chunk} (refines : Refines air allowed content chunk) (x y z layer : UInt8) :
    getChunkBlockRuntimeId x y z layer chunk =
      some (if layer.toNat ≤ 1 then content (place x y z layer) else subChunkLayerNotPresent) := by
  have low : y.toNat < 256 := y.toNat_lt
  have bound : y.toNat / 16 < chunk.subChunks.length := by
    rw [refines.count, chunkSubChunkSize]
    omega
  have present := List.getElem?_eq_getElem bound
  have part := refines.each _ _ present
  simp only [getChunkBlockRuntimeId, high_toNat, present, Option.bind_eq_bind, Option.bind_some,
    getSubChunkBlockRuntimeId]
  by_cases stored : layer.toNat ≤ 1
  · have inside : layer.toNat < chunk.subChunks[y.toNat / 16].blockStorages.length := by
      rw [part.layers]
      omega
    have found := List.getElem?_eq_getElem inside
    have value := get_of_represents (part.stores _ _ found) (fits _ _ (by omega)) (local_low x y z)
    have key := (placeOf_eq_place x y z layer (y.toNat / 16) layer.toNat _).mpr ⟨rfl, rfl, rfl⟩
    rw [found, if_pos stored]
    simp only
    rw [value, key]
  · have outside : chunk.subChunks[y.toNat / 16].blockStorages[layer.toNat]? = none := by
      rw [List.getElem?_eq_none_iff, part.layers]
      omega
    rw [outside, if_neg stored]

end Refinement

/-! ## Runs -/

/-- The air id and the ids written to a layer of a sub-chunk. -/
def allowedIds (air : Int32) (writes : List BlockWrite) : Allowed := fun subChunk layer =>
  air :: (writes.filter fun write =>
    write.y.toNat / 16 = subChunk ∧ write.layer.toNat = layer).map BlockWrite.runtimeId

def placedWrites (writes : List BlockWrite) : List (Place × Int32) :=
  writes.map fun write => (place write.x write.y write.z write.layer, write.runtimeId)

theorem mem_allowedIds (air : Int32) {writes : List BlockWrite} {write : BlockWrite}
    (member : write ∈ writes) :
    write.runtimeId ∈ allowedIds air writes (write.y.toNat / 16) write.layer.toNat := by
  apply List.mem_cons_of_mem
  apply List.mem_map_of_mem
  rw [List.mem_filter]
  exact ⟨member, by simp⟩

/-- Every run with fewer writes than a palette has room for. -/
theorem paletteFits_of_length {air : Int32} {writes : List BlockWrite}
    (short : writes.length + 1 < 2 ^ 31) (subChunk layer : Nat) :
    PaletteFits (allowedIds air writes subChunk layer) := by
  refine Nat.lt_of_le_of_lt (List.dedup_sublist _).length_le (Nat.lt_of_le_of_lt ?_ short)
  rw [allowedIds, List.length_cons, List.length_map]
  exact Nat.succ_le_succ (List.length_filter_le _ _)

theorem newChunk_refines {air : Int32} {allowed : Allowed}
    (member : ∀ index layer, air ∈ allowed index layer) (x z : Int32) :
    Refines air allowed (fun _ => air) (newChunk x z air) where
  count := List.length_replicate
  each index subChunk found := by
    obtain rfl := List.eq_of_mem_replicate (List.mem_of_getElem? found)
    refine ⟨List.length_replicate, fun layer blockStorage stored => ?_⟩
    obtain rfl := List.eq_of_mem_replicate (List.mem_of_getElem? stored)
    exact represents_new (member index layer)

theorem setBlocks_refines {air : Int32} {allowed : Allowed}
    (fits : ∀ index layer, layer < 2 → PaletteFits (allowed index layer))
    {writes : List BlockWrite} :
    ∀ {chunk : Chunk} {content : Place → Int32}, Refines air allowed content chunk →
      (∀ write ∈ writes, write.runtimeId ∈ allowed (write.y.toNat / 16) write.layer.toNat) →
      ∃ after, setBlocks chunk writes = some after ∧
        Refines air allowed (written content (placedWrites writes)) after := by
  induction writes with
  | nil =>
      intro chunk content refines _
      exact ⟨chunk, rfl, refines⟩
  | cons write writes ih =>
      intro chunk content refines members
      obtain ⟨member, members⟩ := List.forall_mem_cons.mp members
      obtain ⟨middle, first, refines⟩ := setChunk_refines fits refines write member
      obtain ⟨after, others, refines⟩ := ih refines members
      refine ⟨after, ?_, refines⟩
      rw [setBlocks, List.foldlM_cons, first]
      exact others

/-- Every index is inside the palette, whose entries are distinct and begin
with the air id. -/
structure WellFormedPalette (air : Int32) (blockStorage : BlockStorage) : Prop where
  inside : ∀ position : Fin blockStorageBlocksSize,
    indices blockStorage position < blockStorage.palette.length
  distinct : blockStorage.palette.Nodup
  air : blockStorage.palette.head? = some air

/-- Where no layer of a sub-chunk gets more ids than its palette has room for,
the run is defined and the chunk reads as the plain map of its places. -/
theorem chunk_reads_written (x z air : Int32) (writes : List BlockWrite)
    (fits : ∀ subChunk layer, layer < 2 → PaletteFits (allowedIds air writes subChunk layer)) :
    ∃ chunk, setBlocks (newChunk x z air) writes = some chunk ∧
      (∀ blockX blockY blockZ layer : UInt8,
        getChunkBlockRuntimeId blockX blockY blockZ layer chunk =
          some (if layer.toNat ≤ 1 then
            written (fun _ => air) (placedWrites writes) (place blockX blockY blockZ layer)
          else subChunkLayerNotPresent)) ∧
      ∀ subChunk ∈ chunk.subChunks, ∀ blockStorage ∈ subChunk.blockStorages,
        WellFormedPalette air blockStorage := by
  have start : Refines air (allowedIds air writes) (fun _ => air) (newChunk x z air) :=
    newChunk_refines (fun _ _ => List.mem_cons_self ..) x z
  obtain ⟨chunk, run, refines⟩ := setBlocks_refines fits start fun _ => mem_allowedIds air
  refine ⟨chunk, run, getChunk_refines fits refines, ?_⟩
  intro subChunk member blockStorage stored
  obtain ⟨index, found⟩ := List.mem_iff_getElem?.mp member
  obtain ⟨layer, kept⟩ := List.mem_iff_getElem?.mp stored
  have part := (refines.each index subChunk found).stores layer blockStorage kept
  exact ⟨part.cell_lt, part.nodup, part.first⟩

/-! ## A palette that overflows -/

def storageAt (chunk : Chunk) (index layer : Nat) : Option BlockStorage :=
  chunk.subChunks[index]?.bind fun subChunk => subChunk.blockStorages[layer]?

theorem setSubChunk_keeps {x y z layer : UInt8} {runtimeId : Int32} {subChunk next : SubChunk}
    (success : setSubChunkBlockRuntimeId x y z runtimeId layer subChunk = some next)
    {layerIndex : Nat} {blockStorage : BlockStorage}
    (stored : subChunk.blockStorages[layerIndex]? = some blockStorage) :
    ∃ after, next.blockStorages[layerIndex]? = some after ∧
      if layer.toNat = layerIndex then
        after.palette = Interning.intern blockStorage.palette runtimeId ∧
          after.palette.length < 2 ^ 31
      else after = blockStorage := by
  unfold setSubChunkBlockRuntimeId at success
  by_cases same : layer.toNat = layerIndex
  · subst same
    rw [stored] at success
    obtain ⟨after, set, success⟩ := Option.bind_eq_some_iff.mp success
    cases success
    have inside := (List.getElem?_eq_some_iff.mp stored).1
    refine ⟨after, List.getElem?_set_self inside, ?_⟩
    rw [if_pos rfl]
    exact set_palette set
  · refine ⟨blockStorage, ?_, by rw [if_neg same]⟩
    split at success
    · obtain ⟨after, set, success⟩ := Option.bind_eq_some_iff.mp success
      cases success
      rw [List.getElem?_set_ne same, stored]
    · cases success
      exact stored

theorem setChunk_keeps {chunk next : Chunk} {write : BlockWrite}
    (success : setChunkBlockRuntimeId write.x write.y write.z write.runtimeId write.layer chunk =
      some next) {index layerIndex : Nat} {blockStorage : BlockStorage}
    (held : storageAt chunk index layerIndex = some blockStorage) :
    ∃ after, storageAt next index layerIndex = some after ∧
      if write.y.toNat / 16 = index ∧ write.layer.toNat = layerIndex then
        after.palette = Interning.intern blockStorage.palette write.runtimeId ∧
          after.palette.length < 2 ^ 31
      else after = blockStorage := by
  obtain ⟨subChunk, present, stored⟩ := Option.bind_eq_some_iff.mp held
  obtain ⟨written, found, success⟩ := Option.bind_eq_some_iff.mp success
  obtain ⟨after, set, success⟩ := Option.bind_eq_some_iff.mp success
  cases success
  rw [high_toNat] at found
  have inside := (List.getElem?_eq_some_iff.mp found).1
  by_cases same : write.y.toNat / 16 = index
  · subst same
    rw [present] at found
    cases found
    obtain ⟨last, kept, change⟩ := setSubChunk_keeps set stored
    refine ⟨last, ?_, ?_⟩
    · rw [storageAt, high_toNat, List.getElem?_set_self inside]
      exact kept
    · simpa using change
  · refine ⟨blockStorage, ?_, ?_⟩
    · rw [storageAt, high_toNat, List.getElem?_set_ne same, present]
      exact stored
    · rw [if_neg fun both => same both.1]

/-- After a run that is defined, a palette has all ids that its layer got. -/
theorem setBlocks_palette {x z air : Int32} {writes : List BlockWrite} {subChunk layer : Nat}
    (inside : subChunk < chunkSubChunkSize) (stored : layer < 2) :
    ∀ {chunk : Chunk}, setBlocks (newChunk x z air) writes = some chunk →
      ∃ blockStorage, storageAt chunk subChunk layer = some blockStorage ∧
        allowedIds air writes subChunk layer ⊆ blockStorage.palette ∧
        blockStorage.palette.length < 2 ^ 31 := by
  induction writes using List.reverseRecOn with
  | nil =>
      intro chunk run
      cases run
      refine ⟨newBlockStorage air, ?_, List.Subset.refl _, show 1 < 2 ^ 31 by decide⟩
      rw [storageAt, newChunk, List.getElem?_replicate, if_pos inside, Option.bind_some,
        newSubChunk, List.getElem?_replicate, if_pos stored]
  | append_singleton writes write ih =>
      intro chunk run
      rw [setBlocks, List.foldlM_append] at run
      obtain ⟨middle, before, run⟩ := Option.bind_eq_some_iff.mp run
      obtain ⟨last, success, run⟩ := Option.bind_eq_some_iff.mp run
      cases run
      obtain ⟨blockStorage, found, covered, small⟩ := ih before
      obtain ⟨after, kept, change⟩ := setChunk_keeps success found
      refine ⟨after, kept, ?_⟩
      by_cases here : write.y.toNat / 16 = subChunk ∧ write.layer.toNat = layer
      · rw [if_pos here] at change
        refine ⟨?_, change.2⟩
        have grown : allowedIds air (writes ++ [write]) subChunk layer =
            allowedIds air writes subChunk layer ++ [write.runtimeId] := by
          simp [allowedIds, List.filter_append, here]
        rw [grown, change.1]
        apply List.append_subset.mpr
        refine ⟨fun id member => ?_, List.cons_subset.mpr ⟨?_, List.nil_subset _⟩⟩
        · exact (Interning.prefix_intern _ _).subset (covered member)
        · exact Interning.mem_intern _ _
      · rw [if_neg here] at change
        have kept : allowedIds air (writes ++ [write]) subChunk layer =
            allowedIds air writes subChunk layer := by
          simp only [allowedIds, List.filter_append, List.filter_singleton]
          simp [here]
        rw [kept, change]
        exact ⟨covered, small⟩

/-- So no run gives a layer more ids than its palette has room for. -/
theorem paletteFits_of_run {x z air : Int32} {writes : List BlockWrite} {chunk : Chunk}
    (run : setBlocks (newChunk x z air) writes = some chunk) (subChunk layer : Nat)
    (inside : subChunk < chunkSubChunkSize) (stored : layer < 2) :
    PaletteFits (allowedIds air writes subChunk layer) := by
  obtain ⟨blockStorage, -, covered, small⟩ := setBlocks_palette inside stored run
  have dedup : (allowedIds air writes subChunk layer).dedup ⊆ blockStorage.palette :=
    fun id member => covered (List.mem_dedup.mp member)
  exact Nat.lt_of_le_of_lt (List.subperm_of_subset (List.nodup_dedup _) dedup).length_le small

/-- Two writes to one block, and one to another layer. -/
def threeWrites : List BlockWrite :=
  [⟨17, 40, 3, 9, 0⟩, ⟨1, 40, 19, 7, 0⟩, ⟨1, 40, 3, 9, 1⟩]

theorem chunk_reads_written_three :
    ∃ chunk, setBlocks (newChunk 0 0 5) threeWrites = some chunk ∧
      (∀ blockX blockY blockZ layer : UInt8,
        getChunkBlockRuntimeId blockX blockY blockZ layer chunk =
          some (if layer.toNat ≤ 1 then
            written (fun _ => 5) (placedWrites threeWrites) (place blockX blockY blockZ layer)
          else subChunkLayerNotPresent)) ∧
      ∀ subChunk ∈ chunk.subChunks, ∀ blockStorage ∈ subChunk.blockStorages,
        WellFormedPalette 5 blockStorage :=
  chunk_reads_written 0 0 5 threeWrites fun subChunk layer _ =>
    paletteFits_of_length (by decide) subChunk layer

/-- One block gets the ids from 1 to `count`. -/
def countingWrites (count : Nat) : List BlockWrite :=
  (List.range count).map fun id => ⟨0, 0, 0, Int32.ofNat (id + 1), 0⟩

theorem ofNat_mem_counting {count id : Nat} (bound : id < count + 1) :
    Int32.ofNat id ∈ allowedIds 0 (countingWrites count) 0 0 := by
  cases id with
  | zero => exact List.mem_cons_self ..
  | succ id =>
      have written : (⟨0, 0, 0, Int32.ofNat (id + 1), 0⟩ : BlockWrite) ∈ countingWrites count :=
        List.mem_map.mpr ⟨id, List.mem_range.mpr (by omega), rfl⟩
      simpa using mem_allowedIds 0 written

theorem countingWrites_overflow :
    setBlocks (newChunk 0 0 0) (countingWrites (2 ^ 31 - 1)) = none := by
  rw [Option.eq_none_iff_forall_ne_some]
  intro chunk run
  have fits := paletteFits_of_run run 0 0 (by decide) (by decide)
  have distinct : ((List.range (2 ^ 31)).map Int32.ofNat).Nodup := by
    apply List.nodup_range.map_on
    intro first below second above same
    rw [← Int32.toInt_inj, Int32.toInt_ofNat_of_lt (List.mem_range.mp below),
      Int32.toInt_ofNat_of_lt (List.mem_range.mp above)] at same
    exact Int.ofNat.inj same
  have covered : (List.range (2 ^ 31)).map Int32.ofNat ⊆
      (allowedIds 0 (countingWrites (2 ^ 31 - 1)) 0 0).dedup := by
    intro id member
    obtain ⟨number, bound, rfl⟩ := List.mem_map.mp member
    exact List.mem_dedup.mpr (ofNat_mem_counting (List.mem_range.mp bound))
  have length := (List.subperm_of_subset distinct covered).length_le
  rw [List.length_map, List.length_range] at length
  exact absurd fits (Nat.not_lt.mpr length)

end PodrumWorld.ChunkMap
