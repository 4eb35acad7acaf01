import PodrumFormal.Lib.ByteWriter
import PodrumFormal.Lib.EventRun
import PodrumFormal.Minecraft.BlockStorageWords
import PodrumFormal.Minecraft.Misc
import PodrumFormal.World.ChunkScan

/-!
# Chunks on the wire

`send_chunk` counts the sub-chunks up to the last one with a block, writes the
storages of those and of all biomes, and wraps them in a LEVEL_CHUNK packet.
What is read back has every block and every biome of the chunk.
-/

set_option autoImplicit false

namespace PodrumMinecraft.LevelChunk

open ByteReader ByteWriter EventRun PodrumStream.BinaryStream PodrumStream.VarInt
open PodrumMinecraft.Misc PodrumMinecraft.BlockStorageWords PodrumWorld.Storage
open PodrumWorld.ChunkMap PodrumWorld.ChunkScan

/-! ## Writing -/

def subChunkVersion : UInt8 := 8

def putMiscSubChunk (value : SubChunk) : Option (List UInt8) :=
  joined ([some (putUnsignedByte subChunkVersion),
    some (putUnsignedByte (UInt8.ofNat value.blockStorages.length)),
    some (putUnsignedByte 0), putCount putMiscBlockStorage value.blockStorages])

/-- `none` also where an index is past the array. -/
def putMiscChunk (value : Chunk) (subChunkCount : UInt32) : Option (List UInt8) :=
  joined [
    putCount (fun i => value.subChunks[i]?.bind putMiscSubChunk)
      (List.range subChunkCount.toNat),
    putCount (fun i => value.biomes[i]?.bind putMiscBlockStorage) (List.range 25)]

/-- `highestSubchunkCount` and `hashes` are written under their conditions
only. -/
structure PacketLevelChunk where
  x : Int32
  z : Int32
  subChunkCount : UInt32
  highestSubchunkCount : UInt16 := 0
  cacheEnabled : UInt8
  hashes : List UInt64 := []
  payload : List UInt8

def idLevelChunk : UInt32 := 0x3a

def putPacketLevelChunk (packet : PacketLevelChunk) : List UInt8 :=
  putVarInt idLevelChunk ++ putSignedVarInt packet.x ++ putSignedVarInt packet.z ++
    putVarInt packet.subChunkCount ++
    (if packet.subChunkCount = 0xfffffffe then putUnsignedShortLe packet.highestSubchunkCount
      else []) ++
    putUnsignedByte packet.cacheEnabled ++
    (if packet.cacheEnabled ≠ 0 then
      putVarInt (UInt32.ofNat packet.hashes.length) ++ packet.hashes.flatMap putUnsignedLongLe
      else []) ++
    putMiscByteArrayVarInt packet.payload

/-- The packet that `send_chunk` sends. -/
def sendChunk (chunk : Chunk) : Option (List UInt8) := do
  let subChunkCount ← getChunkSubChunkSendCount chunk
  let payload ← putMiscChunk chunk subChunkCount
  pure (putPacketLevelChunk
    { x := chunk.x, z := chunk.z, subChunkCount, cacheEnabled := 0, payload })

/-! ## Biomes -/

def getChunkBiomeRuntimeId (x y z : UInt8) (chunk : Chunk) : Option Int32 := do
  let biome ← chunk.biomes[(y >>> 4).toNat]?
  getBlockStorageBlockRuntimeId (x &&& 0x0f) (y &&& 0x0f) (z &&& 0x0f) biome

def setChunkBiomeRuntimeId (x y z : UInt8) (runtimeId : Int32) (chunk : Chunk) :
    Option Chunk := do
  let biome ← chunk.biomes[(y >>> 4).toNat]?
  let next ← setBlockStorageBlockRuntimeId (x &&& 0x0f) (y &&& 0x0f) (z &&& 0x0f) runtimeId biome
  some { chunk with biomes := chunk.biomes.set (y >>> 4).toNat next }

inductive ChunkWrite where
  | block (write : BlockWrite)
  | biome (x y z : UInt8) (runtimeId : Int32)

def writeStep (chunk : Chunk) : ChunkWrite → Option Chunk
  | .block write =>
      setChunkBlockRuntimeId write.x write.y write.z write.runtimeId write.layer chunk
  | .biome x y z runtimeId => setChunkBiomeRuntimeId x y z runtimeId chunk

/-! ## Reading -/

/-- The id at a place: its block is a place in the palette. -/
def runtimeIdAt (x y z : UInt8) (wire : WireStorage) : Option Int32 := do
  let index ← wire.block (blockIndex x y z)
  wire.palette[index]?

structure WireChunk where
  x : Int32
  z : Int32
  subChunks : List (List WireStorage)
  biomes : List WireStorage

/-- The sub-chunks above those that were sent are air. -/
def WireChunk.blockAt (air : Int32) (x y z layer : UInt8) (wire : WireChunk) : Option Int32 :=
  match wire.subChunks[(y >>> 4).toNat]? with
  | some storages =>
      storages[layer.toNat]?.bind (runtimeIdAt (x &&& 0x0f) (y &&& 0x0f) (z &&& 0x0f))
  | none => some air

def WireChunk.biomeAt (x y z : UInt8) (wire : WireChunk) : Option Int32 :=
  wire.biomes[(y >>> 4).toNat]?.bind (runtimeIdAt (x &&& 0x0f) (y &&& 0x0f) (z &&& 0x0f))

/-- A value that has to be there. -/
def expect {α : Type} [DecidableEq α] (reader : Reader α) (value : α) : Reader Unit := do
  let found ← reader
  if found = value then pure () else fun _ => none

def getSubChunk : Reader (List WireStorage) := do
  expect getUnsignedByte subChunkVersion
  let count ← getUnsignedByte
  expect getUnsignedByte 0
  readCount getWireStorage count.toNat

def getChunk (subChunkCount : Nat) : Reader (List (List WireStorage) × List WireStorage) := do
  let subChunks ← readCount getSubChunk subChunkCount
  let biomes ← readCount getWireStorage 25
  pure (subChunks, biomes)

def getPacketLevelChunk : Reader PacketLevelChunk := do
  expect getVarInt idLevelChunk
  let x ← getSignedVarInt
  let z ← getSignedVarInt
  let subChunkCount ← getVarInt
  let highestSubchunkCount ← readWhen (subChunkCount = 0xfffffffe) getUnsignedShortLe 0
  let cacheEnabled ← getUnsignedByte
  let hashes ← readWhen (cacheEnabled ≠ 0) (do
    let hashesCount ← getVarInt
    readCount getUnsignedLongLe hashesCount.toNat) []
  let payload ← getMiscByteArrayVarInt
  pure { x, z, subChunkCount, highestSubchunkCount, cacheEnabled, hashes, payload }

/-- The payload is taken up to its last byte. -/
def getLevelChunk : Reader WireChunk := do
  let packet ← getPacketLevelChunk
  match getChunk packet.subChunkCount.toNat packet.payload with
  | some ((subChunks, biomes), []) => pure ⟨packet.x, packet.z, subChunks, biomes⟩
  | _ => fun _ => none

theorem reads_expect {α : Type} [DecidableEq α] {reader : Reader α} {bytes : List UInt8} {value : α}
    (reads : Reads reader bytes value) : Reads (expect reader value) bytes () := by
  refine reads.bind_pure ?_
  rw [if_pos rfl]
  exact Reads.pure ()

/-- What a LEVEL_CHUNK packet says, the fields it leaves out apart. -/
theorem reads_packetLevelChunk (packet : PacketLevelChunk) (short : packet.payload.length < 2 ^ 32)
    (fewer : packet.hashes.length < 2 ^ 32) :
    Reads getPacketLevelChunk (putPacketLevelChunk packet)
      { packet with
        highestSubchunkCount :=
          if packet.subChunkCount = 0xfffffffe then packet.highestSubchunkCount else 0
        hashes := if packet.cacheEnabled ≠ 0 then packet.hashes else [] } := by
  have hashesRead : Reads (do
      let hashesCount ← getVarInt
      readCount getUnsignedLongLe hashesCount.toNat)
      (putVarInt (UInt32.ofNat packet.hashes.length) ++ packet.hashes.flatMap putUnsignedLongLe)
      packet.hashes := by
    apply (reads_varInt _).bind
    have each := @Reads.count _ _ _ _ id packet.hashes fun hash _ => reads_unsignedLongLe hash
    rw [List.map_id] at each
    rwa [UInt32.toNat_ofNat_of_lt' fewer]
  have highest := Reads.readWhen (packet.subChunkCount = 0xfffffffe) 0 fun _ =>
    reads_unsignedShortLe packet.highestSubchunkCount
  have cached := Reads.readWhen (packet.cacheEnabled ≠ 0) [] fun _ => hashesRead
  simp only [decide_eq_true_eq] at highest cached
  simp only [putPacketLevelChunk, List.append_assoc]
  refine (reads_expect (reads_varInt idLevelChunk)).bind ?_
  refine (reads_signedVarInt packet.x).bind ((reads_signedVarInt packet.z).bind ?_)
  refine (reads_varInt packet.subChunkCount).bind (highest.bind ?_)
  refine (reads_unsignedByte packet.cacheEnabled).bind (cached.bind ?_)
  exact (reads_byteArrayVarInt short).bind_pure (Reads.pure _)

/-! ## One storage -/

/-- The bytes of a storage with the largest palette. -/
def storageBound : Nat := 1 + 4 * blockStorageBlocksSize + 5 + 5 * 65536

/-- Every block reads as it does in the storage. -/
def SameBlocks (blockStorage : BlockStorage) (wire : WireStorage) : Prop :=
  ∀ x y z, Local x y z →
    runtimeIdAt x y z wire = getBlockStorageBlockRuntimeId x y z blockStorage

theorem putSignedVarInt_length_le (value : Int32) : (putSignedVarInt value).length ≤ 5 := by
  have fits : ∀ raw : UInt32, (putVarInt raw).length ≤ 5 := fun raw =>
    Base128.putGroups_length_le 5 (fits_varInt raw) (by decide)
  exact fits _

theorem flatMap_length_le {α : Type} {encode : α → List UInt8} {bound : Nat}
    (each : ∀ value, (encode value).length ≤ bound) (values : List α) :
    (values.flatMap encode).length ≤ bound * values.length := by
  induction values with
  | nil => exact Nat.zero_le _
  | cons value values ih =>
      have head := each value
      rw [List.flatMap_cons, List.length_append, List.length_cons, Nat.mul_succ]
      omega

theorem wireStorage_length {wire : WireStorage} (words : wire.words.length ≤ blockStorageBlocksSize)
    (small : wire.palette.length ≤ 65536) : wire.bytes.length ≤ storageBound := by
  have wordBytes : (wire.words.flatMap putUnsignedIntLe).length ≤ 4 * wire.words.length :=
    flatMap_length_le (fun _ => Nat.le_of_eq (Endian.littleBytes_length 4 _)) wire.words
  have sizeBytes := putSignedVarInt_length_le (Int32.ofNat wire.palette.length)
  have paletteBytes := flatMap_length_le putSignedVarInt_length_le wire.palette
  have total : wire.bytes.length ≤ 1 + 4 * blockStorageBlocksSize + 5 + 5 * 65536 := by
    rw [WireStorage.bytes, List.length_append, List.length_append, List.length_append,
      putUnsignedByte, List.length_singleton]
    generalize blockStorageBlocksSize = size at words ⊢
    omega
  exact total

section Storage

variable {blockStorage : BlockStorage}

/-- A block is read where its index is inside the palette. -/
theorem getBlockStorage_inside (inside : IndicesInside blockStorage) {x y z : UInt8}
    (bounds : Local x y z) :
    getBlockStorageBlockRuntimeId x y z blockStorage =
      blockStorage.palette[indices blockStorage (cell bounds)]? := by
  have small : indices blockStorage (cell bounds) < 2 ^ 31 :=
    Nat.lt_trans (inside.index (cell bounds)) inside.size
  have block : blockStorage.blocks[blockIndex x y z]? = some (blockStorage.blocks[cell bounds]) :=
    Vector.getElem?_eq_getElem (blockIndex_lt bounds)
  rw [getBlockStorageBlockRuntimeId, block]
  simp only [Option.bind_eq_bind, Option.bind_some]
  rw [toInt32_small small, if_pos (Int.natCast_nonneg _), Int.toNat_natCast]
  rfl

theorem cells_fit (inside : IndicesInside blockStorage) {version : BitArray}
    (wide : blockStorage.palette.length ≤ 2 ^ version.bits) :
    BitFields.Fits version.bits (cells blockStorage.blocks) := by
  intro value member
  obtain ⟨position, bound, same⟩ := List.getElem_of_mem member
  rw [cells_length] at bound
  obtain ⟨_, state⟩ := @cells_getElem blockStorage.blocks _ bound
  rw [← same, state]
  exact Nat.lt_of_lt_of_le (inside.index ⟨position, bound⟩) wide

/-- The storage in the layout of its version. -/
def wireOf (version : BitArray) (blockStorage : BlockStorage) : WireStorage where
  version := UInt8.ofNat (version.bits <<< 1 ||| 1)
  words := fillWords version blockStorage.blocks version.words 0
  palette := blockStorage.palette

theorem wireOf_bits (version : BitArray) : (wireOf version blockStorage).bits = version.bits := by
  rw [WireStorage.bits, wireOf, version.versionByte]
  omega

theorem wireOf_blocks (version : BitArray) :
    (wireOf version blockStorage).blocks = version.blocks := by
  rw [WireStorage.blocks, wireOf_bits, version.dense]

theorem wireOf_sameBlocks (inside : IndicesInside blockStorage) {version : BitArray}
    (wide : blockStorage.palette.length ≤ 2 ^ version.bits) :
    SameBlocks blockStorage (wireOf version blockStorage) := by
  intro x y z bounds
  obtain ⟨word, present, field⟩ := fillWords_field (cells_fit inside wide) (cell bounds)
  have block : (wireOf version blockStorage).block (blockIndex x y z) =
      some (indices blockStorage (cell bounds)) := by
    rw [WireStorage.block, wireOf_blocks, wireOf_bits,
      show (wireOf version blockStorage).words[blockIndex x y z / version.blocks]? = some word
        from present]
    exact congrArg some field
  rw [runtimeIdAt, block, getBlockStorage_inside inside bounds]
  rfl

theorem words_le (version : BitArray) : version.words ≤ blockStorageBlocksSize := by
  have tight := version.tight
  have fewer : version.words - 1 ≤ version.blocks * (version.words - 1) :=
    Nat.le_mul_of_pos_left _ version.blocks_positive
  omega

theorem storage_conveys (inside : IndicesInside blockStorage)
    (small : blockStorage.palette.length ≤ 65536) :
    Conveys (putMiscBlockStorage blockStorage) getWireStorage (SameBlocks blockStorage)
      storageBound := by
  have positive : 0 < blockStorage.palette.length :=
    Nat.zero_lt_of_lt (inside.index ⟨0, by decide⟩)
  obtain ⟨version, chosen, wide⟩ := versionOf_some positive small
  have words : (wireOf version blockStorage).words.length = version.words :=
    fillWords_length version version.words 0
  refine ⟨(wireOf version blockStorage).bytes, wireOf version blockStorage, ?_, ?_,
    wireOf_sameBlocks inside wide, wireStorage_length (words ▸ words_le version) small⟩
  · rw [putMiscBlockStorage, chosen]
    rfl
  · refine reads_wireStorage inside.size ?_
    rw [wireOf_blocks, ← version.words_eq]
    exact words

end Storage

/-! ## A reached chunk -/

/-- So many writes have left the palette small. -/
structure StorageInside (writes : Nat) (blockStorage : BlockStorage) : Prop
    extends IndicesInside blockStorage where
  palette : blockStorage.palette.length ≤ writes + 1

structure ChunkInside (writes : Nat) (chunk : Chunk) : Prop where
  subChunks : chunk.subChunks.length = chunkSubChunkSize
  biomes : chunk.biomes.length = chunkSubChunkSize
  layers : ∀ subChunk ∈ chunk.subChunks, subChunk.blockStorages.length = 2
  stored : ∀ subChunk ∈ chunk.subChunks, ∀ blockStorage ∈ subChunk.blockStorages,
    StorageInside writes blockStorage
  planes : ∀ biome ∈ chunk.biomes, StorageInside writes biome

section Reached

variable {writes : Nat} {chunk next : Chunk} {blockStorage after : BlockStorage}

theorem StorageInside.more (inside : StorageInside writes blockStorage) :
    StorageInside (writes + 1) blockStorage :=
  ⟨inside.toIndicesInside, Nat.le_succ_of_le inside.palette⟩

theorem StorageInside.set (inside : StorageInside writes blockStorage) {x y z : UInt8}
    {runtimeId : Int32}
    (success : setBlockStorageBlockRuntimeId x y z runtimeId blockStorage = some after) :
    StorageInside (writes + 1) after := by
  refine ⟨indicesInside_set inside.toIndicesInside success, ?_⟩
  have before := inside.palette
  rw [(set_palette success).1]
  by_cases present : runtimeId ∈ blockStorage.palette
  · rw [Interning.intern_of_mem present]
    exact Nat.le_succ_of_le before
  · rw [Interning.intern_of_not_mem present, List.length_append, List.length_singleton]
    exact Nat.succ_le_succ before

theorem chunkInside_new (x z air : Int32) : ChunkInside 0 (newChunk x z air) where
  subChunks := List.length_replicate
  biomes := List.length_replicate
  layers subChunk member := by
    obtain rfl := List.eq_of_mem_replicate member
    exact List.length_replicate
  stored subChunk member blockStorage stored := by
    obtain rfl := List.eq_of_mem_replicate member
    obtain rfl := List.eq_of_mem_replicate stored
    exact ⟨indicesInside_new air, Nat.le_refl 1⟩
  planes biome member := by
    obtain rfl := List.eq_of_mem_replicate member
    exact ⟨indicesInside_new 1, Nat.le_refl 1⟩

theorem setSubChunk_inside {x y z layer : UInt8} {runtimeId : Int32} {subChunk changed : SubChunk}
    (layers : subChunk.blockStorages.length = 2)
    (stored : ∀ blockStorage ∈ subChunk.blockStorages, StorageInside writes blockStorage)
    (success : setSubChunkBlockRuntimeId x y z runtimeId layer subChunk = some changed) :
    changed.blockStorages.length = 2 ∧
      ∀ blockStorage ∈ changed.blockStorages, StorageInside (writes + 1) blockStorage := by
  unfold setSubChunkBlockRuntimeId at success
  split at success
  · rename_i blockStorage present
    obtain ⟨after, set, success⟩ := Option.bind_eq_some_iff.mp success
    cases success
    refine ⟨by rw [List.length_set, layers], fun other member => ?_⟩
    rcases List.mem_or_eq_of_mem_set member with old | rfl
    · exact (stored other old).more
    · exact (stored blockStorage (List.mem_of_getElem? present)).set set
  · cases success
    exact ⟨layers, fun other member => (stored other member).more⟩

/-- One write makes each palette at most one longer. -/
theorem writeStep_inside (inside : ChunkInside writes chunk) {write : ChunkWrite}
    (stepped : writeStep chunk write = some next) : ChunkInside (writes + 1) next := by
  cases write with
  | block write =>
      obtain ⟨subChunk, present, stepped⟩ := Option.bind_eq_some_iff.mp stepped
      obtain ⟨changed, set, stepped⟩ := Option.bind_eq_some_iff.mp stepped
      cases stepped
      have member := List.mem_of_getElem? present
      obtain ⟨layers, stored⟩ :=
        setSubChunk_inside (inside.layers subChunk member) (inside.stored subChunk member) set
      refine ⟨by rw [List.length_set, inside.subChunks], inside.biomes, fun other listed => ?_,
        fun other listed blockStorage held => ?_, fun biome listed => (inside.planes biome listed).more⟩
      · rcases List.mem_or_eq_of_mem_set listed with old | rfl
        · exact inside.layers other old
        · exact layers
      · rcases List.mem_or_eq_of_mem_set listed with old | rfl
        · exact (inside.stored other old blockStorage held).more
        · exact stored blockStorage held
  | biome x y z runtimeId =>
      obtain ⟨biome, present, stepped⟩ := Option.bind_eq_some_iff.mp stepped
      obtain ⟨changed, set, stepped⟩ := Option.bind_eq_some_iff.mp stepped
      cases stepped
      refine ⟨inside.subChunks, by rw [List.length_set, inside.biomes], inside.layers,
        fun other listed blockStorage held => (inside.stored other listed blockStorage held).more,
        fun other listed => ?_⟩
      rcases List.mem_or_eq_of_mem_set listed with old | rfl
      · exact (inside.planes other old).more
      · exact (inside.planes biome (List.mem_of_getElem? present)).set set

theorem run_inside {x z air : Int32} {writes : List ChunkWrite}
    (reached : run writeStep writes (newChunk x z air) = some chunk) :
    ChunkInside writes.length chunk := by
  refine run_induction (fun history state => ChunkInside history.length state)
    (chunkInside_new x z air) ?_ reached
  intro history state write after _ inside stepped
  rw [List.length_append, List.length_singleton]
  exact writeStep_inside inside stepped

/-! ## Blocks and biomes do not meet -/

theorem run_map_block (writes : List BlockWrite) (start : Chunk) :
    run writeStep (writes.map .block) start = setBlocks start writes := by
  induction writes generalizing start with
  | nil => rfl
  | cons write writes ih =>
      rw [List.map_cons, run, setBlocks, List.foldlM_cons]
      exact congrArg (Option.bind _) (funext fun next => ih next)

def blockWrites (writes : List ChunkWrite) : List BlockWrite :=
  writes.filterMap fun
    | .block write => some write
    | .biome _ _ _ _ => none

/-- The blocks of a run are those of its block writes. -/
theorem run_blocks {start : Chunk} {writes : List ChunkWrite}
    (reached : run writeStep writes start = some chunk) :
    ∃ blocks, setBlocks start (blockWrites writes) = some blocks ∧
      blocks.subChunks = chunk.subChunks ∧ chunk.x = start.x ∧ chunk.z = start.z := by
  refine run_induction (fun history state => ∃ blocks,
    setBlocks start (blockWrites history) = some blocks ∧ blocks.subChunks = state.subChunks ∧
      state.x = start.x ∧ state.z = start.z) ⟨start, rfl, rfl, rfl, rfl⟩ ?_ reached
  rintro history state write after _ ⟨blocks, before, same, sameX, sameZ⟩ stepped
  cases write with
  | block write =>
      obtain ⟨subChunk, present, stepped⟩ := Option.bind_eq_some_iff.mp stepped
      obtain ⟨changed, set, stepped⟩ := Option.bind_eq_some_iff.mp stepped
      cases stepped
      have again : setChunkBlockRuntimeId write.x write.y write.z write.runtimeId write.layer
          blocks = some
            { blocks with subChunks := state.subChunks.set (write.y >>> 4).toNat changed } := by
        rw [setChunkBlockRuntimeId, same, present]
        simp only [Option.bind_eq_bind, Option.bind_some, set]
      refine ⟨{ blocks with subChunks := state.subChunks.set (write.y >>> 4).toNat changed }, ?_, rfl,
        sameX, sameZ⟩
      have both : blockWrites (history ++ [.block write]) = blockWrites history ++ [write] :=
        List.filterMap_append
      rw [both, setBlocks, List.foldlM_append, ← setBlocks, before]
      simp only [Option.bind_eq_bind, Option.bind_some, List.foldlM_cons, List.foldlM_nil, again]
      rfl
  | biome x y z runtimeId =>
      obtain ⟨biome, present, stepped⟩ := Option.bind_eq_some_iff.mp stepped
      obtain ⟨changed, set, stepped⟩ := Option.bind_eq_some_iff.mp stepped
      cases stepped
      have both : blockWrites (history ++ [.biome x y z runtimeId]) = blockWrites history := by
        rw [blockWrites, List.filterMap_append]
        exact List.append_nil _
      exact ⟨blocks, both ▸ before, same, sameX, sameZ⟩

end Reached

/-! ## A chunk that is sent -/

theorem forall₂_getElem? {α β : Type} {relates : α → β → Prop} {left : List α} {right : List β}
    (related : List.Forall₂ relates left right) {position : Nat} {value : α}
    (present : left[position]? = some value) :
    ∃ other, right[position]? = some other ∧ relates value other := by
  induction related generalizing position with
  | nil => cases present
  | cons head tail ih =>
      cases position with
      | zero =>
          cases present
          exact ⟨_, rfl, head⟩
      | succ position => exact ih present

section Sent

variable {writes : Nat} {chunk : Chunk}

def SameSubChunk (chunk : Chunk) (i : Nat) (storages : List WireStorage) : Prop :=
  ∃ subChunk, chunk.subChunks[i]? = some subChunk ∧
    List.Forall₂ SameBlocks subChunk.blockStorages storages

def SameBiome (chunk : Chunk) (i : Nat) (wire : WireStorage) : Prop :=
  ∃ biome, chunk.biomes[i]? = some biome ∧ SameBlocks biome wire

theorem stored_conveys {blockStorage : BlockStorage} (inside : StorageInside writes blockStorage)
    (short : writes < 65536) :
    Conveys (putMiscBlockStorage blockStorage) getWireStorage (SameBlocks blockStorage)
      storageBound :=
  storage_conveys inside.toIndicesInside (Nat.le_trans inside.palette short)

theorem subChunk_conveys {subChunk : SubChunk} (layers : subChunk.blockStorages.length = 2)
    (stored : ∀ blockStorage ∈ subChunk.blockStorages, StorageInside writes blockStorage)
    (short : writes < 65536) :
    Conveys (putMiscSubChunk subChunk) getSubChunk
      (List.Forall₂ SameBlocks subChunk.blockStorages) (1 + (1 + (1 + 2 * storageBound))) := by
  have storages := Conveys.count fun blockStorage member =>
    stored_conveys (stored blockStorage member) short
  have counted : (UInt8.ofNat subChunk.blockStorages.length).toNat =
      subChunk.blockStorages.length := by
    rw [layers]
    rfl
  refine .cons (.fixed (reads_expect (reads_unsignedByte _)) (Nat.le_refl 1)) fun _ _ => ?_
  refine .cons (.fixed (reads_unsignedByte _) (Nat.le_refl 1)) fun count same => ?_
  refine .cons (.fixed (reads_expect (reads_unsignedByte _)) (Nat.le_refl 1)) fun _ _ => ?_
  rw [same, counted, ← layers]
  exact storages.last

theorem chunk_conveys (inside : ChunkInside writes chunk) (short : writes < 65536)
    {subChunkCount : UInt32} (fewer : subChunkCount.toNat ≤ 25) :
    Conveys (putMiscChunk chunk subChunkCount) (getChunk subChunkCount.toNat)
      (fun read => List.Forall₂ (SameSubChunk chunk) (List.range subChunkCount.toNat) read.1 ∧
        List.Forall₂ (SameBiome chunk) (List.range 25) read.2)
      (25 * (3 + 3 * storageBound)) := by
  have subChunks : Conveys
      (putCount (fun i => chunk.subChunks[i]?.bind putMiscSubChunk)
        (List.range subChunkCount.toNat))
      (readCount getSubChunk (List.range subChunkCount.toNat).length)
      (List.Forall₂ (SameSubChunk chunk) (List.range subChunkCount.toNat))
      ((List.range subChunkCount.toNat).length * (1 + (1 + (1 + 2 * storageBound)))) := by
    refine Conveys.count fun i member => ?_
    have bound : i < chunk.subChunks.length := by
      rw [inside.subChunks, chunkSubChunkSize]
      exact Nat.lt_of_lt_of_le (List.mem_range.mp member) fewer
    have present := List.getElem?_eq_getElem bound
    have listed := List.getElem_mem bound
    rw [present, Option.bind_some]
    exact (subChunk_conveys (inside.layers _ listed) (inside.stored _ listed) short).mono
      (fun _ same => ⟨_, present, same⟩) (Nat.le_refl _)
  have biomes : Conveys
      (putCount (fun i => chunk.biomes[i]?.bind putMiscBlockStorage) (List.range 25))
      (readCount getWireStorage (List.range 25).length)
      (List.Forall₂ (SameBiome chunk) (List.range 25)) ((List.range 25).length * storageBound) := by
    refine Conveys.count fun i member => ?_
    have bound : i < chunk.biomes.length := by
      rw [inside.biomes, chunkSubChunkSize]
      exact List.mem_range.mp member
    have present := List.getElem?_eq_getElem bound
    rw [present, Option.bind_some]
    exact (stored_conveys (inside.planes _ (List.getElem_mem bound)) short).mono
      (fun _ same => ⟨_, present, same⟩) (Nat.le_refl _)
  rw [List.length_range] at subChunks biomes
  have both : Conveys (putMiscChunk chunk subChunkCount) (getChunk subChunkCount.toNat)
      (fun read => List.Forall₂ (SameSubChunk chunk) (List.range subChunkCount.toNat) read.1 ∧
        List.Forall₂ (SameBiome chunk) (List.range 25) read.2)
      (subChunkCount.toNat * (1 + (1 + (1 + 2 * storageBound))) + (25 * storageBound + 0)) :=
    .cons subChunks fun _ sameSubChunks => .cons biomes fun _ sameBiomes =>
      .nil ⟨sameSubChunks, sameBiomes⟩
  refine both.mono (fun _ held => held) ?_
  have most := Nat.mul_le_mul_right (1 + (1 + (1 + 2 * storageBound))) fewer
  omega

end Sent

/-! ## What is read back -/

section Whole

variable {x z air : Int32} {writes : List ChunkWrite} {chunk blocks : Chunk}

theorem getChunk_subChunks (same : blocks.subChunks = chunk.subChunks)
    (blockX blockY blockZ layer : UInt8) :
    getChunkBlockRuntimeId blockX blockY blockZ layer blocks =
      getChunkBlockRuntimeId blockX blockY blockZ layer chunk := by
  rw [getChunkBlockRuntimeId, same]
  rfl

/-- The count reaches up to the last sub-chunk with a block. -/
theorem sendCount_reached (reached : run writeStep writes (newChunk x z air) = some chunk)
    (present : ∃ blockX blockY blockZ layer : UInt8, layer.toNat ≤ 1 ∧
      getChunkBlockRuntimeId blockX blockY blockZ layer chunk ≠ some air) :
    ∃ count, getChunkSubChunkSendCount chunk = some count ∧ count.toNat ≤ 25 ∧
      ∀ blockX blockY blockZ layer : UInt8, layer.toNat ≤ 1 → count.toNat ≤ blockY.toNat / 16 →
        getChunkBlockRuntimeId blockX blockY blockZ layer chunk = some air := by
  obtain ⟨blocks, before, same, -, -⟩ := run_blocks reached
  simp only [← getChunk_subChunks same] at present ⊢
  have sameCount : getChunkSubChunkSendCount chunk = getChunkSubChunkSendCount blocks := by
    rw [getChunkSubChunkSendCount, ← same]
    rfl
  obtain ⟨index, greatest⟩ := filled_greatest before ((filled_iff before).mpr present)
  obtain ⟨subChunk, found, -⟩ := id greatest.1
  have bound := (reached_subChunk before found).1
  have counted : (UInt32.ofNat (index + 1)).toNat = index + 1 :=
    UInt32.toNat_ofNat_of_lt' (by simp only [UInt32.size]; omega)
  refine ⟨UInt32.ofNat (index + 1), sameCount.trans (sendCount_greatest before greatest), ?_, ?_⟩
  · rw [counted]
    exact bound
  · intro blockX blockY blockZ layer stored above
    rw [counted] at above
    by_contra other
    have held := (notAir_at before).mpr ⟨stored, other⟩
    obtain ⟨subChunk, there, -⟩ := id held
    have listed := greatest.2 ⟨subChunk, there, (holdsBlock_iff there).mpr
      ⟨blockX, blockZ, layer, blockY.toNat, rfl, held⟩⟩
    omega

/-- A chunk of air only is not sent. -/
theorem sendChunk_air (reached : run writeStep writes (newChunk x z air) = some chunk)
    (empty : ¬∃ blockX blockY blockZ layer : UInt8, layer.toNat ≤ 1 ∧
      getChunkBlockRuntimeId blockX blockY blockZ layer chunk ≠ some air) :
    sendChunk chunk = none := by
  obtain ⟨blocks, before, same, -, -⟩ := run_blocks reached
  have sameCount : getChunkSubChunkSendCount chunk = getChunkSubChunkSendCount blocks := by
    rw [getChunkSubChunkSendCount, ← same]
    rfl
  simp only [← getChunk_subChunks same, ← filled_iff before] at empty
  rw [sendChunk, sameCount, sendCount_none before empty]
  rfl

theorem blockAt_sent {wire : WireChunk} {count : Nat} (inside : ChunkInside writes.length chunk)
    (same : List.Forall₂ (SameSubChunk chunk) (List.range count) wire.subChunks)
    {blockX blockY blockZ layer : UInt8} (stored : layer.toNat ≤ 1)
    (below : blockY.toNat / 16 < count) :
    wire.blockAt air blockX blockY blockZ layer =
      getChunkBlockRuntimeId blockX blockY blockZ layer chunk := by
  have listed : (List.range count)[blockY.toNat / 16]? = some (blockY.toNat / 16) :=
    List.getElem?_range below
  obtain ⟨storages, sent, subChunk, present, each⟩ := forall₂_getElem? same listed
  have layers := inside.layers subChunk (List.mem_of_getElem? present)
  have stored : layer.toNat < subChunk.blockStorages.length := by omega
  have storage := List.getElem?_eq_getElem stored
  obtain ⟨held, there, blocks⟩ := forall₂_getElem? each storage
  rw [WireChunk.blockAt, getChunkBlockRuntimeId, high_toNat, sent, present]
  simp only [Option.bind_eq_bind, Option.bind_some, getSubChunkBlockRuntimeId, storage, there]
  exact blocks _ _ _ (local_low blockX blockY blockZ)

theorem biomeAt_sent {wire : WireChunk}
    (same : List.Forall₂ (SameBiome chunk) (List.range 25) wire.biomes)
    (blockX blockY blockZ : UInt8) :
    wire.biomeAt blockX blockY blockZ = getChunkBiomeRuntimeId blockX blockY blockZ chunk := by
  have low := blockY.toNat_lt
  have listed : (List.range 25)[blockY.toNat / 16]? = some (blockY.toNat / 16) :=
    List.getElem?_range (by omega)
  obtain ⟨held, sent, biome, present, blocks⟩ := forall₂_getElem? same listed
  rw [WireChunk.biomeAt, getChunkBiomeRuntimeId, high_toNat, sent, present]
  simp only [Option.bind_eq_bind, Option.bind_some]
  exact blocks _ _ _ (local_low blockX blockY blockZ)

end Whole

/-- The packet has the chunk's position, blocks and biomes. -/
structure Recovers (air : Int32) (chunk : Chunk) (wire : WireChunk) : Prop where
  x : wire.x = chunk.x
  z : wire.z = chunk.z
  blocks : ∀ blockX blockY blockZ layer : UInt8, layer.toNat ≤ 1 →
    wire.blockAt air blockX blockY blockZ layer =
      getChunkBlockRuntimeId blockX blockY blockZ layer chunk
  biomes : ∀ blockX blockY blockZ : UInt8,
    wire.biomeAt blockX blockY blockZ = getChunkBiomeRuntimeId blockX blockY blockZ chunk

theorem sendChunk_wire {x z air : Int32} {writes : List ChunkWrite} {chunk : Chunk}
    (reached : run writeStep writes (newChunk x z air) = some chunk)
    (short : writes.length < 65536)
    (present : ∃ blockX blockY blockZ layer : UInt8, layer.toNat ≤ 1 ∧
      getChunkBlockRuntimeId blockX blockY blockZ layer chunk ≠ some air) :
    ∃ bytes wire, sendChunk chunk = some bytes ∧ Reads getLevelChunk bytes wire ∧
      Recovers air chunk wire := by
  have inside := run_inside reached
  obtain ⟨count, counted, fewer, above⟩ := sendCount_reached reached present
  obtain ⟨payload, ⟨subChunks, biomes⟩, put, reads, ⟨sameSubChunks, sameBiomes⟩, length⟩ :=
    chunk_conveys inside short fewer
  let packet : PacketLevelChunk :=
    { x := chunk.x, z := chunk.z, subChunkCount := count, cacheEnabled := 0, payload }
  have packetRead := reads_packetLevelChunk packet
    (Nat.lt_of_le_of_lt length (by decide)) (Nat.two_pow_pos 32)
  refine ⟨putPacketLevelChunk packet, ⟨chunk.x, chunk.z, subChunks, biomes⟩, ?_, ?_, rfl, rfl, ?_,
    biomeAt_sent sameBiomes⟩
  · rw [sendChunk, counted, Option.bind_eq_bind, Option.bind_some, put]
    rfl
  · refine packetRead.bind_pure ?_
    simp only [packet, reads.apply_nil]
    exact Reads.pure _
  · intro blockX blockY blockZ layer stored
    rcases Nat.lt_or_ge (blockY.toNat / 16) count.toNat with below | past
    · exact blockAt_sent inside sameSubChunks stored below
    · have none : subChunks[(blockY >>> 4).toNat]? = none := by
        rw [high_toNat]
        exact List.getElem?_eq_none (by rw [← sameSubChunks.length_eq, List.length_range]; exact past)
      rw [WireChunk.blockAt, none, above blockX blockY blockZ layer stored past]

/-- A chunk is sent where it is not all air, and its packet then has every
block and every biome of it. -/
theorem sendChunk_recovers (x z air : Int32) (writes : List ChunkWrite) (chunk : Chunk)
    (reached : run writeStep writes (newChunk x z air) = some chunk)
    (short : writes.length < 65536) :
    ((∃ bytes, sendChunk chunk = some bytes) ↔
      ∃ blockX blockY blockZ layer : UInt8, layer.toNat ≤ 1 ∧
        getChunkBlockRuntimeId blockX blockY blockZ layer chunk ≠ some air) ∧
    ∀ bytes, sendChunk chunk = some bytes →
      ∃ wire, Reads getLevelChunk bytes wire ∧ wire.x = x ∧ wire.z = z ∧
        (∀ blockX blockY blockZ layer : UInt8, layer.toNat ≤ 1 →
          wire.blockAt air blockX blockY blockZ layer =
            getChunkBlockRuntimeId blockX blockY blockZ layer chunk) ∧
        ∀ blockX blockY blockZ : UInt8,
          wire.biomeAt blockX blockY blockZ =
            getChunkBiomeRuntimeId blockX blockY blockZ chunk := by
  obtain ⟨-, -, -, sameX, sameZ⟩ := run_blocks reached
  have sent : (∃ bytes, sendChunk chunk = some bytes) →
      ∃ blockX blockY blockZ layer : UInt8, layer.toNat ≤ 1 ∧
        getChunkBlockRuntimeId blockX blockY blockZ layer chunk ≠ some air := by
    rintro ⟨bytes, success⟩
    by_contra empty
    rw [sendChunk_air reached empty] at success
    cases success
  refine ⟨⟨sent, fun present => ?_⟩, fun bytes success => ?_⟩
  · obtain ⟨bytes, -, success, -⟩ := sendChunk_wire reached short present
    exact ⟨bytes, success⟩
  · obtain ⟨found, wire, same, reads, recovers⟩ :=
      sendChunk_wire reached short (sent ⟨bytes, success⟩)
    obtain rfl := Option.some.inj (same.symm.trans success)
    exact ⟨wire, reads, recovers.x.trans sameX, recovers.z.trans sameZ, recovers.blocks,
      recovers.biomes⟩

/-- Two blocks, a block written over and a biome. -/
def fourWrites : List ChunkWrite :=
  [.block ⟨17, 40, 3, 9, 0⟩, .block ⟨1, 40, 3, 7, 0⟩, .block ⟨2, 200, 3, 7, 1⟩, .biome 5 6 7 11]

theorem sendChunk_recovers_four :
    ∃ chunk, run writeStep fourWrites (newChunk 3 (-4) 5) = some chunk ∧
      ((∃ bytes, sendChunk chunk = some bytes) ↔
        ∃ blockX blockY blockZ layer : UInt8, layer.toNat ≤ 1 ∧
          getChunkBlockRuntimeId blockX blockY blockZ layer chunk ≠ some 5) ∧
      ∀ bytes, sendChunk chunk = some bytes →
        ∃ wire, Reads getLevelChunk bytes wire ∧ wire.x = 3 ∧ wire.z = -4 ∧
          (∀ blockX blockY blockZ layer : UInt8, layer.toNat ≤ 1 →
            wire.blockAt 5 blockX blockY blockZ layer =
              getChunkBlockRuntimeId blockX blockY blockZ layer chunk) ∧
          ∀ blockX blockY blockZ : UInt8,
            wire.biomeAt blockX blockY blockZ =
              getChunkBiomeRuntimeId blockX blockY blockZ chunk := by
  obtain ⟨chunk, reached⟩ : ∃ chunk, run writeStep fourWrites (newChunk 3 (-4) 5) = some chunk :=
    ⟨_, rfl⟩
  exact ⟨chunk, reached, sendChunk_recovers 3 (-4) 5 fourWrites chunk reached (by decide)⟩

end PodrumMinecraft.LevelChunk
