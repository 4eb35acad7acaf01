import Mathlib.Data.Nat.Log
import PodrumFormal.Lib.BitFields
import PodrumFormal.Stream.VarInt
import PodrumFormal.World.Storage

/-!
# The words of a block storage

`put_misc_block_storage` picks one of eight layouts by the size of the palette,
packs the 4096 indices into 32-bit words, and writes the palette behind them.
-/

set_option autoImplicit false

namespace PodrumMinecraft.BlockStorageWords

open BitFields ByteReader Interning PodrumStream.BinaryStream PodrumStream.VarInt
open PodrumWorld.Storage

/-- A layout: the bits of a block, the blocks of a word and the words, which
are as many as the blocks need. -/
structure BitArray where
  bits : Nat
  blocks : Nat
  words : Nat
  positive : 0 < bits
  dense : blocks = 32 / bits
  covers : blockStorageBlocksSize ≤ blocks * words
  tight : blocks * (words - 1) < blockStorageBlocksSize

def bitarrayV1 : BitArray := ⟨1, 32, 128, by decide, by decide, by decide, by decide⟩

def bitarrayV2 : BitArray := ⟨2, 16, 256, by decide, by decide, by decide, by decide⟩

def bitarrayV3 : BitArray := ⟨3, 10, 410, by decide, by decide, by decide, by decide⟩

def bitarrayV4 : BitArray := ⟨4, 8, 512, by decide, by decide, by decide, by decide⟩

def bitarrayV5 : BitArray := ⟨5, 6, 683, by decide, by decide, by decide, by decide⟩

def bitarrayV6 : BitArray := ⟨6, 5, 820, by decide, by decide, by decide, by decide⟩

def bitarrayV8 : BitArray := ⟨8, 4, 1024, by decide, by decide, by decide, by decide⟩

def bitarrayV16 : BitArray := ⟨16, 2, 2048, by decide, by decide, by decide, by decide⟩

/-- The layout for `ceil(log2(palette_size))`.  An empty palette has no
logarithm, and its layout is never set. -/
def versionOf (paletteSize : Nat) : Option BitArray :=
  let bitsPerBlock := Nat.clog 2 paletteSize
  if paletteSize = 0 then none
  else if bitsPerBlock = 0 ∨ bitsPerBlock = 1 then some bitarrayV1
  else if bitsPerBlock = 2 then some bitarrayV2
  else if bitsPerBlock = 3 then some bitarrayV3
  else if bitsPerBlock = 4 then some bitarrayV4
  else if bitsPerBlock = 5 then some bitarrayV5
  else if bitsPerBlock = 6 then some bitarrayV6
  else if bitsPerBlock = 7 ∨ bitsPerBlock = 8 then some bitarrayV8
  else some bitarrayV16

/-- The inner loop from `ii` on: the word it leaves, and the position. -/
def fillWord (version : BitArray) (blocks : Vector UInt32 blockStorageBlocksSize) :
    Nat → Nat → UInt32 → Nat → UInt32 × Nat
  | 0, _, word, position => (word, position)
  | turns + 1, ii, word, position =>
    if inside : position < blockStorageBlocksSize then
      let state := blocks[position]
      fillWord version blocks turns (ii + 1)
        (word ||| state <<< UInt32.ofNat (version.bits * ii)) (position + 1)
    else (word, position)

/-- The outer loop: the words from a position on. -/
def fillWords (version : BitArray) (blocks : Vector UInt32 blockStorageBlocksSize) :
    Nat → Nat → List UInt32
  | 0, _ => []
  | turns + 1, position =>
    let (word, next) := fillWord version blocks version.blocks 0 0 position
    word :: fillWords version blocks turns next

/-- `none` reads the layout that was never set. -/
def putMiscBlockStorage (value : BlockStorage) : Option (List UInt8) := do
  let version ← versionOf value.palette.length
  pure (putUnsignedByte (UInt8.ofNat (version.bits <<< 1 ||| 1)) ++
    (fillWords version value.blocks version.words 0).flatMap putUnsignedIntLe ++
    putSignedVarInt (Int32.ofNat value.palette.length) ++
    value.palette.flatMap putSignedVarInt)

/-! ## The layout holds every index -/

namespace BitArray

variable (version : BitArray)

theorem fits : version.bits * version.blocks ≤ 32 := by
  rw [version.dense]
  exact Nat.mul_div_le 32 version.bits

theorem blocks_positive : 0 < version.blocks := by
  refine Nat.pos_of_ne_zero fun none => ?_
  have covers := version.covers
  rw [none, Nat.zero_mul] at covers
  cases covers

theorem words_eq : version.words =
    (blockStorageBlocksSize + version.blocks - 1) / version.blocks := by
  have positive := version.blocks_positive
  have covers := version.covers
  have tight := version.tight
  have some : version.words ≠ 0 := fun none => by
    rw [none, Nat.mul_zero] at covers
    cases covers
  obtain ⟨before, same⟩ := Nat.exists_eq_succ_of_ne_zero some
  rw [same] at covers tight ⊢
  rw [Nat.succ_sub_one] at tight
  rw [Nat.mul_succ] at covers
  symm
  rw [Nat.div_eq_iff positive, Nat.succ_mul, Nat.mul_comm before]
  omega

/-- The version byte names the bits above its lowest bit. -/
theorem versionByte : (UInt8.ofNat (version.bits <<< 1 ||| 1)).toNat = 2 * version.bits + 1 := by
  have small : version.bits ≤ 32 :=
    Nat.le_trans (Nat.le_mul_of_pos_right _ version.blocks_positive) version.fits
  have joined : version.bits <<< 1 ||| 1 = 2 * version.bits + 1 := by
    rw [← Nat.shiftLeft_add_eq_or_of_lt (i := 1) (by decide), Nat.shiftLeft_eq]
    omega
  rw [joined, UInt8.toNat_ofNat_of_lt']
  simp only [UInt8.size]
  omega

end BitArray

theorem versionOf_some {paletteSize : Nat} (positive : 0 < paletteSize)
    (small : paletteSize ≤ 65536) :
    ∃ version, versionOf paletteSize = some version ∧ paletteSize ≤ 2 ^ version.bits := by
  have reached : paletteSize ≤ 2 ^ Nat.clog 2 paletteSize := Nat.le_pow_clog (by decide) _
  have widens : ∀ bits, Nat.clog 2 paletteSize ≤ bits → paletteSize ≤ 2 ^ bits :=
    fun bits enough => Nat.le_trans reached (Nat.pow_le_pow_right (by decide) enough)
  unfold versionOf
  rw [if_neg (Nat.ne_of_gt positive)]
  split
  · exact ⟨_, rfl, widens 1 (by omega)⟩
  split
  · exact ⟨_, rfl, widens 2 (by omega)⟩
  split
  · exact ⟨_, rfl, widens 3 (by omega)⟩
  split
  · exact ⟨_, rfl, widens 4 (by omega)⟩
  split
  · exact ⟨_, rfl, widens 5 (by omega)⟩
  split
  · exact ⟨_, rfl, widens 6 (by omega)⟩
  split
  · exact ⟨_, rfl, widens 8 (by omega)⟩
  · exact ⟨_, rfl, small⟩

/-! ## The loops pack the indices in order -/

section Loops

variable {version : BitArray} {blocks : Vector UInt32 blockStorageBlocksSize}

def cells (blocks : Vector UInt32 blockStorageBlocksSize) : List Nat :=
  blocks.toList.map UInt32.toNat

theorem cells_length : (cells blocks).length = blockStorageBlocksSize := by
  rw [cells, List.length_map, Vector.length_toList]

theorem cells_getElem {position : Nat} (inside : position < blockStorageBlocksSize) :
    ∃ listed : position < (cells blocks).length,
      (cells blocks)[position] = blocks[position].toNat := by
  refine ⟨by rwa [cells_length], ?_⟩
  simp only [cells, List.getElem_map, Vector.getElem_toList]

/-- A block that fits is shifted inside its word. -/
theorem shifted_toNat {state : UInt32} {ii : Nat} (small : state.toNat < 2 ^ version.bits)
    (inside : ii < version.blocks) :
    (state <<< UInt32.ofNat (version.bits * ii)).toNat = state.toNat <<< (version.bits * ii) := by
  have room : version.bits * (ii + 1) ≤ 32 :=
    Nat.le_trans (Nat.mul_le_mul_left _ inside) version.fits
  have positive := version.positive
  rw [Nat.mul_succ] at room
  have shift : (UInt32.ofNat (version.bits * ii)).toNat = version.bits * ii :=
    UInt32.toNat_ofNat_of_lt' (by simp only [UInt32.size]; omega)
  have below : state.toNat <<< (version.bits * ii) < 2 ^ 32 := by
    have power : 2 ^ version.bits * 2 ^ (version.bits * ii) ≤ 2 ^ 32 := by
      rw [← Nat.pow_add]
      exact Nat.pow_le_pow_right (by decide) (by omega)
    rw [Nat.shiftLeft_eq]
    exact Nat.lt_of_lt_of_le (Nat.mul_lt_mul_of_pos_right small (Nat.two_pow_pos _)) power
  rw [UInt32.toNat_shiftLeft, shift, Nat.mod_eq_of_lt (by omega : version.bits * ii < 32),
    Nat.mod_eq_of_lt below]

theorem fillWord_packs (fits : Fits version.bits (cells blocks)) (turns : Nat) :
    ∀ {done : List Nat} {word : UInt32} {position : Nat}, Fits version.bits done →
      done.length + turns ≤ version.blocks → word.toNat = packed version.bits done →
      position ≤ blockStorageBlocksSize →
      (fillWord version blocks turns done.length word position).1.toNat =
          packed version.bits (done ++ ((cells blocks).drop position).take turns) ∧
        (fillWord version blocks turns done.length word position).2 =
          min (position + turns) blockStorageBlocksSize := by
  induction turns with
  | zero =>
    intro done word position _ _ held below
    rw [fillWord, List.take_zero, List.append_nil]
    exact ⟨held, (Nat.min_eq_left below).symm⟩
  | succ turns ih =>
    intro done word position doneFits room held below
    by_cases inside : position < blockStorageBlocksSize
    · obtain ⟨listed, state⟩ := @cells_getElem blocks _ inside
      have small : blocks[position].toNat < 2 ^ version.bits := by
        rw [← state]
        exact fits _ (List.getElem_mem listed)
      have more : Fits version.bits (done ++ [blocks[position].toNat]) := by
        intro value member
        rcases List.mem_append.mp member with old | new
        · exact doneFits value old
        · rwa [List.mem_singleton.mp new]
      have length : (done ++ [blocks[position].toNat]).length = done.length + 1 :=
        List.length_append
      have joined : (word ||| blocks[position] <<<
          UInt32.ofNat (version.bits * done.length)).toNat =
            packed version.bits (done ++ [blocks[position].toNat]) := by
        rw [UInt32.toNat_or, shifted_toNat small (by omega), held, packed_snoc doneFits]
      have step := ih more (by omega) joined (Nat.succ_le_of_lt inside)
      rw [length] at step
      rw [fillWord, dif_pos inside, List.drop_eq_getElem_cons listed, List.take_succ_cons,
        state, List.append_cons, show position + (turns + 1) = position + 1 + turns by omega]
      exact step
    · have last : (cells blocks).drop position = [] :=
        List.drop_eq_nil_of_le (by rw [cells_length]; omega)
      rw [fillWord, dif_neg inside, last, List.take_nil, List.append_nil]
      exact ⟨held, by omega⟩

/-- The fields of one word, from a position on. -/
def fields (version : BitArray) (blocks : Vector UInt32 blockStorageBlocksSize)
    (position : Nat) : List Nat := ((cells blocks).drop position).take version.blocks

theorem fillWords_length (version : BitArray) (turns : Nat) :
    ∀ position, (fillWords version blocks turns position).length = turns := by
  induction turns with
  | zero => intro position; rfl
  | succ turns ih => intro position; rw [fillWords, List.length_cons, ih]

theorem fillWords_packs (fits : Fits version.bits (cells blocks)) (turns : Nat) :
    ∀ {position : Nat}, position ≤ blockStorageBlocksSize → ∀ {index : Nat}, index < turns →
      ∃ word, (fillWords version blocks turns position)[index]? = some word ∧
        word.toNat =
          packed version.bits (fields version blocks (position + version.blocks * index)) := by
  induction turns with
  | zero => intro position _ index inside; cases inside
  | succ turns ih =>
    intro position below index inside
    obtain ⟨word, next⟩ := @fillWord_packs _ _ fits version.blocks [] 0 position
      (fun _ member => nomatch member) (Nat.le_of_eq (Nat.zero_add _)) rfl below
    rw [fillWords]
    cases index with
    | zero => exact ⟨_, rfl, word⟩
    | succ index =>
      obtain ⟨found, present, value⟩ :=
        @ih _ (Nat.min_le_right (position + version.blocks) _) index
          (Nat.lt_of_succ_lt_succ inside)
      rw [List.length_nil] at next
      refine ⟨found, ?_, ?_⟩
      · rw [List.getElem?_cons_succ, next]
        exact present
      · rw [value, Nat.mul_succ]
        congr 1
        -- Behind the last block both positions leave no field.
        rcases Nat.le_total (position + version.blocks) blockStorageBlocksSize with early | late
        · rw [Nat.min_eq_left early]
          congr 1
          omega
        · rw [Nat.min_eq_right late, fields, fields, List.drop_eq_nil_of_le,
            List.drop_eq_nil_of_le]
          · rw [cells_length]; omega
          · rw [cells_length]; omega

/-- The word and the field of a block. -/
theorem fillWords_field {blockStorage : BlockStorage}
    (fits : Fits version.bits (cells blockStorage.blocks))
    (position : Fin blockStorageBlocksSize) :
    ∃ word, (fillWords version blockStorage.blocks version.words 0)[position.val /
        version.blocks]? = some word ∧
      word.toNat >>> (version.bits * (position.val % version.blocks)) % 2 ^ version.bits =
        indices blockStorage position := by
  have positive := version.blocks_positive
  have inside : position.val / version.blocks < version.words :=
    (Nat.div_lt_iff_lt_mul positive).mpr (by
      rw [Nat.mul_comm]
      exact Nat.lt_of_lt_of_le position.isLt version.covers)
  obtain ⟨word, present, value⟩ := fillWords_packs fits version.words (Nat.zero_le _) inside
  rw [Nat.zero_add] at value
  have split := Nat.div_add_mod position.val version.blocks
  have below := Nat.mod_lt position.val positive
  have bound := position.isLt
  have listed : position.val % version.blocks <
      (fields version blockStorage.blocks
        (version.blocks * (position.val / version.blocks))).length := by
    rw [fields, List.length_take, List.length_drop, cells_length]
    omega
  have fieldFits : Fits version.bits
      (fields version blockStorage.blocks (version.blocks * (position.val / version.blocks))) :=
    fun other member => fits other (List.mem_of_mem_drop (List.mem_of_mem_take member))
  refine ⟨word, present, ?_⟩
  rw [value, field_packed fieldFits listed]
  simp only [fields, List.getElem_take, List.getElem_drop, split]
  exact (cells_getElem bound).2

end Loops

/-! ## A reached storage -/

structure StorageWrite where
  x : UInt8
  y : UInt8
  z : UInt8
  runtimeId : Int32

def setStorageBlocks (blockStorage : BlockStorage) (writes : List StorageWrite) :
    Option BlockStorage :=
  writes.foldlM
    (fun storage write =>
      setBlockStorageBlockRuntimeId write.x write.y write.z write.runtimeId storage)
    blockStorage

/-- Every index is inside the palette, whose size is an `int32_t`. -/
structure IndicesInside (blockStorage : BlockStorage) : Prop where
  index : ∀ position, indices blockStorage position < blockStorage.palette.length
  size : blockStorage.palette.length < 2 ^ 31

theorem indicesInside_new (runtimeId : Int32) : IndicesInside (newBlockStorage runtimeId) where
  index position := by simp [indices, newBlockStorage]
  size := by simp [newBlockStorage]

theorem indicesInside_set {x y z : UInt8} {runtimeId : Int32} {before after : BlockStorage}
    (inside : IndicesInside before)
    (success : setBlockStorageBlockRuntimeId x y z runtimeId before = some after) :
    IndicesInside after := by
  obtain ⟨palette, size⟩ := set_palette success
  refine ⟨fun position => ?_, size⟩
  have grows : before.palette.length ≤ after.palette.length := by
    rw [palette]
    exact (prefix_intern before.palette runtimeId).length_le
  have interned : before.palette.idxOf runtimeId < after.palette.length := by
    rw [palette]
    exact (List.getElem?_eq_some_iff.mp (getElem?_intern before.palette runtimeId)).1
  unfold setBlockStorageBlockRuntimeId at success
  dsimp only at success
  split at success
  · rename_i bound
    cases success
    rw [indices, Fin.getElem_fin, Vector.getElem_set]
    split
    · refine Nat.lt_of_le_of_lt ?_ interned
      rw [UInt32.toNat_ofNat']
      exact Nat.mod_le _ _
    · exact Nat.lt_of_lt_of_le (inside.index position) grows
  · cases success

theorem indicesInside_run {writes : List StorageWrite} :
    ∀ {before after : BlockStorage}, IndicesInside before →
      setStorageBlocks before writes = some after → IndicesInside after := by
  induction writes with
  | nil => intro before after inside success; cases success; exact inside
  | cons write rest ih =>
    intro before after inside success
    rw [setStorageBlocks, List.foldlM_cons] at success
    obtain ⟨middle, first, later⟩ := Option.bind_eq_some_iff.mp success
    exact ih (indicesInside_set inside first) later

/-! ## What a reader finds -/

/-- The version byte, the words of its layout and the palette. -/
structure WireStorage where
  version : UInt8
  words : List UInt32
  palette : List Int32

namespace WireStorage

/-- The bits of a block, above the lowest bit of the version. -/
def bits (wire : WireStorage) : Nat := wire.version.toNat / 2

def blocks (wire : WireStorage) : Nat := 32 / wire.bits

def bytes (wire : WireStorage) : List UInt8 :=
  putUnsignedByte wire.version ++ wire.words.flatMap putUnsignedIntLe ++
    putSignedVarInt (Int32.ofNat wire.palette.length) ++ wire.palette.flatMap putSignedVarInt

/-- `(word[p / k] >> (b * (p % k))) % 2^b`. -/
def block (wire : WireStorage) (position : Nat) : Option Nat := do
  let word ← wire.words[position / wire.blocks]?
  pure (word.toNat >>> (wire.bits * (position % wire.blocks)) % 2 ^ wire.bits)

end WireStorage

/-- The bytes as a client reads them: the words are as many as the layout of
the version byte needs for 4096 blocks. -/
def getWireStorage : Reader WireStorage := do
  let version ← getUnsignedByte
  let blocks := 32 / (version.toNat / 2)
  let words ← readCount getUnsignedIntLe ((blockStorageBlocksSize + blocks - 1) / blocks)
  let size ← getSignedVarInt
  let palette ← readCount getSignedVarInt size.toNatClampNeg
  pure { version, words, palette }

theorem reads_wireStorage {wire : WireStorage} (size : wire.palette.length < 2 ^ 31)
    (words : wire.words.length = (blockStorageBlocksSize + wire.blocks - 1) / wire.blocks) :
    Reads getWireStorage wire.bytes wire := by
  have entries : (Int32.ofNat wire.palette.length).toNatClampNeg = wire.palette.length :=
    Int32.toNatClampNeg_ofNat_of_lt size
  have wordsRead := @Reads.count _ _ _ _ id wire.words fun word _ => reads_unsignedIntLe word
  have paletteRead := @Reads.count _ _ _ _ id wire.palette fun id _ => reads_signedVarInt id
  rw [words, List.map_id] at wordsRead
  rw [← entries, List.map_id] at paletteRead
  rw [WireStorage.bytes, List.append_assoc, List.append_assoc]
  exact (reads_unsignedByte wire.version).bind
    (wordsRead.bind ((reads_signedVarInt _).bind (paletteRead.bind_pure (Reads.pure _))))

/-- Every block of a reached storage is a field of the word that its position
names, and the palette follows in order. -/
theorem putMiscBlockStorage_recovers {air : Int32} {writes : List StorageWrite}
    {blockStorage : BlockStorage}
    (reached : setStorageBlocks (newBlockStorage air) writes = some blockStorage)
    (small : blockStorage.palette.length ≤ 65536) :
    ∃ wire : WireStorage, putMiscBlockStorage blockStorage = some wire.bytes ∧
      Reads getWireStorage wire.bytes wire ∧ wire.palette = blockStorage.palette ∧
      ∀ position : Fin blockStorageBlocksSize,
        wire.block position = some (indices blockStorage position) ∧
          indices blockStorage position < wire.palette.length := by
  have inside := indicesInside_run (indicesInside_new air) reached
  have positive : 0 < blockStorage.palette.length :=
    Nat.zero_lt_of_lt (inside.index ⟨0, by decide⟩)
  obtain ⟨version, chosen, wide⟩ := versionOf_some positive small
  have fits : Fits version.bits (cells blockStorage.blocks) := by
    intro value member
    obtain ⟨position, bound, same⟩ := List.getElem_of_mem member
    rw [cells_length] at bound
    obtain ⟨_, state⟩ := @cells_getElem blockStorage.blocks _ bound
    rw [← same, state]
    exact Nat.lt_of_lt_of_le (inside.index ⟨position, bound⟩) wide
  let wire : WireStorage :=
    { version := UInt8.ofNat (version.bits <<< 1 ||| 1)
      words := fillWords version blockStorage.blocks version.words 0
      palette := blockStorage.palette }
  have bits : wire.bits = version.bits := by
    rw [WireStorage.bits, version.versionByte]
    omega
  have blocks : wire.blocks = version.blocks := by
    rw [WireStorage.blocks, bits, version.dense]
  refine ⟨wire, ?_, ?_, rfl, fun position => ⟨?_, inside.index position⟩⟩
  · rw [putMiscBlockStorage, chosen]
    rfl
  · refine reads_wireStorage inside.size ?_
    rw [blocks, ← version.words_eq]
    exact fillWords_length version version.words 0
  · obtain ⟨word, present, field⟩ := fillWords_field fits position
    rw [WireStorage.block, blocks, bits, show wire.words = fillWords version blockStorage.blocks
      version.words 0 from rfl, present]
    exact congrArg some field

theorem putMiscBlockStorage_recovers_two :
    ∃ blockStorage, setStorageBlocks (newBlockStorage 7) [⟨1, 2, 3, 9⟩] = some blockStorage ∧
      blockStorage.palette.length ≤ 65536 ∧ ∃ wire : WireStorage,
      putMiscBlockStorage blockStorage = some wire.bytes ∧
        Reads getWireStorage wire.bytes wire ∧ wire.palette = blockStorage.palette ∧
        ∀ position : Fin blockStorageBlocksSize,
          wire.block position = some (indices blockStorage position) ∧
            indices blockStorage position < wire.palette.length := by
  have reached : setStorageBlocks (newBlockStorage 7) [⟨1, 2, 3, 9⟩] =
      some ⟨(newBlockStorage 7).blocks.set (blockIndex 1 2 3) 1 (by decide), [7, 9]⟩ := rfl
  exact ⟨_, reached, by decide, putMiscBlockStorage_recovers reached (by decide)⟩

end PodrumMinecraft.BlockStorageWords
