import Mathlib.Algebra.Group.Int.Defs
import Mathlib.Algebra.Group.Nat.Defs
import PodrumFormal.Lib.Interning

/-!
# Block storages

The blocks of a 16 by 16 by 16 cube as indices into a palette of runtime ids.
The palette grows by the ids that are not in it; its size is a 32-bit `int`.
-/

set_option autoImplicit false

namespace PodrumWorld.Storage

open Interning

def blockStorageBlocksSize : Nat := 4096

structure BlockStorage where
  blocks : Vector UInt32 blockStorageBlocksSize
  palette : List Int32

def newBlockStorage (runtimeId : Int32) : BlockStorage where
  blocks := Vector.replicate blockStorageBlocksSize 0
  palette := [runtimeId]

/-- `(x << 8) | (z << 4) | y`. -/
def blockIndex (x y z : UInt8) : Nat := x.toNat <<< 8 ||| z.toNat <<< 4 ||| y.toNat

/-- `none` is a read outside the blocks or the palette. -/
def getBlockStorageBlockRuntimeId (x y z : UInt8) (blockStorage : BlockStorage) :
    Option Int32 := do
  let block ← blockStorage.blocks[blockIndex x y z]?
  let index := block.toInt32.toInt
  if 0 ≤ index then blockStorage.palette[index.toNat]? else none

/-- `none` is a write outside the blocks, or a palette size that overflows. -/
def setBlockStorageBlockRuntimeId (x y z : UInt8) (runtimeId : Int32)
    (blockStorage : BlockStorage) : Option BlockStorage :=
  let i := blockStorage.palette.idxOf runtimeId
  let palette := intern blockStorage.palette runtimeId
  if bound : blockIndex x y z < blockStorageBlocksSize ∧ palette.length < 2 ^ 31 then
    some
      { blocks := blockStorage.blocks.set (blockIndex x y z) (UInt32.ofNat i) bound.1
        palette }
  else none

/-! ## The packed index -/

theorem blockIndex_eq {x y z : UInt8} (width : z.toNat < 16) (height : y.toNat < 16) :
    blockIndex x y z = x.toNat * 256 + z.toNat * 16 + y.toNat := by
  have high : z.toNat <<< 4 ||| y.toNat = z.toNat * 16 + y.toNat := by
    rw [← Nat.shiftLeft_add_eq_or_of_lt (i := 4) height, Nat.shiftLeft_eq]
  rw [blockIndex, Nat.or_assoc, high, ← Nat.shiftLeft_add_eq_or_of_lt (i := 8) (by omega),
    Nat.shiftLeft_eq]
  omega

/-! ## The storage as a map of its cells -/

/-- Coordinates inside the cube. -/
structure Local (x y z : UInt8) : Prop where
  x : x.toNat < 16
  y : y.toNat < 16
  z : z.toNat < 16

theorem blockIndex_lt {x y z : UInt8} (inside : Local x y z) :
    blockIndex x y z < blockStorageBlocksSize := by
  obtain ⟨left, middle, right⟩ := inside
  rw [blockIndex_eq right middle, blockStorageBlocksSize]
  omega

def cell {x y z : UInt8} (inside : Local x y z) : Fin blockStorageBlocksSize :=
  ⟨blockIndex x y z, blockIndex_lt inside⟩

def indices (blockStorage : BlockStorage) (position : Fin blockStorageBlocksSize) : Nat :=
  blockStorage.blocks[position].toNat

/-- The blocks are those of `content`: every index is inside the palette, whose
entries are distinct, allowed, and begin with the air id. -/
def Represents (air : Int32) (allowed : List Int32) (blockStorage : BlockStorage)
    (content : Fin blockStorageBlocksSize → Int32) : Prop :=
  Holds air allowed blockStorage.palette (indices blockStorage) content

/-- The ids that a palette may get fit in its size. -/
def PaletteFits (allowed : List Int32) : Prop := allowed.dedup.length < 2 ^ 31

section Operations

variable {air : Int32} {allowed : List Int32} {blockStorage : BlockStorage}
  {content : Fin blockStorageBlocksSize → Int32} {x y z : UInt8}

theorem represents_new (member : air ∈ allowed) :
    Represents air allowed (newBlockStorage air) fun _ => air := by
  have zero : indices (newBlockStorage air) = fun _ => 0 := by
    funext position
    simp [indices, newBlockStorage]
  rw [Represents, zero]
  exact Holds.fresh member

theorem toInt32_small {block : UInt32} (small : block.toNat < 2 ^ 31) :
    block.toInt32.toInt = block.toNat := by
  have twice : 2 * block.toBitVec.toNat < 2 ^ 32 := by
    rw [UInt32.toNat_toBitVec]
    omega
  exact BitVec.toInt_eq_toNat_of_lt twice

theorem get_of_represents (represents : Represents air allowed blockStorage content)
    (fits : PaletteFits allowed) (inside : Local x y z) :
    getBlockStorageBlockRuntimeId x y z blockStorage = some (content (cell inside)) := by
  have bound := represents.cell_lt (cell inside)
  have length := represents.length_le
  have stored := represents.stored (cell inside)
  have small : indices blockStorage (cell inside) < 2 ^ 31 :=
    Nat.lt_of_lt_of_le bound (Nat.le_of_lt (Nat.lt_of_le_of_lt length fits))
  have block : blockStorage.blocks[blockIndex x y z]? =
      some (blockStorage.blocks[cell inside]) :=
    Vector.getElem?_eq_getElem (blockIndex_lt inside)
  rw [getBlockStorageBlockRuntimeId, block]
  simp only [Option.bind_eq_bind, Option.bind_some]
  rw [toInt32_small small, if_pos (Int.natCast_nonneg _), Int.toNat_natCast]
  exact stored

theorem set_of_represents (represents : Represents air allowed blockStorage content)
    (fits : PaletteFits allowed) (inside : Local x y z) {runtimeId : Int32}
    (member : runtimeId ∈ allowed) :
    ∃ after, setBlockStorageBlockRuntimeId x y z runtimeId blockStorage = some after ∧
      Represents air allowed after (Function.update content (cell inside) runtimeId) := by
  have written := represents.write member (cell inside)
  have room := Nat.lt_of_le_of_lt written.length_le fits
  have bound := blockIndex_lt inside
  rw [setBlockStorageBlockRuntimeId, dif_pos ⟨bound, room⟩]
  refine ⟨_, rfl, ?_⟩
  have index := written.cell_lt (cell inside)
  rw [Function.update_self] at index
  rw [Represents]
  have cells : indices
      { blocks := blockStorage.blocks.set (blockIndex x y z)
          (UInt32.ofNat (blockStorage.palette.idxOf runtimeId)) bound
        palette := intern blockStorage.palette runtimeId } =
      Function.update (indices blockStorage) (cell inside)
        (blockStorage.palette.idxOf runtimeId) := by
    funext position
    by_cases same : position = cell inside
    · subst same
      rw [Function.update_self]
      have held : (blockStorage.blocks.set (blockIndex x y z)
          (UInt32.ofNat (blockStorage.palette.idxOf runtimeId)) bound)[blockIndex x y z] =
            UInt32.ofNat (blockStorage.palette.idxOf runtimeId) := Vector.getElem_set_self bound
      exact (congrArg UInt32.toNat held).trans (UInt32.toNat_ofNat_of_lt' (by
        simp only [UInt32.size]
        omega))
    · rw [Function.update_of_ne same]
      have other : blockIndex x y z ≠ position.val := fun equal => same (Fin.ext equal.symm)
      exact congrArg UInt32.toNat (Vector.getElem_set_ne bound position.isLt other)
  rw [cells]
  exact written

theorem set_palette {runtimeId : Int32} {after : BlockStorage}
    (success : setBlockStorageBlockRuntimeId x y z runtimeId blockStorage = some after) :
    after.palette = intern blockStorage.palette runtimeId ∧ after.palette.length < 2 ^ 31 := by
  unfold setBlockStorageBlockRuntimeId at success
  dsimp only at success
  split at success
  · rename_i bound
    cases success
    exact ⟨rfl, bound.2⟩
  · cases success

end Operations

end PodrumWorld.Storage
