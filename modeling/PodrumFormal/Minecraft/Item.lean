import PodrumFormal.Minecraft.Misc
import PodrumFormal.Nbt.RoundTrip

/-!
# Items

An item and its extra data, which is a stream of its own behind its length.
A getter fills a local record field by field, so it takes the record's
contents before as an argument: the fields it does not reach keep them.
-/

set_option autoImplicit false

namespace PodrumMinecraft.Item

open ByteReader PodrumStream.BinaryStream PodrumStream.VarInt
open PodrumNbt.Tag PodrumNbt.RoundTrip Misc

def itemExtraDataWithNbt : UInt16 := 0xffff

structure MiscItemExtraData where
  withNbt : UInt16
  nbtVersion : UInt8
  nbt : NbtNamed
  canPlaceOnSize : Int32
  canPlaceOn : List (List UInt8)
  canDestroySize : Int32
  canDestroy : List (List UInt8)
  blockingTick : Int64

structure MiscItem where
  networkId : Int32
  count : UInt16
  metadata : UInt32
  hasStackId : UInt8
  stackId : Int32
  blockRuntimeId : Int32
  extra : MiscItemExtraData

/-! ## Getters -/

def getMiscLnbtTag : Reader NbtNamed := getNbtNamedTag .little

/-- The loop `for (i = 0; i < size; ++i)`. -/
def getByteArrays (size : Int32) : Reader (List (List UInt8)) :=
  readCount getMiscByteArrayShortLe size.toInt.toNat

def getMiscItemExtraData (hasBlockingTick : UInt8) (extraData : MiscItemExtraData) :
    Reader MiscItemExtraData := do
  let withNbt ← getUnsignedShortLe
  let nbtVersion ← readWhen (withNbt = itemExtraDataWithNbt) getUnsignedByte extraData.nbtVersion
  let nbt ← readWhen (withNbt = itemExtraDataWithNbt) getMiscLnbtTag extraData.nbt
  let canPlaceOnSize ← getIntLe
  let canPlaceOn ← getByteArrays canPlaceOnSize
  let canDestroySize ← getIntLe
  let canDestroy ← getByteArrays canDestroySize
  let blockingTick ← readWhen (hasBlockingTick ≠ 0) getLongLe extraData.blockingTick
  pure { withNbt, nbtVersion, nbt, canPlaceOnSize, canPlaceOn, canDestroySize, canDestroy,
         blockingTick }

def blockingTickFlag (networkId : Int32) : UInt8 := if networkId = 355 then 1 else 0

/-- The fields behind a network id other than 0. -/
def getItemFields (withStackId : UInt8) (item : MiscItem) (networkId : Int32) :
    Reader MiscItem := do
  let count ← getUnsignedShortLe
  let metadata ← getVarInt
  let hasStackId ← readWhen (withStackId ≠ 0) getUnsignedByte 0
  let stackId ← readWhen (withStackId ≠ 0 ∧ hasStackId ≠ 0) getSignedVarInt item.stackId
  let blockRuntimeId ← getSignedVarInt
  let tempStream ← getMiscByteArrayVarInt
  let (extra, _) ←
    StateT.lift (getMiscItemExtraData (blockingTickFlag networkId) item.extra tempStream)
  pure { networkId, count, metadata, hasStackId, stackId, blockRuntimeId, extra }

def getMiscItem (withStackId : UInt8) (item : MiscItem) : Reader MiscItem := do
  let networkId ← getSignedVarInt
  if networkId ≠ 0 then getItemFields withStackId item networkId else pure { item with networkId }

/-! ## Putters -/

def putMiscLnbtTag (value : NbtNamed) : List UInt8 := putNbtNamedTag .little value

def putByteArrays (size : Int32) (arrays : List (List UInt8)) : List UInt8 :=
  (arrays.take size.toInt.toNat).flatMap putMiscByteArrayShortLe

def putMiscItemExtraData (value : MiscItemExtraData) (hasBlockingTick : UInt8) : List UInt8 :=
  putUnsignedShortLe value.withNbt ++
    ((if value.withNbt = itemExtraDataWithNbt then putUnsignedByte value.nbtVersion else []) ++
    ((if value.withNbt = itemExtraDataWithNbt then putMiscLnbtTag value.nbt else []) ++
    (putIntLe value.canPlaceOnSize ++
    (putByteArrays value.canPlaceOnSize value.canPlaceOn ++
    (putIntLe value.canDestroySize ++
    (putByteArrays value.canDestroySize value.canDestroy ++
    (if hasBlockingTick ≠ 0 then putLongLe value.blockingTick else [])))))))

def putItemFields (value : MiscItem) (withStackId : UInt8) : List UInt8 :=
  putUnsignedShortLe value.count ++
    (putVarInt value.metadata ++
    ((if withStackId ≠ 0 then putUnsignedByte value.hasStackId else []) ++
    ((if withStackId ≠ 0 ∧ value.hasStackId ≠ 0 then putSignedVarInt value.stackId else []) ++
    (putSignedVarInt value.blockRuntimeId ++
    putMiscByteArrayVarInt
      (putMiscItemExtraData value.extra (blockingTickFlag value.networkId))))))

def putMiscItem (value : MiscItem) (withStackId : UInt8) : List UInt8 :=
  putSignedVarInt value.networkId ++
    (if value.networkId ≠ 0 then putItemFields value withStackId else [])

/-! ## What the encoding carries -/

/-- An array of the record is as long as its size says. -/
structure ArraysFit (size : Int32) (arrays : List (List UInt8)) : Prop where
  length : arrays.length = size.toInt.toNat
  short : ∀ array ∈ arrays, array.length < 2 ^ 15

structure WellFormedExtra (value : MiscItemExtraData) : Prop where
  nbt : value.withNbt = itemExtraDataWithNbt → WellFormedNamed .little value.nbt
  canPlaceOn : ArraysFit value.canPlaceOnSize value.canPlaceOn
  canDestroy : ArraysFit value.canDestroySize value.canDestroy

def WellFormedItem (item : MiscItem) : Prop := item.networkId ≠ 0 → WellFormedExtra item.extra

/-- The length of the extra data, which a 32-bit var int holds. -/
def ExtraFits (item : MiscItem) : Prop :=
  item.networkId ≠ 0 →
    (putMiscItemExtraData item.extra (blockingTickFlag item.networkId)).length < 2 ^ 32

def carriedExtra (hasBlockingTick : UInt8) (extraData value : MiscItemExtraData) :
    MiscItemExtraData :=
  { value with
    nbtVersion :=
      if value.withNbt = itemExtraDataWithNbt then value.nbtVersion else extraData.nbtVersion
    nbt := if value.withNbt = itemExtraDataWithNbt then value.nbt else extraData.nbt
    blockingTick := if hasBlockingTick ≠ 0 then value.blockingTick else extraData.blockingTick }

/-- The fields of `value` that the encoding carries, over those of the local
record. -/
def carried (withStackId : UInt8) (item value : MiscItem) : MiscItem :=
  if value.networkId ≠ 0 then
    { value with
      hasStackId := if withStackId ≠ 0 then value.hasStackId else 0
      stackId := if withStackId ≠ 0 ∧ value.hasStackId ≠ 0 then value.stackId else item.stackId
      extra := carriedExtra (blockingTickFlag value.networkId) item.extra value.extra }
  else { item with networkId := value.networkId }

/-! ## The round trip -/

theorem reads_lift {α : Type} {result : Option α} {value : α} (success : result = some value) :
    Reads (StateT.lift result : Reader α) [] value := by
  intro rest
  rw [success]
  rfl

theorem reads_byteArrays {size : Int32} {arrays : List (List UInt8)}
    (fit : ArraysFit size arrays) : Reads (getByteArrays size) (putByteArrays size arrays) arrays := by
  have each : ∀ array ∈ arrays, Reads getMiscByteArrayShortLe (putMiscByteArrayShortLe array)
      (id array) := fun array member => reads_byteArrayShortLe (fit.short array member)
  have loop := Reads.count arrays each
  rw [List.map_id] at loop
  rw [getByteArrays, putByteArrays, ← fit.length, List.take_length]
  exact loop

theorem reads_lnbtTag {value : NbtNamed} (wellFormed : WellFormedNamed .little value) :
    Reads getMiscLnbtTag (putMiscLnbtTag value) value :=
  reads_nbtNamedTag wellFormed fun _ _ network => nomatch network

theorem reads_itemExtraData {value : MiscItemExtraData} (wellFormed : WellFormedExtra value)
    (hasBlockingTick : UInt8) (extraData : MiscItemExtraData) :
    Reads (getMiscItemExtraData hasBlockingTick extraData)
      (putMiscItemExtraData value hasBlockingTick)
      (carriedExtra hasBlockingTick extraData value) := by
  have version : decide (value.withNbt = itemExtraDataWithNbt) →
      Reads getUnsignedByte (putUnsignedByte value.nbtVersion) value.nbtVersion :=
    fun _ => reads_unsignedByte value.nbtVersion
  have tree : decide (value.withNbt = itemExtraDataWithNbt) →
      Reads getMiscLnbtTag (putMiscLnbtTag value.nbt) value.nbt :=
    fun flag => reads_lnbtTag (wellFormed.nbt (of_decide_eq_true flag))
  have tick : decide (hasBlockingTick ≠ 0) →
      Reads getLongLe (putLongLe value.blockingTick) value.blockingTick :=
    fun _ => reads_longLe value.blockingTick
  have versionField := Reads.readWhen _ extraData.nbtVersion version
  have treeField := Reads.readWhen _ extraData.nbt tree
  have tickField := Reads.readWhen _ extraData.blockingTick tick
  simp only [decide_eq_true_eq] at versionField treeField tickField
  unfold getMiscItemExtraData putMiscItemExtraData
  apply (reads_unsignedShortLe value.withNbt).bind
  apply versionField.bind
  apply treeField.bind
  apply (reads_intLe value.canPlaceOnSize).bind
  apply (reads_byteArrays wellFormed.canPlaceOn).bind
  apply (reads_intLe value.canDestroySize).bind
  apply (reads_byteArrays wellFormed.canDestroy).bind
  exact tickField.bind_pure (Reads.pure _)

theorem stackId_condition (withStackId hasStackId : UInt8) :
    (withStackId ≠ 0 ∧ (if withStackId ≠ 0 then hasStackId else 0) ≠ 0) ↔
      (withStackId ≠ 0 ∧ hasStackId ≠ 0) :=
  and_congr_right fun given => by rw [if_pos given]

/-- The last field of an item: a stream of its own. -/
def getExtra (networkId : Int32) (item : MiscItem) (record : MiscItemExtraData → MiscItem) :
    Reader MiscItem := do
  let tempStream ← getMiscByteArrayVarInt
  let (extra, _) ←
    StateT.lift (getMiscItemExtraData (blockingTickFlag networkId) item.extra tempStream)
  pure (record extra)

/-- Both directions agree on which fields stand before the extra data. -/
theorem itemFields_run (withStackId : UInt8) (item value : MiscItem) (rest : List UInt8) :
    getItemFields withStackId item value.networkId (putItemFields value withStackId ++ rest) =
      getExtra value.networkId item
        (fun extra =>
          { value with
            hasStackId := if withStackId ≠ 0 then value.hasStackId else 0
            stackId :=
              if withStackId ≠ 0 ∧ value.hasStackId ≠ 0 then value.stackId else item.stackId
            extra })
        (putMiscByteArrayVarInt
          (putMiscItemExtraData value.extra (blockingTickFlag value.networkId)) ++ rest) := by
  have flag : decide (withStackId ≠ 0) →
      Reads getUnsignedByte (putUnsignedByte value.hasStackId) value.hasStackId :=
    fun _ => reads_unsignedByte value.hasStackId
  have stack : decide (withStackId ≠ 0 ∧ value.hasStackId ≠ 0) →
      Reads getSignedVarInt (putSignedVarInt value.stackId) value.stackId :=
    fun _ => reads_signedVarInt value.stackId
  have flagField := Reads.readWhen _ 0 flag
  have stackField := Reads.readWhen _ item.stackId stack
  simp only [decide_eq_true_eq] at flagField stackField
  unfold getItemFields putItemFields
  simp only [List.append_assoc]
  rw [(reads_unsignedShortLe value.count).run_bind, (reads_varInt value.metadata).run_bind,
    flagField.run_bind]
  simp only [stackId_condition]
  rw [stackField.run_bind, (reads_signedVarInt value.blockRuntimeId).run_bind]
  rfl

theorem reads_item {value : MiscItem} (withStackId : UInt8) (item : MiscItem)
    (wellFormed : WellFormedItem value) (fits : ExtraFits value) :
    Reads (getMiscItem withStackId item) (putMiscItem value withStackId)
      (carried withStackId item value) := by
  unfold getMiscItem putMiscItem
  apply (reads_signedVarInt value.networkId).bind
  by_cases present : value.networkId ≠ 0
  · have extra := reads_itemExtraData (wellFormed present) (blockingTickFlag value.networkId)
      item.extra
    intro rest
    rw [if_pos present, if_pos present, carried, if_pos present, itemFields_run, getExtra,
      (reads_byteArrayVarInt (fits present)).run_bind]
    exact ((reads_lift extra.apply_nil).map rfl) rest
  · rw [if_neg present, if_neg present, carried, if_neg present]
    exact Reads.pure _

/-- Extra data that is longer than 32 bits can say is not read to its end. -/
theorem item_leaves {withStackId : UInt8} {item value result : MiscItem} {rest after : List UInt8}
    (oversized : ¬ExtraFits value)
    (success : getMiscItem withStackId item (putMiscItem value withStackId ++ rest) =
      some (result, after)) : rest.length < after.length := by
  obtain ⟨present, long⟩ := Classical.not_imp.mp oversized
  rw [getMiscItem, putMiscItem, if_pos present, List.append_assoc,
    (reads_signedVarInt value.networkId).run_bind, if_pos present, itemFields_run, getExtra,
    bind_apply, byteArrayVarInt_cut, Option.bind_some] at success
  obtain ⟨⟨extra, left⟩, lifted, success⟩ := Option.bind_eq_some_iff.mp success
  obtain ⟨_, _, kept⟩ := Option.bind_eq_some_iff.mp lifted
  cases kept
  cases success
  rw [List.length_append, List.length_drop]
  omega

/-- An item comes back, whatever follows it, unless its extra data is longer
than its length field says. -/
theorem miscItem_roundTrip (withStackId : UInt8) (item value : MiscItem)
    (wellFormed : WellFormedItem value) (fits : ExtraFits value) (rest : List UInt8) :
    getMiscItem withStackId item (putMiscItem value withStackId ++ rest) =
      some (carried withStackId item value, rest) :=
  reads_item withStackId item wellFormed fits rest

/-- A local record before anything is read into it. -/
def blankItem : MiscItem where
  networkId := 0
  count := 0
  metadata := 0
  hasStackId := 0
  stackId := 0
  blockRuntimeId := 0
  extra :=
    { withNbt := 0
      nbtVersion := 0
      nbt := ⟨[], .byte 0⟩
      canPlaceOnSize := 0
      canPlaceOn := []
      canDestroySize := 0
      canDestroy := []
      blockingTick := 0 }

/-- A shield with a name, a stack id and one block that it can be placed on. -/
def shield : MiscItem where
  networkId := 355
  count := 1
  metadata := 300
  hasStackId := 1
  stackId := -7
  blockRuntimeId := 0
  extra :=
    { withNbt := itemExtraDataWithNbt
      nbtVersion := 1
      nbt := ⟨[], .compound [([0x61], .string [0x62, 0x63])]⟩
      canPlaceOnSize := 1
      canPlaceOn := [[0x64, 0x69, 0x72, 0x74]]
      canDestroySize := 0
      canDestroy := []
      blockingTick := -1 }

theorem shield_wellFormed : WellFormedItem shield := fun _ =>
  { nbt := fun _ =>
      ⟨⟨by decide, show 0 < 2 ^ 16 by decide⟩, show 1 < 2 ^ 31 by decide,
        ⟨by decide, show 1 < 2 ^ 16 by decide⟩, ⟨by decide, show 2 < 2 ^ 16 by decide⟩, trivial⟩
    canPlaceOn := ⟨by decide, by decide⟩
    canDestroy := ⟨by decide, by decide⟩ }

theorem miscItem_roundTrip_shield :
    getMiscItem 1 blankItem (putMiscItem shield 1 ++ [0x2a]) =
      some (carried 1 blankItem shield, [0x2a]) :=
  miscItem_roundTrip 1 blankItem shield shield_wellFormed (fun _ => by decide) [0x2a]

theorem putByteArrays_replicate (count : Nat) (size : Int32) (array : List UInt8)
    (exact : size.toInt.toNat = count) :
    (putByteArrays size (List.replicate count array)).length = count * (2 + array.length) := by
  rw [putByteArrays, exact, List.take_replicate, Nat.min_self, List.length_flatMap,
    List.map_replicate, List.sum_replicate_nat, putMiscByteArrayShortLe_length]

theorem canPlaceOn_le_extra (value : MiscItemExtraData) (hasBlockingTick : UInt8) :
    (putByteArrays value.canPlaceOnSize value.canPlaceOn).length ≤
      (putMiscItemExtraData value hasBlockingTick).length := by
  unfold putMiscItemExtraData
  simp only [List.length_append]
  omega

/-- An item that can be placed on more blocks than 32 bits have room to name. -/
def oversizedItem : MiscItem :=
  { blankItem with
    networkId := 1
    extra :=
      { blankItem.extra with
        canPlaceOnSize := 131073
        canPlaceOn := List.replicate 131073 (List.replicate 32767 0) } }

theorem oversizedItem_lost :
    WellFormedItem oversizedItem ∧
      getMiscItem 0 blankItem (putMiscItem oversizedItem 0) ≠
        some (carried 0 blankItem oversizedItem, []) := by
  constructor
  · intro _
    refine ⟨fun flag => absurd flag (by decide), ⟨List.length_replicate, ?_⟩, ⟨rfl, by decide⟩⟩
    intro array member
    rw [List.eq_of_mem_replicate member, List.length_replicate]
    decide
  · intro returned
    have long : ¬ExtraFits oversizedItem := by
      intro fits
      have bound := fits (by decide)
      have part := canPlaceOn_le_extra oversizedItem.extra
        (blockingTickFlag oversizedItem.networkId)
      have size := putByteArrays_replicate 131073 131073 (List.replicate 32767 0) (by decide)
      rw [List.length_replicate] at size
      rw [oversizedItem, size] at part
      rw [oversizedItem] at bound
      omega
    rw [← List.append_nil (putMiscItem oversizedItem 0)] at returned
    exact absurd (item_leaves long returned) (Nat.lt_irrefl 0)

end PodrumMinecraft.Item
