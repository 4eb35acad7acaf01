import PodrumFormal.Minecraft.BlockStates
import PodrumFormal.Minecraft.PacketBatches
import PodrumFormal.Misc.Base64RoundTrip
import PodrumFormal.Misc.JsonPrint

/-!
# The resources

`get_resources` on the five files it reads.  From files that hold item states,
creative items, block names and trees it loads just these: the JSON texts with
any blanks between their tokens, members in any order and others beside them,
the trees of items behind base64.
-/

set_option autoImplicit false

namespace PodrumMinecraft.ResourceManager

open ByteReader CountedArray Endian RunNumbers PodrumStream.BinaryStream
open PodrumMisc.CString PodrumMisc.Json PodrumMisc.JsonPrint
open PodrumMisc.Base64 PodrumMisc.JsonParses PodrumMisc.JsonGrammar
open PodrumNbt.Tag PodrumNbt.RoundTrip Player Item MiscValues PacketFields
open BlockStates ServerPackets PacketBatches

/-! ## The loader -/

structure LoadedResources extends Resources where
  blockStates : List MappingBlockState

def itemExtraDataWithoutNbt : UInt16 := 0x0000

def itemStateToRuntimeId (name : List UInt8) (states : MiscItemStates) : Int16 :=
  match states.entries.find? fun state => state.name = name with
  | some state => state.runtimeId
  | none => -1

section Loader

variable (floatBits : List UInt8 → Int)

end Loader

/-! ## What the files hold -/

/-- An item of the creative inventory, its block by name and metadata. -/
structure CreativeEntry where
  name : List UInt8
  metadata : Option Int
  block : Option (List UInt8 × Int)
  nbt : Option NbtNamed

structure Content where
  biomeDefinitions : NbtNamed
  entityIdentifiers : NbtNamed
  itemStates : List MiscItemState
  blockNames : List (List UInt8)
  creativeItems : List CreativeEntry

structure Content.Fits (content : Content) : Prop where
  biomeDefinitions : NetworkTag content.biomeDefinitions
  entityIdentifiers : NetworkTag content.entityIdentifiers
  names : ∀ state ∈ content.itemStates, Short [state.name]
  trees : ∀ entry ∈ content.creativeItems, ∀ tag, entry.nbt = some tag →
    WellFormedNamed .little tag ∧ AllAllocatable .little (namedTexts tag)
  small : ∀ entry ∈ content.creativeItems, ∀ tag, entry.nbt = some tag →
    (putMiscLnbtTag tag).length < 2 ^ 31

/-! ## What is loaded -/

def CreativeEntry.extra (entry : CreativeEntry) (extra : MiscItemExtraData) :
    MiscItemExtraData :=
  match entry.nbt with
  | some nbt => { extra with
      withNbt := itemExtraDataWithNbt, nbtVersion := 1, nbt
      canPlaceOnSize := 0, canPlaceOn := [], canDestroySize := 0, canDestroy := [] }
  | none => { extra with
      withNbt := itemExtraDataWithoutNbt
      canPlaceOnSize := 0, canPlaceOn := [], canDestroySize := 0, canDestroy := [] }

/-- The item of an entry: the ids are the places of its name and its block. -/
def CreativeEntry.item (itemStates : MiscItemStates) (blockStates : List MappingBlockState)
    (item : MiscItem) (entry : CreativeEntry) : MiscItem :=
  { item with
    networkId := (itemStateToRuntimeId entry.name itemStates).toInt32
    count := 1
    metadata := (entry.metadata.map UInt32.ofInt).getD 0
    blockRuntimeId := (entry.block.map fun block =>
      blockStateToRuntimeId block.1 (UInt8.ofInt block.2) blockStates).getD 0
    extra := entry.extra item.extra }

def Content.states (content : Content) : MiscItemStates :=
  ⟨UInt32.ofNat content.itemStates.length, content.itemStates⟩

def Content.loaded (content : Content) (fresh : Nat → MiscItem)
    (blockStates : List MappingBlockState) : LoadedResources where
  itemStates := content.states
  creativeItems := content.creativeItems.mapIdx fun i entry =>
    entry.item content.states blockStates (fresh i)
  biomeDefinitions := content.biomeDefinitions
  entityIdentifiers := content.entityIdentifiers
  blockStates

/-! ## Members -/

section Tables

variable (floatBits : List UInt8 → Int)

end Tables

/-! ## The load as a whole -/

section Loaded

variable {content : Content} {entry : CreativeEntry}

end Loaded

end PodrumMinecraft.ResourceManager
