import PodrumFormal.Lib.CountedArray
import PodrumFormal.Minecraft.PacketGetters
import PodrumFormal.Minecraft.SkinEncoding
import PodrumFormal.Nbt.RoundTrip

/-!
# The values of `mcmisc.c`

Pack lists, experiments, game rules, item states, block properties and the parts
of a skin: what their putters write comes back through their getters.  The
counts are 16-bit, 32-bit and variable-length integers, and a count that is not
positive is a loop without turns.
-/

set_option autoImplicit false

namespace PodrumMinecraft.MiscValues

open ByteReader ByteWriter CountedArray PodrumStream.BinaryStream PodrumStream.VarInt
open PodrumNbt.Tag PodrumNbt.RoundTrip Misc Login PacketGetters Skin SkinEncoding

/-- The lengths fit an `int`. -/
def Short (texts : List (List UInt8)) : Prop := ∀ text ∈ texts, text.length < 2 ^ 31

instance (texts : List (List UInt8)) : Decidable (Short texts) :=
  inferInstanceAs (Decidable (∀ text ∈ texts, text.length < 2 ^ 31))

theorem short_cons {text : List UInt8} {texts : List (List UInt8)} :
    Short (text :: texts) ↔ text.length < 2 ^ 31 ∧ Short texts := List.forall_mem_cons

theorem returns_string {text : List UInt8} (short : text.length < 2 ^ 31) :
    Returns (putMiscStringVarInt text) getMiscStringVarInt text := by
  obtain ⟨block, written⟩ := putMiscStringVarInt_isSome.mpr (writable_short short)
  have reads := encodes_string text block written
  rw [cut_short short] at reads
  exact ⟨block, written, reads⟩

/-! ## Byte arrays and login tokens -/

/-- A negative length is a `size_t` of more bytes than any stream has. -/
def getMiscByteArraySignedVarInt : Reader (List UInt8) := do
  let size ← getSignedVarInt
  getBytes size.toInt64.toUInt64.toNat

def putMiscByteArraySignedVarInt (value : List UInt8) : List UInt8 :=
  putSignedVarInt (Int32.ofNat value.length) ++ putBytes value

def putMiscStringIntLe (value : List UInt8) : Option (List UInt8) :=
  let length := Int32.ofNat value.length
  if length < 0 then none
  else some (putIntLe length ++ putBytes (value.take length.toNatClampNeg))

def putMiscLoginTokens (value : LoginTokens) : Option (List UInt8) :=
  joined [putMiscStringIntLe value.identity, putMiscStringIntLe value.client]

theorem intSize_exact {size : Nat} (short : size < 2 ^ 31) :
    (Int32.ofNat size).toInt64.toUInt64.toNat = size := by
  have widened : (Int32.ofNat size).toInt64 = Int64.ofNat size := by
    apply Int64.toInt_inj.mp
    rw [Int32.toInt_toInt64, Int32.toInt_ofNat_of_lt short, Int64.toInt_ofNat_of_lt (by omega)]
  rw [widened, Int64.toUInt64_ofNat', UInt64.toNat_ofNat_of_lt' (by simp only [UInt64.size]; omega)]

theorem reads_byteArraySignedVarInt {value : List UInt8} (short : value.length < 2 ^ 31) :
    Reads getMiscByteArraySignedVarInt (putMiscByteArraySignedVarInt value) value := by
  apply (reads_signedVarInt _).bind
  rw [intSize_exact short]
  exact reads_bytes value

/-- The terminator needs a place of its own. -/
theorem returns_stringIntLe {value : List UInt8} (short : value.length + 1 < 2 ^ 31) :
    Returns (putMiscStringIntLe value) getMiscStringIntLe value := by
  have clamped : (Int32.ofNat value.length).toNatClampNeg = value.length :=
    Int32.toNatClampNeg_ofNat_of_lt (by omega)
  have exact : (Int32.ofNat value.length).toInt = value.length :=
    Int32.toInt_ofNat_of_lt (by omega)
  have positive : ¬Int32.ofNat value.length < 0 := by
    rw [Int32.lt_iff_toInt_lt, exact, Int32.toInt_zero]
    omega
  have room : 0 < Int32.ofNat value.length + 1 := by
    show 0 < Int32.ofNat value.length + Int32.ofNat 1
    rw [← Int32.ofNat_add, Int32.lt_iff_toInt_lt, Int32.toInt_zero,
      Int32.toInt_ofNat_of_lt short]
    omega
  refine ⟨_, if_neg positive, (reads_intLe _).bind ?_⟩
  rw [if_pos room, clamped, List.take_length]
  exact reads_bytes value

theorem returns_loginTokens {tokens : LoginTokens} (identity : tokens.identity.length + 1 < 2 ^ 31)
    (client : tokens.client.length + 1 < 2 ^ 31) :
    Returns (putMiscLoginTokens tokens) getMiscLoginTokens tokens :=
  .cons (returns_stringIntLe identity) (.cons (returns_stringIntLe client) (.nil _))

/-! ## Resource packs -/

structure MiscBehaviorPackInfo where
  uuid : List UInt8
  version : List UInt8
  size : UInt64
  contentKey : List UInt8
  subPackName : List UInt8
  contentIdentity : List UInt8
  hasScripts : UInt8
  deriving DecidableEq

structure MiscTexturePackInfo where
  uuid : List UInt8
  version : List UInt8
  size : UInt64
  contentKey : List UInt8
  subPackName : List UInt8
  contentIdentity : List UInt8
  hasScripts : UInt8
  rtxEnabled : UInt8
  deriving DecidableEq

structure MiscResourcePackIdVersion where
  uuid : List UInt8
  version : List UInt8
  name : List UInt8
  deriving DecidableEq

abbrev MiscBehaviorPackInfos := Counted Int16 MiscBehaviorPackInfo

abbrev MiscTexturePackInfos := Counted Int16 MiscTexturePackInfo

abbrev MiscResourcePackIdVersions := Counted UInt32 MiscResourcePackIdVersion

def getMiscBehaviorPackInfo : Reader MiscBehaviorPackInfo := do
  let uuid ← getMiscStringVarInt
  let version ← getMiscStringVarInt
  let size ← getUnsignedLongLe
  let contentKey ← getMiscStringVarInt
  let subPackName ← getMiscStringVarInt
  let contentIdentity ← getMiscStringVarInt
  let hasScripts ← getUnsignedByte
  pure { uuid, version, size, contentKey, subPackName, contentIdentity, hasScripts }

def getMiscTexturePackInfo : Reader MiscTexturePackInfo := do
  let uuid ← getMiscStringVarInt
  let version ← getMiscStringVarInt
  let size ← getUnsignedLongLe
  let contentKey ← getMiscStringVarInt
  let subPackName ← getMiscStringVarInt
  let contentIdentity ← getMiscStringVarInt
  let hasScripts ← getUnsignedByte
  let rtxEnabled ← getUnsignedByte
  pure { uuid, version, size, contentKey, subPackName, contentIdentity, hasScripts, rtxEnabled }

def getMiscResourcePackIdVersion : Reader MiscResourcePackIdVersion := do
  let uuid ← getMiscStringVarInt
  let version ← getMiscStringVarInt
  let name ← getMiscStringVarInt
  pure { uuid, version, name }

def getMiscBehaviorPackInfos : Reader MiscBehaviorPackInfos :=
  getCounted getShortLe Int16.toNatClampNeg getMiscBehaviorPackInfo

def getMiscTexturePackInfos : Reader MiscTexturePackInfos :=
  getCounted getShortLe Int16.toNatClampNeg getMiscTexturePackInfo

def getMiscResourcePackIdVersions : Reader MiscResourcePackIdVersions :=
  getCounted getVarInt UInt32.toNat getMiscResourcePackIdVersion

def putMiscBehaviorPackInfo (info : MiscBehaviorPackInfo) : Option (List UInt8) :=
  joined [putMiscStringVarInt info.uuid, putMiscStringVarInt info.version,
    some (putUnsignedLongLe info.size), putMiscStringVarInt info.contentKey,
    putMiscStringVarInt info.subPackName, putMiscStringVarInt info.contentIdentity,
    some (putUnsignedByte info.hasScripts)]

def putMiscTexturePackInfo (info : MiscTexturePackInfo) : Option (List UInt8) :=
  joined [putMiscStringVarInt info.uuid, putMiscStringVarInt info.version,
    some (putUnsignedLongLe info.size), putMiscStringVarInt info.contentKey,
    putMiscStringVarInt info.subPackName, putMiscStringVarInt info.contentIdentity,
    some (putUnsignedByte info.hasScripts), some (putUnsignedByte info.rtxEnabled)]

def putMiscResourcePackIdVersion (pack : MiscResourcePackIdVersion) : Option (List UInt8) :=
  joined [putMiscStringVarInt pack.uuid, putMiscStringVarInt pack.version,
    putMiscStringVarInt pack.name]

def putMiscBehaviorPackInfos : MiscBehaviorPackInfos → Option (List UInt8) :=
  putCounted putShortLe Int16.toNatClampNeg putMiscBehaviorPackInfo

def putMiscTexturePackInfos : MiscTexturePackInfos → Option (List UInt8) :=
  putCounted putShortLe Int16.toNatClampNeg putMiscTexturePackInfo

def putMiscResourcePackIdVersions : MiscResourcePackIdVersions → Option (List UInt8) :=
  putCounted putVarInt UInt32.toNat putMiscResourcePackIdVersion

def MiscBehaviorPackInfo.strings (info : MiscBehaviorPackInfo) : List (List UInt8) :=
  [info.uuid, info.version, info.contentKey, info.subPackName, info.contentIdentity]

def MiscTexturePackInfo.strings (info : MiscTexturePackInfo) : List (List UInt8) :=
  [info.uuid, info.version, info.contentKey, info.subPackName, info.contentIdentity]

def MiscResourcePackIdVersion.strings (pack : MiscResourcePackIdVersion) : List (List UInt8) :=
  [pack.uuid, pack.version, pack.name]

theorem returns_behaviorPackInfo (info : MiscBehaviorPackInfo) (short : Short info.strings) :
    Returns (putMiscBehaviorPackInfo info) getMiscBehaviorPackInfo info := by
  simp only [MiscBehaviorPackInfo.strings, short_cons] at short
  obtain ⟨uuid, version, contentKey, subPackName, contentIdentity, -⟩ := short
  exact .cons (returns_string uuid) (.cons (returns_string version)
    (.cons (.fixed (reads_unsignedLongLe _)) (.cons (returns_string contentKey)
    (.cons (returns_string subPackName) (.cons (returns_string contentIdentity)
    (.cons (.fixed (reads_unsignedByte _)) (.nil _)))))))

theorem returns_texturePackInfo (info : MiscTexturePackInfo) (short : Short info.strings) :
    Returns (putMiscTexturePackInfo info) getMiscTexturePackInfo info := by
  simp only [MiscTexturePackInfo.strings, short_cons] at short
  obtain ⟨uuid, version, contentKey, subPackName, contentIdentity, -⟩ := short
  exact .cons (returns_string uuid) (.cons (returns_string version)
    (.cons (.fixed (reads_unsignedLongLe _)) (.cons (returns_string contentKey)
    (.cons (returns_string subPackName) (.cons (returns_string contentIdentity)
    (.cons (.fixed (reads_unsignedByte _)) (.cons (.fixed (reads_unsignedByte _)) (.nil _))))))))

theorem returns_resourcePackIdVersion (pack : MiscResourcePackIdVersion)
    (short : Short pack.strings) :
    Returns (putMiscResourcePackIdVersion pack) getMiscResourcePackIdVersion pack := by
  simp only [MiscResourcePackIdVersion.strings, short_cons] at short
  obtain ⟨uuid, version, name, -⟩ := short
  exact .cons (returns_string uuid) (.cons (returns_string version)
    (.cons (returns_string name) (.nil _)))

/-! ## Experiments, game rules and the shared resource -/

structure MiscExperiment where
  name : List UInt8
  enabled : UInt8
  deriving DecidableEq

abbrev MiscExperiments := Counted Int32 MiscExperiment

def gameRuleBoolean : UInt32 := 1
def gameRuleSignedVarInt : UInt32 := 2
def gameRuleFloatLe : UInt32 := 3

/-- The member of the union that the type names.  A float is its bit pattern,
and a type of no member leaves the union as it was. -/
inductive GameRuleValue
  | boolean (value : UInt8)
  | signedVarInt (value : Int32)
  | floatLe (bits : UInt32)
  | unset (type : UInt32)
      (unknown : type ∉ [gameRuleBoolean, gameRuleSignedVarInt, gameRuleFloatLe])
  deriving DecidableEq

structure MiscGameRule where
  name : List UInt8
  editable : UInt8
  value : GameRuleValue
  deriving DecidableEq

abbrev MiscGameRules := Counted UInt32 MiscGameRule

structure MiscEducationSharedResourceUri where
  buttonName : List UInt8
  linkUri : List UInt8
  deriving DecidableEq

def GameRuleValue.type : GameRuleValue → UInt32
  | boolean _ => gameRuleBoolean
  | signedVarInt _ => gameRuleSignedVarInt
  | floatLe _ => gameRuleFloatLe
  | unset type _ => type

def getMiscExperiment : Reader MiscExperiment := do
  let name ← getMiscStringVarInt
  let enabled ← getUnsignedByte
  pure { name, enabled }

def getMiscExperiments : Reader MiscExperiments :=
  getCounted getIntLe Int32.toNatClampNeg getMiscExperiment

def getGameRuleValue (type : UInt32) : Reader GameRuleValue :=
  if type = gameRuleBoolean then .boolean <$> getUnsignedByte
  else if type = gameRuleSignedVarInt then .signedVarInt <$> getSignedVarInt
  else if type = gameRuleFloatLe then .floatLe <$> getFloatLe
  else if unknown : type ∉ [gameRuleBoolean, gameRuleSignedVarInt, gameRuleFloatLe] then
    pure (.unset type unknown)
  else writeOutside

def getMiscGameRule : Reader MiscGameRule := do
  let name ← getMiscStringVarInt
  let editable ← getUnsignedByte
  let type ← getVarInt
  let value ← getGameRuleValue type
  pure { name, editable, value }

def getMiscGameRules : Reader MiscGameRules :=
  getCounted getVarInt UInt32.toNat getMiscGameRule

def getMiscEducationSharedResourceUri : Reader MiscEducationSharedResourceUri := do
  let buttonName ← getMiscStringVarInt
  let linkUri ← getMiscStringVarInt
  pure { buttonName, linkUri }

def putMiscExperiment (value : MiscExperiment) : Option (List UInt8) :=
  joined [putMiscStringVarInt value.name, some (putUnsignedByte value.enabled)]

def putMiscExperiments : MiscExperiments → Option (List UInt8) :=
  putCounted putIntLe Int32.toNatClampNeg putMiscExperiment

def putGameRuleValue : GameRuleValue → List UInt8
  | .boolean value => putUnsignedByte value
  | .signedVarInt value => putSignedVarInt value
  | .floatLe bits => putFloatLe bits
  | .unset _ _ => []

def putMiscGameRule (value : MiscGameRule) : Option (List UInt8) :=
  joined [putMiscStringVarInt value.name, some (putUnsignedByte value.editable),
    some (putVarInt value.value.type), some (putGameRuleValue value.value)]

def putMiscGameRules : MiscGameRules → Option (List UInt8) :=
  putCounted putVarInt UInt32.toNat putMiscGameRule

def putMiscEducationSharedResourceUri (value : MiscEducationSharedResourceUri) :
    Option (List UInt8) :=
  joined [putMiscStringVarInt value.buttonName, putMiscStringVarInt value.linkUri]

theorem returns_experiment (value : MiscExperiment) (short : Short [value.name]) :
    Returns (putMiscExperiment value) getMiscExperiment value :=
  .cons (returns_string (short_cons.mp short).1) (.cons (.fixed (reads_unsignedByte _)) (.nil _))

/-- The type leads the getter back to the member that was written. -/
theorem reads_gameRuleValue (value : GameRuleValue) :
    Reads (getGameRuleValue value.type) (putGameRuleValue value) value := by
  cases value with
  | boolean value => exact (reads_unsignedByte value).functor _
  | signedVarInt value => exact (reads_signedVarInt value).functor _
  | floatLe bits => exact (reads_unsignedIntLe bits).functor _
  | unset type unknown =>
      have others := unknown
      simp only [List.mem_cons, List.not_mem_nil, or_false, not_or] at others
      obtain ⟨notBoolean, notSigned, notFloat⟩ := others
      rw [GameRuleValue.type, getGameRuleValue, if_neg notBoolean, if_neg notSigned,
        if_neg notFloat, dif_pos unknown]
      exact Reads.pure _

theorem returns_gameRule (value : MiscGameRule) (short : Short [value.name]) :
    Returns (putMiscGameRule value) getMiscGameRule value :=
  .cons (returns_string (short_cons.mp short).1) (.cons (.fixed (reads_unsignedByte _))
    (.cons (.fixed (reads_varInt _)) (.cons (.fixed (reads_gameRuleValue _)) (.nil _))))

theorem returns_educationSharedResourceUri {value : MiscEducationSharedResourceUri}
    (short : Short [value.buttonName, value.linkUri]) :
    Returns (putMiscEducationSharedResourceUri value) getMiscEducationSharedResourceUri value := by
  obtain ⟨buttonName, others⟩ := short_cons.mp short
  exact .cons (returns_string buttonName)
    (.cons (returns_string (short_cons.mp others).1) (.nil _))

/-! ## Item states and block properties -/

structure MiscItemState where
  name : List UInt8
  runtimeId : Int16
  componentBased : UInt8
  deriving DecidableEq

structure MiscBlockProperty where
  name : List UInt8
  nbt : NbtNamed

abbrev MiscItemStates := Counted UInt32 MiscItemState

abbrev MiscBlockProperties := Counted UInt32 MiscBlockProperty

def getMiscNbtTag : Reader NbtNamed := getNbtNamedTag .network

def getMiscItemState : Reader MiscItemState := do
  let name ← getMiscStringVarInt
  let runtimeId ← getShortLe
  let componentBased ← getUnsignedByte
  pure { name, runtimeId, componentBased }

def getMiscItemStates : Reader MiscItemStates :=
  getCounted getVarInt UInt32.toNat getMiscItemState

def getMiscBlockProperty : Reader MiscBlockProperty := do
  let name ← getMiscStringVarInt
  let nbt ← getMiscNbtTag
  pure { name, nbt }

def getMiscBlockProperties : Reader MiscBlockProperties :=
  getCounted getVarInt UInt32.toNat getMiscBlockProperty

def putMiscNbtTag (value : NbtNamed) : List UInt8 := putNbtNamedTag .network value

def putMiscItemState (value : MiscItemState) : Option (List UInt8) :=
  joined [putMiscStringVarInt value.name, some (putShortLe value.runtimeId),
    some (putUnsignedByte value.componentBased)]

def putMiscItemStates : MiscItemStates → Option (List UInt8) :=
  putCounted putVarInt UInt32.toNat putMiscItemState

def putMiscBlockProperty (value : MiscBlockProperty) : Option (List UInt8) :=
  joined [putMiscStringVarInt value.name, some (putMiscNbtTag value.nbt)]

def putMiscBlockProperties : MiscBlockProperties → Option (List UInt8) :=
  putCounted putVarInt UInt32.toNat putMiscBlockProperty

/-- A tree that network order holds, all of whose texts can be allocated. -/
structure NetworkTag (tag : NbtNamed) : Prop where
  wellFormed : WellFormedNamed .network tag
  allocatable : AllAllocatable .network (namedTexts tag)

theorem reads_nbtTag {tag : NbtNamed} (network : NetworkTag tag) :
    Reads getMiscNbtTag (putMiscNbtTag tag) tag :=
  reads_nbtNamedTag network.wellFormed network.allocatable

theorem returns_itemState (value : MiscItemState) (short : Short [value.name]) :
    Returns (putMiscItemState value) getMiscItemState value :=
  .cons (returns_string (short_cons.mp short).1) (.cons (.fixed (reads_shortLe _))
    (.cons (.fixed (reads_unsignedByte _)) (.nil _)))

structure MiscBlockProperty.Fits (value : MiscBlockProperty) : Prop where
  short : Short [value.name]
  nbt : NetworkTag value.nbt

theorem returns_blockProperty (value : MiscBlockProperty) (fits : value.Fits) :
    Returns (putMiscBlockProperty value) getMiscBlockProperty value :=
  .cons (returns_string (short_cons.mp fits.short).1)
    (.cons (.fixed (reads_nbtTag fits.nbt)) (.nil _))

/-! ## The parts of a skin -/

def getMiscSkinPersona : Reader MiscSkinPersona := do
  let pieceId ← getMiscStringVarInt
  let pieceType ← getMiscStringVarInt
  let packId ← getMiscStringVarInt
  let isPieceDefault ← getUnsignedByte
  let productId ← getMiscStringVarInt
  pure { pieceId, pieceType, packId, isPieceDefault, productId }

/-- The loop counts its turns unsigned, and a negative count is a `size_t` that
no allocation satisfies. -/
def getColors (colorCount : Int32) : Reader (List (List UInt8)) :=
  if colorCount < 0 then writeOutside
  else readCount getMiscStringVarInt colorCount.toNatClampNeg

/-- There are never too many colours for their count. -/
def getMiscSkinPersonaTintColor : Reader MiscSkinPersonaTintColor := do
  let pieceType ← getMiscStringVarInt
  let colorCount ← getIntLe
  let colors ← getColors colorCount
  if fits : colors.length < 2 ^ 32 then pure { pieceType, colors, fits } else writeOutside

theorem returns_skinImage {image : MiscSkinImage} (short : Short [image.data]) :
    Returns (putMiscSkinImage image) getMiscSkinImage image :=
  .cons (.fixed (reads_intLe _)) (.cons (.fixed (reads_intLe _))
    (.cons (returns_string (short_cons.mp short).1) (.nil _)))

theorem returns_skinAnimation {animation : MiscSkinAnimation}
    (short : Short [animation.image.data]) :
    Returns (putMiscSkinAnimation animation) getMiscSkinAnimation animation :=
  .cons (returns_skinImage short) (.cons (.fixed (reads_intLe _))
    (.cons (.fixed (reads_unsignedIntLe _)) (.cons (.fixed (reads_intLe _)) (.nil _))))

theorem returns_skinPersona {persona : MiscSkinPersona} (short : Short persona.strings) :
    Returns (putMiscSkinPersona persona) getMiscSkinPersona persona := by
  simp only [MiscSkinPersona.strings, short_cons] at short
  obtain ⟨pieceId, pieceType, packId, productId, -⟩ := short
  exact .cons (returns_string pieceId) (.cons (returns_string pieceType)
    (.cons (returns_string packId) (.cons (.fixed (reads_unsignedByte _))
    (.cons (returns_string productId) (.nil _)))))

theorem returns_skinPersonaTintColor {tintColor : MiscSkinPersonaTintColor}
    (short : Short (tintColor.pieceType :: tintColor.colors))
    (countable : tintColor.colors.length < 2 ^ 31) :
    Returns (putMiscSkinPersonaTintColor tintColor) getMiscSkinPersonaTintColor tintColor := by
  obtain ⟨pieceType, colors⟩ := short_cons.mp short
  have positive : ¬countField tintColor.colors < 0 := by
    rw [countField, Int32.lt_iff_toInt_lt, Int32.toInt_ofNat_of_lt countable, Int32.toInt_zero]
    omega
  have loop : Returns (putCount putMiscStringVarInt tintColor.colors)
      (getColors (countField tintColor.colors)) tintColor.colors := by
    rw [getColors, if_neg positive, countField, Int32.toNatClampNeg_ofNat_of_lt countable]
    exact Returns.count fun color member => returns_string (colors color member)
  refine .cons (returns_string pieceType) (.cons (.fixed (reads_intLe _)) (.cons loop ?_))
  rw [dif_pos tintColor.fits]
  exact .nil _

/-! ## Round trip -/

inductive MiscValue
  | byteArraySignedVarInt (value : List UInt8)
  | loginTokens (value : LoginTokens)
  | behaviorPackInfos (value : MiscBehaviorPackInfos)
  | texturePackInfos (value : MiscTexturePackInfos)
  | resourcePackIdVersions (value : MiscResourcePackIdVersions)
  | experiments (value : MiscExperiments)
  | gameRules (value : MiscGameRules)
  | educationSharedResourceUri (value : MiscEducationSharedResourceUri)
  | itemStates (value : MiscItemStates)
  | blockProperties (value : MiscBlockProperties)
  | skinAnimation (value : MiscSkinAnimation)
  | skinPersona (value : MiscSkinPersona)
  | skinPersonaTintColor (value : MiscSkinPersonaTintColor)

inductive MiscKind
  | byteArraySignedVarInt
  | loginTokens
  | behaviorPackInfos
  | texturePackInfos
  | resourcePackIdVersions
  | experiments
  | gameRules
  | educationSharedResourceUri
  | itemStates
  | blockProperties
  | skinAnimation
  | skinPersona
  | skinPersonaTintColor
  deriving DecidableEq

/-- The getter of a kind. -/
def MiscKind.get : MiscKind → Reader MiscValue
  | byteArraySignedVarInt => .byteArraySignedVarInt <$> getMiscByteArraySignedVarInt
  | loginTokens => .loginTokens <$> getMiscLoginTokens
  | behaviorPackInfos => .behaviorPackInfos <$> getMiscBehaviorPackInfos
  | texturePackInfos => .texturePackInfos <$> getMiscTexturePackInfos
  | resourcePackIdVersions => .resourcePackIdVersions <$> getMiscResourcePackIdVersions
  | experiments => .experiments <$> getMiscExperiments
  | gameRules => .gameRules <$> getMiscGameRules
  | educationSharedResourceUri => .educationSharedResourceUri <$> getMiscEducationSharedResourceUri
  | itemStates => .itemStates <$> getMiscItemStates
  | blockProperties => .blockProperties <$> getMiscBlockProperties
  | skinAnimation => .skinAnimation <$> getMiscSkinAnimation
  | skinPersona => .skinPersona <$> getMiscSkinPersona
  | skinPersonaTintColor => .skinPersonaTintColor <$> getMiscSkinPersonaTintColor

namespace MiscValue

def put : MiscValue → Option (List UInt8)
  | byteArraySignedVarInt value => some (putMiscByteArraySignedVarInt value)
  | loginTokens value => putMiscLoginTokens value
  | behaviorPackInfos value => putMiscBehaviorPackInfos value
  | texturePackInfos value => putMiscTexturePackInfos value
  | resourcePackIdVersions value => putMiscResourcePackIdVersions value
  | experiments value => putMiscExperiments value
  | gameRules value => putMiscGameRules value
  | educationSharedResourceUri value => putMiscEducationSharedResourceUri value
  | itemStates value => putMiscItemStates value
  | blockProperties value => putMiscBlockProperties value
  | skinAnimation value => putMiscSkinAnimation value
  | skinPersona value => putMiscSkinPersona value
  | skinPersonaTintColor value => putMiscSkinPersonaTintColor value

def kind : MiscValue → MiscKind
  | byteArraySignedVarInt _ => .byteArraySignedVarInt
  | loginTokens _ => .loginTokens
  | behaviorPackInfos _ => .behaviorPackInfos
  | texturePackInfos _ => .texturePackInfos
  | resourcePackIdVersions _ => .resourcePackIdVersions
  | experiments _ => .experiments
  | gameRules _ => .gameRules
  | educationSharedResourceUri _ => .educationSharedResourceUri
  | itemStates _ => .itemStates
  | blockProperties _ => .blockProperties
  | skinAnimation _ => .skinAnimation
  | skinPersona _ => .skinPersona
  | skinPersonaTintColor _ => .skinPersonaTintColor

/-- Strings and arrays are no longer than an `int` counts, and a size says how
many entries there are. -/
def Fits : MiscValue → Prop
  | byteArraySignedVarInt value => value.length < 2 ^ 31
  | loginTokens value => value.identity.length + 1 < 2 ^ 31 ∧ value.client.length + 1 < 2 ^ 31
  | behaviorPackInfos value => value.Full Int16.toNatClampNeg fun info => Short info.strings
  | texturePackInfos value => value.Full Int16.toNatClampNeg fun info => Short info.strings
  | resourcePackIdVersions value => value.Full UInt32.toNat fun pack => Short pack.strings
  | experiments value => value.Full Int32.toNatClampNeg fun entry => Short [entry.name]
  | gameRules value => value.Full UInt32.toNat fun rule => Short [rule.name]
  | educationSharedResourceUri value => Short [value.buttonName, value.linkUri]
  | itemStates value => value.Full UInt32.toNat fun state => Short [state.name]
  | blockProperties value => value.Full UInt32.toNat MiscBlockProperty.Fits
  | skinAnimation value => Short [value.image.data]
  | skinPersona value => Short value.strings
  | skinPersonaTintColor value =>
      Short (value.pieceType :: value.colors) ∧ value.colors.length < 2 ^ 31

end MiscValue

theorem returns_miscValue {value : MiscValue} (fits : value.Fits) :
    Returns value.put value.kind.get value := by
  cases value with
  | byteArraySignedVarInt value => exact .functor _ (.fixed (reads_byteArraySignedVarInt fits))
  | loginTokens value => exact .functor _ (returns_loginTokens fits.1 fits.2)
  | behaviorPackInfos value =>
      exact .functor _ (returns_counted reads_shortLe returns_behaviorPackInfo fits)
  | texturePackInfos value =>
      exact .functor _ (returns_counted reads_shortLe returns_texturePackInfo fits)
  | resourcePackIdVersions value =>
      exact .functor _ (returns_counted reads_varInt returns_resourcePackIdVersion fits)
  | experiments value => exact .functor _ (returns_counted reads_intLe returns_experiment fits)
  | gameRules value => exact .functor _ (returns_counted reads_varInt returns_gameRule fits)
  | educationSharedResourceUri value =>
      exact .functor _ (returns_educationSharedResourceUri fits)
  | itemStates value => exact .functor _ (returns_counted reads_varInt returns_itemState fits)
  | blockProperties value =>
      exact .functor _ (returns_counted reads_varInt returns_blockProperty fits)
  | skinAnimation value => exact .functor _ (returns_skinAnimation fits)
  | skinPersona value => exact .functor _ (returns_skinPersona fits)
  | skinPersonaTintColor value =>
      exact .functor _ (returns_skinPersonaTintColor fits.1 fits.2)

/-- What is written for a value comes back as that value, whatever follows. -/
theorem miscValue_roundTrip (value : MiscValue) (fits : value.Fits) :
    ∃ bytes, value.put = some bytes ∧
      ∀ rest, value.kind.get (bytes ++ rest) = some (value, rest) :=
  returns_miscValue fits

/-- One rule of each member of the union, and one of none. -/
def fourRules : MiscGameRules where
  size := 4
  entries :=
    [⟨[0x61], 1, .boolean 1⟩, ⟨[0x62], 0, .signedVarInt (-3)⟩, ⟨[], 1, .floatLe 0x3f800000⟩,
      ⟨[0x63, 0x64], 1, .unset 7 (by decide)⟩]

theorem miscValue_roundTrip_fourRules :
    ∃ bytes, MiscValue.put (.gameRules fourRules) = some bytes ∧
      ∀ rest, MiscKind.get .gameRules (bytes ++ rest) =
        some (.gameRules fourRules, rest) :=
  miscValue_roundTrip (.gameRules fourRules) ⟨by decide, by decide⟩

end PodrumMinecraft.MiscValues
