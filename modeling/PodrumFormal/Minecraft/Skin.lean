import PodrumFormal.Minecraft.Misc

/-!
# Skins

The getters of a skin.  Nothing sets the pointer `animations`, and the pieces
and the tint colours of a persona are skipped.  In
`stream->offset += get_var_int(stream)` the call comes first.
-/

set_option autoImplicit false

namespace PodrumMinecraft.Skin

open ByteReader PodrumStream.BinaryStream PodrumStream.VarInt Misc

structure MiscSkinImage where
  width : Int32
  height : Int32
  data : List UInt8
  deriving DecidableEq

/-- The frames are the bit pattern of a float. -/
structure MiscSkinAnimation where
  image : MiscSkinImage
  type : Int32
  frames : UInt32
  expressionType : Int32
  deriving DecidableEq

structure MiscSkin where
  skinId : List UInt8
  playFabId : List UInt8
  resourcesPatch : List UInt8
  skinImage : MiscSkinImage
  animationCount : Int32
  capeImage : MiscSkinImage
  geometryData : List UInt8
  geometryEngineVersion : List UInt8
  animationData : List UInt8
  capeId : List UInt8
  fullSkinId : List UInt8
  armSize : List UInt8
  skinColor : List UInt8
  personaCount : Int32
  personaTintColorCount : Int32
  isPremium : UInt8
  isPersona : UInt8
  isPersonaCapeClassic : UInt8
  isPrimaryUser : UInt8
  isOverride : UInt8
  deriving DecidableEq

def getMiscSkinImage : Reader MiscSkinImage := do
  let width ← getIntLe
  let height ← getIntLe
  let data ← getMiscStringVarInt
  pure { width, height, data }

def getMiscSkinAnimation : Reader MiscSkinAnimation := do
  let image ← getMiscSkinImage
  let type ← getIntLe
  let frames ← getFloatLe
  let expressionType ← getIntLe
  pure { image, type, frames, expressionType }

/-- The first animation is written through `animations`. -/
def getAnimations (animationCount : Int32) : Reader Unit :=
  if animationCount = 0 then pure ()
  else do
    let _ ← getMiscSkinAnimation
    writeOutside

/-! ## Skipped parts -/

def skipString : Reader Unit := do
  let size ← getVarInt
  skip size.toNat

/-- The sum is one of 32 bits. -/
def skipStringAndByte : Reader Unit := do
  let size ← getVarInt
  skip (size + 1).toNat

def skipPersona : Reader Unit := do
  skipString
  skipString
  skipStringAndByte
  skipString

/-- The counter is unsigned, and so is the comparison with the count. -/
def skipPersonas (hack0 : Int32) : Reader (List Unit) :=
  readCount skipPersona hack0.toUInt32.toNat

/-- A turn of the loop whose test reads the number of colours again. -/
def skipColor (i : UInt32) : Reader (Option UInt32) := do
  let colorCount ← getIntLe
  if i < colorCount.toUInt32 then do
    skipString
    pure (some (i + 1))
  else pure none

def skipTintColor : Reader Unit := do
  skipString
  loop skipColor 0

def skipTintColors (hack1 : Int32) : Reader (List Unit) :=
  readCount skipTintColor hack1.toUInt32.toNat

/-! ## The skin -/

def getMiscSkin : Reader MiscSkin := do
  let skinId ← getMiscStringVarInt
  let playFabId ← getMiscStringVarInt
  let resourcesPatch ← getMiscStringVarInt
  let skinImage ← getMiscSkinImage
  let animationCount ← getIntLe
  getAnimations animationCount
  let capeImage ← getMiscSkinImage
  let geometryData ← getMiscStringVarInt
  let geometryEngineVersion ← getMiscStringVarInt
  let animationData ← getMiscStringVarInt
  let capeId ← getMiscStringVarInt
  let fullSkinId ← getMiscStringVarInt
  let armSize ← getMiscStringVarInt
  let skinColor ← getMiscStringVarInt
  let hack0 ← getIntLe
  let _ ← skipPersonas hack0
  let hack1 ← getIntLe
  let _ ← skipTintColors hack1
  let isPremium ← getUnsignedByte
  let isPersona ← getUnsignedByte
  let isPersonaCapeClassic ← getUnsignedByte
  let isPrimaryUser ← getUnsignedByte
  let isOverride ← getUnsignedByte
  pure { skinId, playFabId, resourcesPatch, skinImage, animationCount, capeImage, geometryData,
         geometryEngineVersion, animationData, capeId, fullSkinId, armSize, skinColor,
         personaCount := 0, personaTintColorCount := 0, isPremium, isPersona,
         isPersonaCapeClassic, isPrimaryUser, isOverride }

end PodrumMinecraft.Skin
