import PodrumFormal.Lib.FieldRows
import PodrumFormal.Minecraft.Item
import PodrumFormal.Minecraft.MiscValues
import PodrumFormal.Minecraft.PacketPutters

/-!
# The fields of a packet

A packet is put by a row of calls, one for each field.  A call is a field here:
its function and the value that it is given.  For each function there is a
reader of what it wrote, so that the value is told by its bytes.
-/

set_option autoImplicit false

namespace PodrumMinecraft.PacketFields

open ByteReader ByteWriter CountedArray FieldRows PodrumStream.BinaryStream PodrumStream.VarInt
open PodrumNbt.Tag PodrumNbt.RoundTrip Misc Skin SkinEncoding Item PacketGetters PacketPutters
open MiscValues

/-! ## Attributes -/

/-- Floats are bit patterns. -/
structure MiscAttributeModifier where
  id : List UInt8
  name : List UInt8
  amount : UInt32
  operation : Int32
  operand : Int32
  canSerialize : UInt8
  deriving DecidableEq

structure MiscAttribute where
  min : UInt32
  max : UInt32
  current : UInt32
  defaultV : UInt32
  id : List UInt8
  attributeModifier : Counted UInt32 MiscAttributeModifier
  deriving DecidableEq

def putMiscAttributeModifier (modifier : MiscAttributeModifier) : Option (List UInt8) :=
  joined [putMiscStringVarInt modifier.id, putMiscStringVarInt modifier.name,
    some (putFloatLe modifier.amount), some (putIntLe modifier.operation),
    some (putIntLe modifier.operand), some (putUnsignedByte modifier.canSerialize)]

def putMiscAttributes (value : MiscAttribute) : Option (List UInt8) :=
  joined [some (putFloatLe value.min), some (putFloatLe value.max),
    some (putFloatLe value.current), some (putFloatLe value.defaultV),
    putMiscStringVarInt value.id,
    putCounted putVarInt UInt32.toNat putMiscAttributeModifier value.attributeModifier]

def readAttributeModifier : Reader MiscAttributeModifier := do
  let id ← getMiscStringVarInt
  let name ← getMiscStringVarInt
  let amount ← getFloatLe
  let operation ← getIntLe
  let operand ← getIntLe
  let canSerialize ← getUnsignedByte
  pure { id, name, amount, operation, operand, canSerialize }

def readAttribute : Reader MiscAttribute := do
  let min ← getFloatLe
  let max ← getFloatLe
  let current ← getFloatLe
  let defaultV ← getFloatLe
  let id ← getMiscStringVarInt
  let attributeModifier ← getCounted getVarInt UInt32.toNat readAttributeModifier
  pure { min, max, current, defaultV, id, attributeModifier }

structure MiscAttribute.Fits (value : MiscAttribute) : Prop where
  short : Short [value.id]
  modifiers : value.attributeModifier.Full UInt32.toNat fun modifier =>
    Short [modifier.id, modifier.name]

theorem returns_attributeModifier (modifier : MiscAttributeModifier)
    (short : Short [modifier.id, modifier.name]) :
    Returns (putMiscAttributeModifier modifier) readAttributeModifier modifier := by
  obtain ⟨id, others⟩ := short_cons.mp short
  obtain ⟨name, -⟩ := short_cons.mp others
  exact .cons (returns_string id) (.cons (returns_string name)
    (.cons (.fixed (reads_unsignedIntLe _)) (.cons (.fixed (reads_intLe _))
    (.cons (.fixed (reads_intLe _)) (.cons (.fixed (reads_unsignedByte _)) (.nil _))))))

theorem returns_attribute (value : MiscAttribute) (fits : value.Fits) :
    Returns (putMiscAttributes value) readAttribute value :=
  .cons (.fixed (reads_unsignedIntLe _)) (.cons (.fixed (reads_unsignedIntLe _))
    (.cons (.fixed (reads_unsignedIntLe _)) (.cons (.fixed (reads_unsignedIntLe _))
    (.cons (returns_string (short_cons.mp fits.short).1)
    (.cons (returns_counted reads_varInt returns_attributeModifier fits.modifiers) (.nil _))))))

/-! ## Items of the creative inventory -/

/-- An item behind its entry id. -/
def putCreativeItem (entry : UInt32 × MiscItem) : Option (List UInt8) :=
  some (putVarInt entry.1 ++ putMiscItem entry.2 0)

def readCreativeItem : Reader (UInt32 × MiscItem) := do
  let entryId ← getVarInt
  let item ← getMiscItem 0 blankItem
  pure (entryId, item)

structure CreativeFits (entry : UInt32 × MiscItem) : Prop where
  wellFormed : WellFormedItem entry.2
  extra : ExtraFits entry.2

/-- The entry with the fields of its item that are written. -/
def carriedEntry (entry : UInt32 × MiscItem) : UInt32 × MiscItem :=
  (entry.1, carried 0 blankItem entry.2)

def carriedEntries (entries : Counted UInt32 (UInt32 × MiscItem)) :
    Counted UInt32 (UInt32 × MiscItem) :=
  { entries with entries := entries.entries.map carriedEntry }

theorem returns_creativeItem (entry : UInt32 × MiscItem) (fits : CreativeFits entry) :
    Returns (putCreativeItem entry) readCreativeItem (carriedEntry entry) :=
  .fixed ((reads_varInt entry.1).bind
    ((reads_item 0 blankItem fits.wellFormed fits.extra).bind_pure (Reads.pure _)))

theorem returns_creativeItems {entries : Counted UInt32 (UInt32 × MiscItem)}
    (full : entries.Full UInt32.toNat CreativeFits) :
    Returns (putCounted putVarInt UInt32.toNat putCreativeItem entries)
      (getCounted getVarInt UInt32.toNat readCreativeItem) (carriedEntries entries) := by
  have loop : Returns (putCount putCreativeItem (entries.entries.take entries.size.toNat))
      (readCount readCreativeItem entries.size.toNat) (entries.entries.map carriedEntry) := by
    rw [← full.length, List.take_length]
    exact Returns.countMap fun entry member => returns_creativeItem entry (full.each entry member)
  exact .cons (.fixed (reads_varInt _)) (.cons loop (.nil _))

/-! ## Whole skins -/

/-- The loops that `get_misc_skin` leaves out are in it, and there are never too
many entries for their counts. -/
def readFullSkin : Reader FullSkin := do
  let skinId ← getMiscStringVarInt
  let playFabId ← getMiscStringVarInt
  let resourcesPatch ← getMiscStringVarInt
  let skinImage ← getMiscSkinImage
  let animationCount ← getIntLe
  let animations ← readCount getMiscSkinAnimation animationCount.toUInt32.toNat
  let capeImage ← getMiscSkinImage
  let geometryData ← getMiscStringVarInt
  let geometryEngineVersion ← getMiscStringVarInt
  let animationData ← getMiscStringVarInt
  let capeId ← getMiscStringVarInt
  let fullSkinId ← getMiscStringVarInt
  let armSize ← getMiscStringVarInt
  let skinColor ← getMiscStringVarInt
  let personaCount ← getIntLe
  let personas ← readCount getMiscSkinPersona personaCount.toUInt32.toNat
  let personaTintColorCount ← getIntLe
  let personaTintColors ←
    readCount getMiscSkinPersonaTintColor personaTintColorCount.toUInt32.toNat
  let isPremium ← getUnsignedByte
  let isPersona ← getUnsignedByte
  let isPersonaCapeClassic ← getUnsignedByte
  let isPrimaryUser ← getUnsignedByte
  let isOverride ← getUnsignedByte
  if fit : animations.length < 2 ^ 32 ∧ personas.length < 2 ^ 32 ∧
      personaTintColors.length < 2 ^ 32 then
    pure { skinId, playFabId, resourcesPatch, skinImage, animations, capeImage, geometryData,
           geometryEngineVersion, animationData, capeId, fullSkinId, armSize, skinColor, personas,
           personaTintColors, isPremium, isPersona, isPersonaCapeClassic, isPrimaryUser,
           isOverride, animationsFit := fit.1, personasFit := fit.2.1,
           personaTintColorsFit := fit.2.2 }
  else writeOutside

structure SkinFits (skin : FullSkin) : Prop where
  short : Short skin.strings
  animations : ∀ animation ∈ skin.animations, Short [animation.image.data]
  personas : ∀ persona ∈ skin.personas, Short persona.strings
  colors : ∀ tintColor ∈ skin.personaTintColors, Short (tintColor.pieceType :: tintColor.colors)
  countable : ∀ tintColor ∈ skin.personaTintColors, tintColor.colors.length < 2 ^ 31

theorem returns_entries {α : Type} {put : α → Option (List UInt8)} {reader : Reader α}
    {values : List α} (fits : values.length < 2 ^ 32)
    (each : ∀ value ∈ values, Returns (put value) reader value) :
    Returns (putCount put values) (readCount reader (countField values).toUInt32.toNat)
      values := by
  rw [countField_turns fits]
  exact Returns.count each

theorem returns_fullSkin {skin : FullSkin} (fits : SkinFits skin) :
    Returns (putMiscSkin skin) readFullSkin skin := by
  have short := fits.short
  simp only [FullSkin.strings, short_cons] at short
  obtain ⟨skinId, playFabId, resourcesPatch, skinImage, capeImage, geometryData,
    geometryEngineVersion, animationData, capeId, fullSkinId, armSize, skinColor, nil⟩ := short
  have animations := returns_entries skin.animationsFit fun animation member =>
    returns_skinAnimation (fits.animations animation member)
  have personas := returns_entries skin.personasFit fun persona member =>
    returns_skinPersona (fits.personas persona member)
  have tintColors := returns_entries skin.personaTintColorsFit fun tintColor member =>
    returns_skinPersonaTintColor (fits.colors tintColor member) (fits.countable tintColor member)
  refine .cons (returns_string skinId) (.cons (returns_string playFabId)
    (.cons (returns_string resourcesPatch)
    (.cons (returns_skinImage (short_cons.mpr ⟨skinImage, nil⟩))
    (.cons (.fixed (reads_intLe _)) (.cons animations
    (.cons (returns_skinImage (short_cons.mpr ⟨capeImage, nil⟩))
    (.cons (returns_string geometryData) (.cons (returns_string geometryEngineVersion)
    (.cons (returns_string animationData) (.cons (returns_string capeId)
    (.cons (returns_string fullSkinId) (.cons (returns_string armSize)
    (.cons (returns_string skinColor) (.cons (.fixed (reads_intLe _)) (.cons personas
    (.cons (.fixed (reads_intLe _)) (.cons tintColors
    (.cons (.fixed (reads_unsignedByte _)) (.cons (.fixed (reads_unsignedByte _))
    (.cons (.fixed (reads_unsignedByte _)) (.cons (.fixed (reads_unsignedByte _))
    (.cons (.fixed (reads_unsignedByte _)) ?_))))))))))))))))))))))
  rw [dif_pos ⟨skin.animationsFit, skin.personasFit, skin.personaTintColorsFit⟩]
  exact .nil _

/-! ## Fields -/

inductive Field
  | unsignedByte (value : UInt8)
  | byte (value : Int8)
  | unsignedShortLe (value : UInt16)
  | shortLe (value : Int16)
  | intLe (value : Int32)
  | intBe (value : Int32)
  | unsignedLongLe (value : UInt64)
  | longLe (value : Int64)
  | floatLe (bits : UInt32)
  | varInt (value : UInt32)
  | signedVarInt (value : Int32)
  | varLong (value : UInt64)
  | signedVarLong (value : Int64)
  | string (value : List UInt8)
  | byteArray (value : List UInt8)
  | uuid (value : List UInt8)
  | nbtTag (value : NbtNamed)
  | misc (value : MiscValue)
  | resourcePackIds (value : List (List UInt8))
  | parameters (value : List (List UInt8))
  | position (value : Position)
  | teleportCause (value : TeleportCause)
  | creativeItems (value : Counted UInt32 (UInt32 × MiscItem))
  | attributes (value : Counted UInt32 MiscAttribute)
  | hashes (value : List UInt64)
  | skin (value : FullSkin)
  | absent
  /-- A field that is put under a condition only. -/
  | when (present : Bool) (field : Field)

def putHashes (hashes : List UInt64) : List UInt8 :=
  putVarInt (UInt32.ofNat hashes.length) ++ hashes.flatMap putUnsignedLongLe

def readHashes : Reader (List UInt64) := do
  let hashesCount ← getVarInt
  readCount getUnsignedLongLe hashesCount.toNat

def readStrings : Reader (List (List UInt8)) := do
  let count ← getVarInt
  readCount getMiscStringVarInt count.toNat

namespace Field

def put : Field → Option (List UInt8)
  | unsignedByte value => some (putUnsignedByte value)
  | byte value => some (putByte value)
  | unsignedShortLe value => some (putUnsignedShortLe value)
  | shortLe value => some (putShortLe value)
  | intLe value => some (putIntLe value)
  | intBe value => some (putIntBe value)
  | unsignedLongLe value => some (putUnsignedLongLe value)
  | longLe value => some (putLongLe value)
  | floatLe bits => some (putFloatLe bits)
  | varInt value => some (putVarInt value)
  | signedVarInt value => some (putSignedVarInt value)
  | varLong value => some (putVarLong value)
  | signedVarLong value => some (putSignedVarLong value)
  | string value => putMiscStringVarInt value
  | byteArray value => some (putMiscByteArrayVarInt value)
  | uuid value => some (putBytes value)
  | nbtTag value => some (putMiscNbtTag value)
  | misc value => value.put
  | resourcePackIds value => putMiscResourcePackIds value
  | parameters value => putParameters value
  | position value => putPosition value
  | teleportCause value => putTeleportCause value
  | creativeItems value => putCounted putVarInt UInt32.toNat putCreativeItem value
  | attributes value => putCounted putVarInt UInt32.toNat putMiscAttributes value
  | hashes value => some (putHashes value)
  | skin value => putMiscSkin value
  | absent => some []
  | when present field => putWhen present field.put

/-- The reader of the kind, whatever the value. -/
def get : Field → Reader Field
  | unsignedByte _ => .unsignedByte <$> getUnsignedByte
  | byte _ => .byte <$> getByte
  | unsignedShortLe _ => .unsignedShortLe <$> getUnsignedShortLe
  | shortLe _ => .shortLe <$> getShortLe
  | intLe _ => .intLe <$> getIntLe
  | intBe _ => .intBe <$> getIntBe
  | unsignedLongLe _ => .unsignedLongLe <$> getUnsignedLongLe
  | longLe _ => .longLe <$> getLongLe
  | floatLe _ => .floatLe <$> getFloatLe
  | varInt _ => .varInt <$> getVarInt
  | signedVarInt _ => .signedVarInt <$> getSignedVarInt
  | varLong _ => .varLong <$> getVarLong
  | signedVarLong _ => .signedVarLong <$> getSignedVarLong
  | string _ => .string <$> getMiscStringVarInt
  | byteArray _ => .byteArray <$> getMiscByteArrayVarInt
  | uuid _ => .uuid <$> getBytes 16
  | nbtTag _ => .nbtTag <$> getMiscNbtTag
  | misc value => .misc <$> value.kind.get
  | resourcePackIds _ => (.resourcePackIds ·.ids) <$> getMiscResourcePackIds
  | parameters _ => .parameters <$> readStrings
  | position _ => .position <$> getPosition
  | teleportCause _ => .teleportCause <$> getTeleportCause
  | creativeItems _ => .creativeItems <$> getCounted getVarInt UInt32.toNat readCreativeItem
  | attributes _ => .attributes <$> getCounted getVarInt UInt32.toNat readAttribute
  | hashes _ => .hashes <$> readHashes
  | skin _ => .skin <$> readFullSkin
  | absent => pure .absent
  | when present field => readWhen present field.get .absent

/-- What the bytes tell of a field. -/
@[simp] def seen : Field → Field
  | creativeItems value => .creativeItems (carriedEntries value)
  | when present field => if present then field.seen else .absent
  | field => field

def Fits : Field → Prop
  | string value => Short [value]
  | byteArray value => value.length < 2 ^ 32
  | uuid value => value.length = 16
  | nbtTag value => NetworkTag value
  | misc value => value.Fits
  | resourcePackIds value => Short value ∧ value.length < 2 ^ 15
  | parameters value => Short value ∧ value.length < 2 ^ 32
  | creativeItems value => value.Full UInt32.toNat CreativeFits
  | attributes value => value.Full UInt32.toNat MiscAttribute.Fits
  | hashes value => value.length < 2 ^ 32
  | skin value => SkinFits value
  | when present field => present = true → field.Fits
  | _ => True

end Field

theorem reads_hashes {hashes : List UInt64} (fewer : hashes.length < 2 ^ 32) :
    Reads readHashes (putHashes hashes) hashes := by
  apply (reads_varInt _).bind
  have each := @Reads.count _ _ _ _ id hashes fun hash _ => reads_unsignedLongLe hash
  rw [List.map_id] at each
  rwa [UInt32.toNat_ofNat_of_lt' fewer]

theorem returns_parameters {parameters : List (List UInt8)} (short : Short parameters)
    (fewer : parameters.length < 2 ^ 32) :
    Returns (putParameters parameters) readStrings parameters := by
  have loop : Returns (putCount putMiscStringVarInt parameters)
      (readCount getMiscStringVarInt (UInt32.ofNat parameters.length).toNat) parameters := by
    rw [UInt32.toNat_ofNat_of_lt' fewer]
    exact Returns.count fun text member => returns_string (short text member)
  obtain ⟨block, written, reads⟩ := loop
  exact .cons (.fixed (reads_varInt _))
    ⟨block, joined_cons.mpr ⟨block, [], written, rfl, List.append_nil _⟩, reads⟩

theorem returns_position (position : Position) :
    Returns (putPosition position) getPosition position :=
  .cons (.fixed (reads_unsignedIntLe _)) (.cons (.fixed (reads_unsignedIntLe _))
    (.cons (.fixed (reads_unsignedIntLe _)) (.nil _)))

theorem returns_teleport (teleport : TeleportCause) :
    Returns (putTeleportCause teleport) getTeleportCause teleport :=
  .cons (.fixed (reads_intLe _)) (.cons (.fixed (reads_intLe _)) (.nil _))

theorem returns_resourcePackIds {ids : List (List UInt8)} (short : Short ids)
    (fewer : ids.length < 2 ^ 15) :
    Returns (putMiscResourcePackIds ids) getMiscResourcePackIds
      ⟨Int16.ofNat ids.length, ids⟩ := by
  have loop : Returns (putCount putMiscStringVarInt ids)
      (readCount getMiscStringVarInt (Int16.ofNat ids.length).toNatClampNeg) ids := by
    rw [Int16.toNatClampNeg_ofNat_of_lt fewer]
    exact Returns.count fun text member => returns_string (short text member)
  exact .cons (.fixed (reads_shortLe _)) (.cons loop (.nil _))

theorem returns_field (field : Field) (fits : field.Fits) :
    Returns field.put field.get field.seen := by
  induction field with
  | unsignedByte value => exact .functor _ (.fixed (reads_unsignedByte value))
  | byte value => exact .functor _ (.fixed (reads_byte value))
  | unsignedShortLe value => exact .functor _ (.fixed (reads_unsignedShortLe value))
  | shortLe value => exact .functor _ (.fixed (reads_shortLe value))
  | intLe value => exact .functor _ (.fixed (reads_intLe value))
  | intBe value => exact .functor _ (.fixed (reads_intBe value))
  | unsignedLongLe value => exact .functor _ (.fixed (reads_unsignedLongLe value))
  | longLe value => exact .functor _ (.fixed (reads_longLe value))
  | floatLe bits => exact .functor _ (.fixed (reads_unsignedIntLe bits))
  | varInt value => exact .functor _ (.fixed (reads_varInt value))
  | signedVarInt value => exact .functor _ (.fixed (reads_signedVarInt value))
  | varLong value => exact .functor _ (.fixed (reads_varLong value))
  | signedVarLong value => exact .functor _ (.fixed (reads_signedVarLong value))
  | string value => exact .functor _ (returns_string (short_cons.mp fits).1)
  | byteArray value => exact .functor _ (.fixed (reads_byteArrayVarInt fits))
  | uuid value =>
      have reads := reads_bytes value
      rw [show value.length = 16 from fits] at reads
      exact .functor _ (.fixed reads)
  | nbtTag value => exact .functor _ (.fixed (reads_nbtTag fits))
  | misc value => exact .functor _ (returns_miscValue fits)
  | resourcePackIds value => exact .functor _ (returns_resourcePackIds fits.1 fits.2)
  | parameters value => exact .functor _ (returns_parameters fits.1 fits.2)
  | position value => exact .functor _ (returns_position value)
  | teleportCause value => exact .functor _ (returns_teleport value)
  | creativeItems value => exact .functor _ (returns_creativeItems fits)
  | attributes value =>
      exact .functor _ (returns_counted reads_varInt returns_attribute fits)
  | hashes value => exact .functor _ (.fixed (reads_hashes fits))
  | skin value => exact .functor _ (returns_fullSkin fits)
  | absent => exact .fixed (Reads.pure _)
  | when present field ih => exact .present present fun given => ih (fits given)

/-! ## Rows -/

def AllFit (fields : List Field) : Prop := ∀ field ∈ fields, field.Fits

namespace AllFit

variable {fields : List Field}

theorem take (fit : AllFit fields) (count : Nat) : AllFit (fields.take count) :=
  fun field member => fit field (List.mem_of_mem_take member)

theorem drop (fit : AllFit fields) (count : Nat) : AllFit (fields.drop count) :=
  fun field member => fit field (List.mem_of_mem_drop member)

/-- What fits is written. -/
theorem isSome (fit : AllFit fields) : ∃ block, joined (fields.map Field.put) = some block := by
  apply joined_isSome.mpr
  intro part member
  obtain ⟨field, listed, rfl⟩ := List.mem_map.mp member
  obtain ⟨block, written, -⟩ := returns_field field (fit field listed)
  exact ⟨block, written⟩

end AllFit

/-- Rows of the same calls. -/
theorem separates_kinds {first second : List Field}
    (kinds : first.map Field.get = second.map Field.get) (fit : AllFit first)
    (fit' : AllFit second) : Separates Field.put Field.seen first second :=
  .ofKinds (fun field fits => (returns_field field fits).encodes) kinds fit fit'

end PodrumMinecraft.PacketFields
