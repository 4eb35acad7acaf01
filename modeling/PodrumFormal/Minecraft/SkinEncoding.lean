import PodrumFormal.Lib.ByteWriter
import PodrumFormal.Minecraft.SkinFormat

/-!
# Encoded skins

What `put_misc_skin` writes and what the getter makes of it.  The loop over the
colours of a tint colour reads their number again in each turn, so that it
stays with the encoding only where the bytes of the strings happen to be such
numbers.
-/

set_option autoImplicit false

namespace PodrumMinecraft.SkinEncoding

open ByteReader ByteWriter ByteLayout ByteFormat PodrumStream.BinaryStream PodrumStream.VarInt
open PodrumStream.StreamLayout Misc Skin SkinFormat

/-! ## The skin as it is written -/

structure MiscSkinPersona where
  pieceId : List UInt8
  pieceType : List UInt8
  packId : List UInt8
  isPieceDefault : UInt8
  productId : List UInt8
  deriving DecidableEq

/-- The count of an array is a field of 32 bits. -/
structure MiscSkinPersonaTintColor where
  pieceType : List UInt8
  colors : List (List UInt8)
  fits : colors.length < 2 ^ 32

structure FullSkin where
  skinId : List UInt8
  playFabId : List UInt8
  resourcesPatch : List UInt8
  skinImage : MiscSkinImage
  animations : List MiscSkinAnimation
  capeImage : MiscSkinImage
  geometryData : List UInt8
  geometryEngineVersion : List UInt8
  animationData : List UInt8
  capeId : List UInt8
  fullSkinId : List UInt8
  armSize : List UInt8
  skinColor : List UInt8
  personas : List MiscSkinPersona
  personaTintColors : List MiscSkinPersonaTintColor
  isPremium : UInt8
  isPersona : UInt8
  isPersonaCapeClassic : UInt8
  isPrimaryUser : UInt8
  isOverride : UInt8
  animationsFit : animations.length < 2 ^ 32
  personasFit : personas.length < 2 ^ 32
  personaTintColorsFit : personaTintColors.length < 2 ^ 32

/-- The count field of an array. -/
def countField {α : Type} (values : List α) : Int32 := Int32.ofNat values.length

theorem countField_turns {α : Type} {values : List α} (fits : values.length < 2 ^ 32) :
    (countField values).toUInt32.toNat = values.length := by
  rw [countField, Int32.toUInt32_ofNat']
  exact UInt32.toNat_ofNat_of_lt' fits

def putMiscSkinImage (image : MiscSkinImage) : Option (List UInt8) :=
  joined [some (putIntLe image.width), some (putIntLe image.height),
    putMiscStringVarInt image.data]

def putMiscSkinAnimation (animation : MiscSkinAnimation) : Option (List UInt8) :=
  joined [putMiscSkinImage animation.image, some (putIntLe animation.type),
    some (putFloatLe animation.frames), some (putIntLe animation.expressionType)]

def putMiscSkinPersona (persona : MiscSkinPersona) : Option (List UInt8) :=
  joined [putMiscStringVarInt persona.pieceId, putMiscStringVarInt persona.pieceType,
    putMiscStringVarInt persona.packId, some (putUnsignedByte persona.isPieceDefault),
    putMiscStringVarInt persona.productId]

def putMiscSkinPersonaTintColor (tintColor : MiscSkinPersonaTintColor) : Option (List UInt8) :=
  joined [putMiscStringVarInt tintColor.pieceType, some (putIntLe (countField tintColor.colors)),
    putCount putMiscStringVarInt tintColor.colors]

def putMiscSkin (skin : FullSkin) : Option (List UInt8) :=
  joined [putMiscStringVarInt skin.skinId, putMiscStringVarInt skin.playFabId,
    putMiscStringVarInt skin.resourcesPatch, putMiscSkinImage skin.skinImage,
    some (putIntLe (countField skin.animations)), putCount putMiscSkinAnimation skin.animations,
    putMiscSkinImage skin.capeImage, putMiscStringVarInt skin.geometryData,
    putMiscStringVarInt skin.geometryEngineVersion, putMiscStringVarInt skin.animationData,
    putMiscStringVarInt skin.capeId, putMiscStringVarInt skin.fullSkinId,
    putMiscStringVarInt skin.armSize, putMiscStringVarInt skin.skinColor,
    some (putIntLe (countField skin.personas)), putCount putMiscSkinPersona skin.personas,
    some (putIntLe (countField skin.personaTintColors)),
    putCount putMiscSkinPersonaTintColor skin.personaTintColors,
    some (putUnsignedByte skin.isPremium), some (putUnsignedByte skin.isPersona),
    some (putUnsignedByte skin.isPersonaCapeClassic), some (putUnsignedByte skin.isPrimaryUser),
    some (putUnsignedByte skin.isOverride)]

/-! ## What the getter returns of it -/

def MiscSkinImage.convert (change : List UInt8 → List UInt8) (image : MiscSkinImage) :
    MiscSkinImage := { image with data := change image.data }

/-- The fields that the getter sets, with a change to their strings.  The pieces
and the tint colours are left out. -/
def FullSkin.read (change : List UInt8 → List UInt8) (skin : FullSkin) : MiscSkin where
  skinId := change skin.skinId
  playFabId := change skin.playFabId
  resourcesPatch := change skin.resourcesPatch
  skinImage := MiscSkinImage.convert change skin.skinImage
  animationCount := countField skin.animations
  capeImage := MiscSkinImage.convert change skin.capeImage
  geometryData := change skin.geometryData
  geometryEngineVersion := change skin.geometryEngineVersion
  animationData := change skin.animationData
  capeId := change skin.capeId
  fullSkinId := change skin.fullSkinId
  armSize := change skin.armSize
  skinColor := change skin.skinColor
  personaCount := 0
  personaTintColorCount := 0
  isPremium := skin.isPremium
  isPersona := skin.isPersona
  isPersonaCapeClassic := skin.isPersonaCapeClassic
  isPrimaryUser := skin.isPrimaryUser
  isOverride := skin.isOverride

def FullSkin.strings (skin : FullSkin) : List (List UInt8) :=
  [skin.skinId, skin.playFabId, skin.resourcesPatch, skin.skinImage.data, skin.capeImage.data,
    skin.geometryData, skin.geometryEngineVersion, skin.animationData, skin.capeId,
    skin.fullSkinId, skin.armSize, skin.skinColor]

def MiscSkinPersona.strings (persona : MiscSkinPersona) : List (List UInt8) :=
  [persona.pieceId, persona.pieceType, persona.packId, persona.productId]

theorem read_eq_iff {change : List UInt8 → List UInt8} {skin : FullSkin} :
    skin.read change = skin.read id ↔ ∀ text ∈ skin.strings, change text = text := by
  simp only [FullSkin.read, MiscSkinImage.convert, MiscSkin.mk.injEq, MiscSkinImage.mk.injEq, id,
    true_and, and_true, FullSkin.strings, List.forall_mem_cons]
  tauto

/-! ## The parts before the tint colours -/

theorem encodes_image (image : MiscSkinImage) :
    Encodes (putMiscSkinImage image) getMiscSkinImage (MiscSkinImage.convert cut image) :=
  .joined (.cons (.fixed (reads_intLe _)) (.cons (.fixed (reads_intLe _))
    (.cons (encodes_string _) (.nil _))))

/-- A string, and bytes behind it that its size is taken to count as well. -/
theorem encodes_passed {value passed : List UInt8} {count : UInt32 → Nat}
    (counts : (cut value).length < 2 ^ 31 →
      count (UInt32.ofNat (cut value).length) = (cut value).length + passed.length) :
    Encodes (joined [putMiscStringVarInt value, some passed])
      (do let size ← getVarInt; skip (count size)) () := by
  intro block written
  obtain ⟨first, others, string, last, rfl⟩ := joined_cons.mp written
  have writable := putMiscStringVarInt_isSome.mp ⟨first, string⟩
  rw [putMiscStringVarInt_writable writable] at string
  cases string
  cases last
  have short := length_cut_lt writable
  rw [List.append_nil, List.append_assoc]
  refine (reads_varInt _).bind ?_
  rw [counts short, putBytes, ← List.length_append]
  exact Reads.skip _

theorem encodes_skipString (value : List UInt8) :
    Encodes (putMiscStringVarInt value) skipString () := by
  intro block written
  have alone : joined [putMiscStringVarInt value, some []] = some block := by
    rw [written]
    simp [joined]
  refine @encodes_passed value [] (fun size => size.toNat) (fun short => ?_) block alone
  exact ofNat_size short

theorem encodes_skipStringAndByte (value : List UInt8) (byte : UInt8) :
    Encodes (joined [putMiscStringVarInt value, some (putUnsignedByte byte)])
      skipStringAndByte () := by
  refine @encodes_passed value (putUnsignedByte byte) (fun size => (size + 1).toNat)
    fun short => ?_
  rw [UInt32.toNat_add, ofNat_size short, UInt32.toNat_one]
  exact Nat.mod_eq_of_lt (by omega)

theorem encodes_persona (persona : MiscSkinPersona) :
    Encodes (putMiscSkinPersona persona) skipPersona () :=
  .joined (.cons (encodes_skipString _) (.cons (encodes_skipString _)
    (.block (encodes_skipStringAndByte _ _) (.last (encodes_skipString _)))))

/-! ## The tint colours -/

/-- The getter behind the tint colours. -/
def getFlags (skin : MiscSkin) : Reader MiscSkin := do
  let isPremium ← getUnsignedByte
  let isPersona ← getUnsignedByte
  let isPersonaCapeClassic ← getUnsignedByte
  let isPrimaryUser ← getUnsignedByte
  let isOverride ← getUnsignedByte
  pure { skin with isPremium, isPersona, isPersonaCapeClassic, isPrimaryUser, isOverride }

def flagParts (skin : FullSkin) : List (Option (List UInt8)) :=
  [some (putUnsignedByte skin.isPremium), some (putUnsignedByte skin.isPersona),
    some (putUnsignedByte skin.isPersonaCapeClassic), some (putUnsignedByte skin.isPrimaryUser),
    some (putUnsignedByte skin.isOverride)]

def flagBytes (skin : FullSkin) : List UInt8 :=
  [skin.isPremium, skin.isPersona, skin.isPersonaCapeClassic, skin.isPrimaryUser,
    skin.isOverride]

theorem reads_flags (skin : FullSkin) (change : List UInt8 → List UInt8) :
    Reads (getFlags (skin.read change)) (flagBytes skin) (skin.read change) :=
  (reads_unsignedByte _).bind ((reads_unsignedByte _).bind ((reads_unsignedByte _).bind
    ((reads_unsignedByte _).bind ((reads_unsignedByte _).bind (Reads.pure _)))))

theorem sized_flags (skin : MiscSkin) : Sized 5 (getFlags skin) :=
  sized_unsignedByte.bind fun _ => sized_unsignedByte.bind fun _ =>
    sized_unsignedByte.bind fun _ => sized_unsignedByte.bind fun _ =>
    sized_unsignedByte.bind fun _ => Sized.pure _

/-- The getter from the count of the tint colours on. -/
def getTintColors (count : Nat) (skin : MiscSkin) : Reader MiscSkin := do
  let _ ← readCount skipTintColor count
  getFlags skin

theorem getTintColors_strict (count : Nat) (skin : MiscSkin) : getTintColors count skin =
    (readCount passedTintColor count >>= fun _ => getFlags skin) :=
  (skipTintColor_agree.readCount skipTintColor_progress.shrinks count).before _ fun _ => rfl

/-- A reader that stops behind the flags has taken a row of as many blocks of
the format that the loop takes. -/
theorem tintBytes_of_read {skin : FullSkin} {start result : MiscSkin} {count : Nat}
    {tintBytes rest : List UInt8}
    (success : getTintColors count start (tintBytes ++ flagBytes skin ++ rest) =
      some (result, rest)) : tintBytes ∈ tintColorFormat ^ count := by
  rw [getTintColors_strict, bind_apply] at success
  obtain ⟨⟨units, middle⟩, colors, flags⟩ := Option.bind_eq_some_iff.mp success
  obtain ⟨block, member, same⟩ := (takes_tintColor.readCount count).split _ _ _ colors
  obtain ⟨five, length, rfl⟩ := (Takes.sized (sized_flags start)).split _ _ _ flags
  rw [mem_anyBytes] at length
  rw [List.append_assoc] at same
  have lengths := congrArg List.length same
  have flagLength : (flagBytes skin).length = 5 := rfl
  rw [List.length_append, List.length_append, List.length_append, List.length_append] at lengths
  have equal := List.append_inj_left same (by omega)
  rwa [equal]

theorem getTintColors_reads (skin : FullSkin) (change : List UInt8 → List UInt8) (count : Nat)
    {tintBytes : List UInt8} (member : tintBytes ∈ tintColorFormat ^ count) (rest : List UInt8) :
    getTintColors count (skin.read change) (tintBytes ++ flagBytes skin ++ rest) =
      some (skin.read change, rest) := by
  obtain ⟨units, read⟩ := (takes_tintColor.readCount count).reads tintBytes member
    (flagBytes skin ++ rest)
  rw [getTintColors_strict, bind_apply, List.append_assoc, read, Option.bind_some]
  exact reads_flags skin change rest

/-! ## The skin -/

def headParts (skin : FullSkin) : List (Option (List UInt8)) :=
  [putMiscStringVarInt skin.skinId, putMiscStringVarInt skin.playFabId,
    putMiscStringVarInt skin.resourcesPatch, putMiscSkinImage skin.skinImage,
    some (putIntLe (countField skin.animations)), putCount putMiscSkinAnimation skin.animations,
    putMiscSkinImage skin.capeImage, putMiscStringVarInt skin.geometryData,
    putMiscStringVarInt skin.geometryEngineVersion, putMiscStringVarInt skin.animationData,
    putMiscStringVarInt skin.capeId, putMiscStringVarInt skin.fullSkinId,
    putMiscStringVarInt skin.armSize, putMiscStringVarInt skin.skinColor,
    some (putIntLe (countField skin.personas)), putCount putMiscSkinPersona skin.personas,
    some (putIntLe (countField skin.personaTintColors))]

theorem putMiscSkin_parts (skin : FullSkin) : putMiscSkin skin =
    joined (headParts skin ++ ([putCount putMiscSkinPersonaTintColor skin.personaTintColors] ++
      flagParts skin)) := rfl

theorem encodes_noAnimations {animations : List MiscSkinAnimation} (plain : animations = []) :
    Encodes (putCount putMiscSkinAnimation animations) (getAnimations (countField animations))
      () := by
  subst plain
  exact .fixed (Reads.pure ())

theorem encodes_personas {personas : List MiscSkinPersona} (fits : personas.length < 2 ^ 32) :
    Encodes (putCount putMiscSkinPersona personas) (skipPersonas (countField personas))
      (personas.map fun _ => ()) := by
  rw [skipPersonas, countField_turns fits]
  exact Encodes.count fun persona _ => encodes_persona persona

/-- Up to the tint colours the getter stays with the encoding. -/
theorem leads_head (skin : FullSkin) (plain : skin.animations = []) :
    Leads (headParts skin) getMiscSkin
      (getTintColors skin.personaTintColors.length (skin.read cut)) := by
  rw [← countField_turns skin.personaTintColorsFit]
  refine .cons (encodes_string _) (.cons (encodes_string _) (.cons (encodes_string _)
    (.cons (encodes_image _) (.cons (.fixed (reads_intLe _))
    (.cons (encodes_noAnimations plain) (.cons (encodes_image _) (.cons (encodes_string _)
    (.cons (encodes_string _) (.cons (encodes_string _) (.cons (encodes_string _)
    (.cons (encodes_string _) (.cons (encodes_string _) (.cons (encodes_string _)
    (.cons (.fixed (reads_intLe _)) (.cons (encodes_personas skin.personasFit)
    (.cons (.fixed (reads_intLe _)) ?_))))))))))))))))
  exact Leads.nil _

theorem joined_flags (skin : FullSkin) : joined (flagParts skin) = some (flagBytes skin) := rfl

/-- The encoding is there where its parts are. -/
theorem putMiscSkin_eq_some {skin : FullSkin} {bytes : List UInt8} :
    putMiscSkin skin = some bytes ↔
      ∃ head tintBytes, joined (headParts skin) = some head ∧
        putCount putMiscSkinPersonaTintColor skin.personaTintColors = some tintBytes ∧
        head ++ (tintBytes ++ flagBytes skin) = bytes := by
  rw [putMiscSkin_parts, joined_append]
  constructor
  · rintro ⟨head, others, first, later, rfl⟩
    obtain ⟨_, flags, tint, last, rfl⟩ := joined_append.mp later
    obtain ⟨tintBytes, _, present, none', rfl⟩ := joined_cons.mp tint
    rw [joined_flags] at last
    cases none'
    cases last
    exact ⟨head, tintBytes, first, present, by rw [List.append_nil]⟩
  · rintro ⟨head, tintBytes, first, present, rfl⟩
    refine ⟨head, _, first, joined_append.mpr ⟨tintBytes, _, ?_, joined_flags skin, rfl⟩, rfl⟩
    exact joined_cons.mpr ⟨tintBytes, [], present, rfl, List.append_nil _⟩

/-- What the getter makes of an encoding. -/
theorem getMiscSkin_encoded {skin : FullSkin} (plain : skin.animations = [])
    {head tintBytes : List UInt8} (written : joined (headParts skin) = some head)
    (rest : List UInt8) :
    getMiscSkin (head ++ (tintBytes ++ flagBytes skin) ++ rest) =
      getTintColors skin.personaTintColors.length (skin.read cut)
        (tintBytes ++ flagBytes skin ++ rest) := by
  rw [List.append_assoc]
  exact leads_head skin plain head _ written

theorem image_isSome {image : MiscSkinImage} :
    (∃ block, putMiscSkinImage image = some block) ↔ Writable image.data := by
  simp [putMiscSkinImage, joined_isSome, putMiscStringVarInt_isSome]

theorem persona_isSome {persona : MiscSkinPersona} :
    (∃ block, putMiscSkinPersona persona = some block) ↔
      ∀ text ∈ persona.strings, Writable text := by
  simp [putMiscSkinPersona, MiscSkinPersona.strings, joined_isSome, putMiscStringVarInt_isSome]

theorem head_isSome {skin : FullSkin} (plain : skin.animations = []) :
    (∃ head, joined (headParts skin) = some head) ↔
      (∀ text ∈ skin.strings, Writable text) ∧
        ∀ persona ∈ skin.personas, ∀ text ∈ persona.strings, Writable text := by
  have noAnimations : ∃ block, putCount putMiscSkinAnimation skin.animations = some block :=
    ⟨[], by rw [plain]; rfl⟩
  have personas : (∃ block, putCount putMiscSkinPersona skin.personas = some block) ↔
      ∀ persona ∈ skin.personas, ∀ text ∈ persona.strings, Writable text := by
    simp only [putCount, joined_isSome, List.forall_mem_map, persona_isSome]
  simp only [headParts, joined_isSome, List.forall_mem_cons, putMiscStringVarInt_isSome,
    image_isSome, noAnimations, personas, FullSkin.strings]
  simp
  tauto

/-! ## Tint colours without colours -/

theorem encodes_passedString (value : List UInt8) :
    Encodes (putMiscStringVarInt value) (passed bytesOfString) () := by
  intro block written
  have writable := putMiscStringVarInt_isSome.mp ⟨block, written⟩
  have short := length_cut_lt writable
  rw [putMiscStringVarInt_writable writable] at written
  cases written
  refine (reads_varInt _).bind ?_
  rw [bytesOfString, ofNat_size short]
  exact (Reads.bytes _).bind_pure (Reads.pure ())

theorem encodes_colorless {tintColor : MiscSkinPersonaTintColor} (none' : tintColor.colors = []) :
    Encodes (putMiscSkinPersonaTintColor tintColor) passedTintColor () := by
  have noTurn : putIntLe 0 ∈ turnsFormat ColorLayout 0 := .last ⟨0, by decide, rfl⟩
  have loop : Encodes (joined [some (putIntLe 0), some []]) (loop passedColor 0) () := by
    rintro _ ⟨⟩
    exact (Takes.loop describes_color passedColor_progress 0).describes.reads () _ noTurn
  rw [putMiscSkinPersonaTintColor, none']
  exact .joined (.cons (encodes_passedString _) fun bytes rest success => loop bytes success rest)

theorem colorless_row {tintColors : List MiscSkinPersonaTintColor} {tintBytes : List UInt8}
    (each : ∀ tintColor ∈ tintColors, tintColor.colors = [])
    (written : putCount putMiscSkinPersonaTintColor tintColors = some tintBytes) :
    tintBytes ∈ tintColorFormat ^ tintColors.length :=
  (takes_tintColor.readCount tintColors.length).mem_of_reads
    (Encodes.count (fun tintColor member => encodes_colorless (each tintColor member)) tintBytes
      written)

/-! ## Round trip -/

/-- The getter stops at the end of the encoding and returns the strings, the
images and the flags exactly where the returned strings are shorter than 2^31,
the skipped ones are written at all, and the bytes of the tint colours are a row
of as many blocks of the format of the loop. -/
theorem miscSkin_roundTrip_iff (skin : FullSkin) (plain : skin.animations = []) :
    (∃ bytes, putMiscSkin skin = some bytes ∧
        ∀ rest, getMiscSkin (bytes ++ rest) = some (skin.read id, rest)) ↔
      (∀ text ∈ skin.strings, text.length < 2 ^ 31) ∧
        (∀ persona ∈ skin.personas, ∀ text ∈ persona.strings, Writable text) ∧
        ∃ tintBytes, putCount putMiscSkinPersonaTintColor skin.personaTintColors = some tintBytes ∧
          tintBytes ∈ tintColorFormat ^ skin.personaTintColors.length := by
  constructor
  · rintro ⟨bytes, written, reads⟩
    obtain ⟨head, tintBytes, first, present, rfl⟩ := putMiscSkin_eq_some.mp written
    obtain ⟨writable, skipped⟩ := (head_isSome plain).mp ⟨head, first⟩
    have read := reads []
    rw [getMiscSkin_encoded plain first] at read
    have member := tintBytes_of_read read
    rw [getTintColors_reads skin cut _ member] at read
    have uncut := read_eq_iff.mp (Prod.mk.inj (Option.some.inj read)).1
    refine ⟨fun text inside => ?_, skipped, tintBytes, present, member⟩
    exact short_of_cut (writable text inside) (uncut text inside)
  · rintro ⟨short, skipped, tintBytes, present, member⟩
    have writable : ∀ text ∈ skin.strings, Writable text :=
      fun text inside => writable_short (short text inside)
    obtain ⟨head, first⟩ := (head_isSome plain).mpr ⟨writable, skipped⟩
    have uncut : skin.read cut = skin.read id :=
      read_eq_iff.mpr fun text inside => cut_short (short text inside)
    refine ⟨_, putMiscSkin_eq_some.mpr ⟨head, tintBytes, first, present, rfl⟩, fun rest => ?_⟩
    rw [getMiscSkin_encoded plain first, getTintColors_reads skin cut _ member, uncut]

def emptyImage : MiscSkinImage := ⟨0, 0, []⟩

/-- A skin of empty strings with these tint colours. -/
def plainSkin (personaTintColors : List MiscSkinPersonaTintColor)
    (personaTintColorsFit : personaTintColors.length < 2 ^ 32) : FullSkin where
  skinId := []
  playFabId := []
  resourcesPatch := []
  skinImage := emptyImage
  animations := []
  capeImage := emptyImage
  geometryData := []
  geometryEngineVersion := []
  animationData := []
  capeId := []
  fullSkinId := []
  armSize := []
  skinColor := []
  personas := []
  personaTintColors
  isPremium := 0
  isPersona := 0
  isPersonaCapeClassic := 0
  isPrimaryUser := 0
  isOverride := 0
  animationsFit := by decide
  personasFit := by decide
  personaTintColorsFit

theorem noColors_fit : ([] : List (List UInt8)).length < 2 ^ 32 := Nat.two_pow_pos 32

/-- A skin with two pieces and a tint colour that has no colours. -/
def wornSkin : FullSkin where
  skinId := [0x73, 0x31]
  playFabId := [0x70]
  resourcesPatch := [0x7b, 0x7d]
  skinImage := ⟨2, 1, [0xff, 0x80, 0x40, 0xff, 0x20, 0x10, 0x08, 0xff]⟩
  animations := []
  capeImage := ⟨1, 1, [0x01, 0x02, 0x03, 0xff]⟩
  geometryData := [0x67]
  geometryEngineVersion := [0x31, 0x2e, 0x32]
  animationData := []
  capeId := [0x63]
  fullSkinId := [0x73, 0x31, 0x63]
  armSize := [0x77, 0x69, 0x64, 0x65]
  skinColor := [0x23, 0x30]
  personas := [⟨[0x68], [0x68, 0x61, 0x74], [0x6b], 1, []⟩,
    ⟨[0x65], [0x65, 0x79, 0x65], [], 0, [0x78]⟩]
  personaTintColors := [⟨[0x65, 0x79, 0x65], [], noColors_fit⟩]
  isPremium := 1
  isPersona := 1
  isPersonaCapeClassic := 0
  isPrimaryUser := 1
  isOverride := 0
  animationsFit := by decide
  personasFit := by decide
  personaTintColorsFit := by decide

theorem miscSkin_roundTrip_iff_worn :
    ∃ bytes, putMiscSkin wornSkin = some bytes ∧
      ∀ rest, getMiscSkin (bytes ++ rest) = some (wornSkin.read id, rest) := by
  have short : ∀ text ∈ wornSkin.strings, text.length < 2 ^ 31 := by decide
  have skipped : ∀ persona ∈ wornSkin.personas, ∀ text ∈ persona.strings, Writable text := by
    decide
  obtain ⟨tintBytes, written⟩ : ∃ tintBytes,
      putCount putMiscSkinPersonaTintColor wornSkin.personaTintColors = some tintBytes := ⟨_, rfl⟩
  have colorless : ∀ tintColor ∈ wornSkin.personaTintColors, tintColor.colors = [] :=
    List.forall_mem_singleton.mpr rfl
  exact (miscSkin_roundTrip_iff wornSkin rfl).mpr
    ⟨short, skipped, tintBytes, written, colorless_row colorless written⟩

/-- One tint colour with one colour: four of the flags are read as the number of
its colours. -/
theorem oneColor_lost :
    ∃ bytes, putMiscSkin (plainSkin [⟨[], [[0x61]], by decide⟩] (by decide)) = some bytes ∧
      getMiscSkin bytes = none := ⟨_, rfl, rfl⟩

end PodrumMinecraft.SkinEncoding
