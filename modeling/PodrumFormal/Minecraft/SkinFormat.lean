import PodrumFormal.Lib.ByteFormat
import PodrumFormal.Minecraft.Skin
import PodrumFormal.Stream.StreamLayout

/-!
# The format of a skin

The bytes that `get_misc_skin` reads without leaving them and without a write
outside what it allocated: whole strings, no animation, and as many skipped
parts as the counts in front of them say.
-/

set_option autoImplicit false

namespace PodrumMinecraft.SkinFormat

open ByteReader ByteLayout ByteFormat PodrumStream.BinaryStream PodrumStream.VarInt
open PodrumStream.StreamLayout Misc Skin

/-! ## Strings and images -/

/-- A size whose successor has 32 bits, and as many bytes. -/
def StringLayout : Layout (List UInt8) := fun text block =>
  ∃ size first, VarIntLayout size first ∧ size + 1 ≠ 0 ∧ text.length = size.toNat ∧
    block = first ++ text

theorem describes_string : Describes StringLayout getMiscStringVarInt := by
  refine describes_varInt.measured (fun size room => if_neg room) fun size full bytes => ?_
  rw [if_pos (not_not.mp full)]
  rfl

def stringFormat : Format := blocks StringLayout

theorem takes_string : Takes stringFormat getMiscStringVarInt := takes_blocks describes_string

def imageFormat : Format := anyBytes 4 * (anyBytes 4 * stringFormat)

theorem takes_image : Takes imageFormat getMiscSkinImage :=
  (Takes.sized sized_intLe).bind fun _ => (Takes.sized sized_intLe).bind fun _ =>
    takes_string.map _

/-- A count of no animations. -/
def noAnimations : Format := {putIntLe 0}

/-! ## Skipped parts -/

/-- A size and so many bytes as `count` makes of it. -/
def passedFormat (count : UInt32 → Nat) : Format :=
  followed VarIntLayout fun size => anyBytes (count size)

def passed (count : UInt32 → Nat) : Reader Unit := do
  let size ← getVarInt
  let _ ← readBytes (count size)
  pure ()

theorem takes_passed (count : UInt32 → Nat) : Takes (passedFormat count) (passed count) :=
  Takes.followed describes_varInt fun _ => (Takes.sized (Sized.readBytes _)).map fun _ => ()

theorem skipped_agree (count : UInt32 → Nat) :
    Agree (do let size ← getVarInt; skip (count size)) (passed count) :=
  (Agree.refl getVarInt).bind (fun size => Agree.skip (count size))
    fun size => skip_shrinks (count size)

theorem skipped_progress (count : UInt32 → Nat) :
    Progress (do let size ← getVarInt; skip (count size)) :=
  getVarInt_progress.bind fun size => skip_shrinks (count size)

def bytesOfString (size : UInt32) : Nat := size.toNat

def bytesOfStringAndByte (size : UInt32) : Nat := (size + 1).toNat

def personaFormat : Format :=
  passedFormat bytesOfString * (passedFormat bytesOfString *
    (passedFormat bytesOfStringAndByte * passedFormat bytesOfString))

def passedPersona : Reader Unit := do
  passed bytesOfString
  passed bytesOfString
  passed bytesOfStringAndByte
  passed bytesOfString

theorem takes_persona : Takes personaFormat passedPersona :=
  (takes_passed _).bind fun _ => (takes_passed _).bind fun _ => (takes_passed _).bind fun _ =>
    takes_passed _

theorem skipPersona_progress : Progress skipPersona :=
  (skipped_progress bytesOfString).bind fun _ => (skipped_progress bytesOfString).shrinks.bind
    fun _ => (skipped_progress bytesOfStringAndByte).shrinks.bind
    fun _ => (skipped_progress bytesOfString).shrinks

theorem skipPersona_agree : Agree skipPersona passedPersona := by
  have string := skipped_progress bytesOfString
  have stringAndByte := skipped_progress bytesOfStringAndByte
  refine (skipped_agree bytesOfString).bind (fun _ => ?_) fun _ =>
    string.shrinks.bind fun _ => stringAndByte.shrinks.bind fun _ => string.shrinks
  refine (skipped_agree bytesOfString).bind (fun _ => ?_) fun _ =>
    stringAndByte.shrinks.bind fun _ => string.shrinks
  exact (skipped_agree bytesOfStringAndByte).bind (fun _ => skipped_agree bytesOfString)
    fun _ => string.shrinks

/-- A turn reads the number of colours, and a string where there is another. -/
def ColorLayout (i : UInt32) : Layout (Option UInt32) := fun next block =>
  ∃ colorCount : Int32, match next with
    | none => ¬i < colorCount.toUInt32 ∧ block = putIntLe colorCount
    | some after => i < colorCount.toUInt32 ∧ after = i + 1 ∧
        ∃ text ∈ passedFormat bytesOfString, block = putIntLe colorCount ++ text

def tintColorFormat : Format :=
  passedFormat bytesOfString * turnsFormat ColorLayout 0

def passedColor (i : UInt32) : Reader (Option UInt32) := do
  let colorCount ← getIntLe
  if i < colorCount.toUInt32 then do
    passed bytesOfString
    pure (some (i + 1))
  else pure none

theorem describes_color (i : UInt32) : Describes (ColorLayout i) (passedColor i) where
  reads next block holds := by
    obtain ⟨colorCount, holds⟩ := holds
    cases next with
    | none =>
        obtain ⟨done, rfl⟩ := holds
        refine (reads_intLe colorCount).bind_pure ?_
        rw [if_neg done]
        exact Reads.pure none
    | some after =>
        obtain ⟨another, rfl, text, member, rfl⟩ := holds
        refine (reads_intLe colorCount).bind ?_
        rw [if_pos another]
        exact ((takes_passed _).describes.reads () text member).bind_pure (Reads.pure _)
  split bytes next rest success := by
    obtain ⟨⟨colorCount, middle⟩, first, later⟩ := Option.bind_eq_some_iff.mp success
    obtain ⟨_, rfl, rfl⟩ := describes_intLe.split bytes colorCount middle first
    dsimp only at later
    split at later
    · rename_i another
      obtain ⟨⟨_, last⟩, string, later⟩ := Option.bind_eq_some_iff.mp later
      cases later
      obtain ⟨text, member, rfl⟩ := (takes_passed _).split middle () rest string
      exact ⟨_, ⟨colorCount, another, rfl, text, member, rfl⟩, (List.append_assoc ..).symm⟩
    · rename_i done
      cases later
      exact ⟨_, ⟨colorCount, done, rfl⟩, rfl⟩

theorem skipColor_progress (i : UInt32) : Progress (skipColor i) := by
  refine (sized_intLe.progress (by decide)).bind fun colorCount => ?_
  split
  · exact (skipped_progress bytesOfString).shrinks.bind fun _ => Shrinks.pure _
  · exact Shrinks.pure none

theorem passedColor_progress (i : UInt32) : Progress (passedColor i) := by
  have string : Shrinks (passed bytesOfString) := getVarInt_progress.shrinks.bind fun size =>
    (readBytes_shrinks _).bind fun _ => Shrinks.pure ()
  refine (sized_intLe.progress (by decide)).bind fun colorCount => ?_
  split
  · exact string.bind fun _ => Shrinks.pure _
  · exact Shrinks.pure none

theorem skipColor_agree (i : UInt32) : Agree (skipColor i) (passedColor i) := by
  refine (Agree.refl getIntLe).bind (fun colorCount => ?_) fun colorCount => ?_
  · split
    · exact (skipped_agree bytesOfString).bind (fun _ => Agree.refl _) fun _ => Shrinks.pure _
    · exact Agree.refl _
  · split
    · exact (skipped_progress bytesOfString).shrinks.bind fun _ => Shrinks.pure _
    · exact Shrinks.pure none

def passedTintColor : Reader Unit := do
  passed bytesOfString
  loop passedColor 0

theorem takes_tintColor : Takes tintColorFormat passedTintColor :=
  (takes_passed _).bind fun _ => Takes.loop describes_color passedColor_progress 0

theorem skipColors_shrinks : Shrinks (loop skipColor 0) :=
  Shrinks.loop (fun i => (skipColor_progress i).shrinks) 0

theorem skipTintColor_progress : Progress skipTintColor :=
  (skipped_progress bytesOfString).bind fun _ => skipColors_shrinks

theorem skipTintColor_agree : Agree skipTintColor passedTintColor :=
  (skipped_agree bytesOfString).bind
    (fun _ => Agree.loop skipColor_agree (fun i => (skipColor_progress i).shrinks) 0)
    fun _ => skipColors_shrinks

/-! ## The skin -/

def IntLayout : Layout Int32 := fun value block => block = putIntLe value

/-- As many parts as a count in front of them says. -/
def countedFormat (part : Format) : Format :=
  followed IntLayout fun count => part ^ count.toUInt32.toNat

def skinFormat : Format :=
  stringFormat * stringFormat * stringFormat * imageFormat * noAnimations * imageFormat *
    stringFormat ^ 7 * countedFormat personaFormat * countedFormat tintColorFormat * anyBytes 5

/-- Counted parts, of which the last may be skipped past the end. -/
theorem takes_counted {α : Type} {part more : Format} {lenient strict : Reader Unit}
    {next : Reader α} (agree : Agree lenient strict) (shrinks : Shrinks lenient)
    (takes : Takes part strict) (others : Takes more next) (atEnd : next [] = none) :
    Takes (countedFormat part * more) (do
      let count ← getIntLe
      let _ ← readCount lenient count.toUInt32.toNat
      next) := by
  have each (count : Int32) : Takes (part ^ count.toUInt32.toNat * more) (do
      let _ ← readCount lenient count.toUInt32.toNat
      next) :=
    Takes.agree_bind (agree.readCount shrinks _) (takes.readCount _) (fun _ => others)
      fun _ => atEnd
  rw [countedFormat, followed_mul]
  exact Takes.followed describes_intLe each

theorem takes_noAnimations {α : Type} {more : Format} {next : Int32 → Reader α}
    (others : ∀ count, Takes more (next count)) :
    Takes (noAnimations * more) (do
      let animationCount ← getIntLe
      getAnimations animationCount
      next animationCount) := by
  have each (count : Int32) : Takes (if count = 0 then more else 0) (do
      getAnimations count
      next count) := by
    split
    · rename_i zero
      rw [getAnimations, if_pos zero, pure_bind]
      exact others count
    · rename_i some'
      refine Takes.fails fun bytes => ?_
      rw [getAnimations, if_neg some', bind_apply, bind_apply]
      cases getMiscSkinAnimation bytes <;> rfl
  have only : noAnimations * more = followed IntLayout fun count => if count = 0 then more else 0 :=
    Eq.symm (followed_only 0 fun _ => Iff.rfl)
  rw [only]
  exact Takes.followed describes_intLe each

theorem takes_skin : Takes skinFormat getMiscSkin := by
  have flags (skin : UInt8 → UInt8 → UInt8 → UInt8 → UInt8 → MiscSkin) :
      Sized 5 (do
        let isPremium ← getUnsignedByte
        let isPersona ← getUnsignedByte
        let isPersonaCapeClassic ← getUnsignedByte
        let isPrimaryUser ← getUnsignedByte
        let isOverride ← getUnsignedByte
        pure (skin isPremium isPersona isPersonaCapeClassic isPrimaryUser isOverride)) :=
    sized_unsignedByte.bind fun _ => sized_unsignedByte.bind fun _ =>
      sized_unsignedByte.bind fun _ => sized_unsignedByte.bind fun _ =>
      sized_unsignedByte.bind fun _ => Sized.pure _
  have whole : skinFormat = stringFormat * (stringFormat * (stringFormat * (imageFormat *
      (noAnimations * (imageFormat * (stringFormat * (stringFormat * (stringFormat *
        (stringFormat * (stringFormat * (stringFormat * (stringFormat *
          (countedFormat personaFormat * (countedFormat tintColorFormat *
            anyBytes 5)))))))))))))) := by
    simp only [skinFormat, pow_succ, pow_zero, one_mul, mul_assoc]
  rw [whole]
  refine takes_string.bind fun skinId => takes_string.bind fun playFabId =>
    takes_string.bind fun resourcesPatch => takes_image.bind fun skinImage =>
    takes_noAnimations fun animationCount => takes_image.bind fun capeImage =>
    takes_string.bind fun geometryData => takes_string.bind fun geometryEngineVersion =>
    takes_string.bind fun animationData => takes_string.bind fun capeId =>
    takes_string.bind fun fullSkinId => takes_string.bind fun armSize =>
    takes_string.bind fun skinColor => ?_
  refine takes_counted skipPersona_agree skipPersona_progress.shrinks takes_persona ?_ rfl
  exact takes_counted skipTintColor_agree skipTintColor_progress.shrinks takes_tintColor
    (Takes.sized (flags _)) rfl

end PodrumMinecraft.SkinFormat
