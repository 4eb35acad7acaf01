import PodrumFormal.Minecraft.PacketGetters
import PodrumFormal.Minecraft.SkinFormat

/-!
# The formats of the packets

The bytes on which each getter stays inside its stream and writes inside what
it allocated.
-/

set_option autoImplicit false

namespace PodrumMinecraft.PacketFormats

open ByteReader ByteLayout ByteFormat PodrumStream.BinaryStream PodrumStream.VarInt
open PodrumStream.StreamLayout Misc Skin SkinFormat Login PacketGetters

def varIntFormat : Format := blocks VarIntLayout

def varLongFormat : Format := blocks VarLongLayout

theorem takes_varInt : Takes varIntFormat getVarInt := takes_blocks describes_varInt

theorem takes_signedVarInt : Takes varIntFormat getSignedVarInt := takes_varInt.map _

theorem takes_varLong : Takes varLongFormat getVarLong := takes_blocks describes_varLong

theorem takes_unsignedByte : Takes (anyBytes 1) getUnsignedByte := Takes.sized sized_unsignedByte

def UnsignedByteLayout : Layout UInt8 := fun value block => block = putUnsignedByte value

/-! ## Login -/

/-- A size that is not negative and has a successor, and as many bytes. -/
def TokenLayout : Layout (List UInt8) := fun text block =>
  ∃ size : Int32, 0 < size + 1 ∧ text.length = size.toNatClampNeg ∧ block = putIntLe size ++ text

theorem describes_token : Describes TokenLayout getMiscStringIntLe := by
  have measured : Describes _ getMiscStringIntLe :=
    describes_intLe.measured (fun size room => if_pos room) fun size full bytes => by
      rw [if_neg full]
      rfl
  refine measured.congr fun text block => ?_
  constructor
  · rintro ⟨size, room, length, rfl⟩
    exact ⟨size, _, rfl, room, length, rfl⟩
  · rintro ⟨size, _, rfl, room, length, rfl⟩
    exact ⟨size, room, length, rfl⟩

/-- The two tokens, and whatever follows them in their array. -/
def TokensLayout : Layout LoginTokens := fun tokens stream =>
  ∃ identity client rest, TokenLayout tokens.identity identity ∧
    TokenLayout tokens.client client ∧ stream = identity ++ (client ++ rest)

def LoginLayout : Layout PacketLogin := fun login block =>
  ∃ size first tempStream, VarIntLayout size first ∧ tempStream.length = size.toNat ∧
    TokensLayout login.tokens tempStream ∧
    block = putIntBe login.protocolVersion ++ (first ++ tempStream)

theorem tokens_iff (stream : List UInt8) (tokens : LoginTokens) :
    (∃ rest, getMiscLoginTokens stream = some (tokens, rest)) ↔ TokensLayout tokens stream := by
  constructor
  · rintro ⟨rest, success⟩
    obtain ⟨⟨identity, middle⟩, first, read1⟩ := Option.bind_eq_some_iff.mp success
    obtain ⟨block, holds, rfl⟩ := describes_token.split stream identity middle first
    obtain ⟨⟨client, last⟩, second, read2⟩ := Option.bind_eq_some_iff.mp read1
    obtain ⟨other, holds', rfl⟩ := describes_token.split middle client last second
    cases read2
    exact ⟨block, other, rest, holds, holds', rfl⟩
  · rintro ⟨identity, client, rest, holds, holds', rfl⟩
    refine ⟨rest, ?_⟩
    rw [getMiscLoginTokens, (describes_token.reads _ _ holds).run_bind,
      (describes_token.reads _ _ holds').run_bind]
    rfl

theorem describes_login : Describes LoginLayout getPacketLogin where
  reads login block holds := by
    obtain ⟨size, first, tempStream, measured, length, tokens, rfl⟩ := holds
    obtain ⟨behind, decoded⟩ := (tokens_iff _ _).mpr tokens
    refine (reads_intBe login.protocolVersion).bind ?_
    have array : Reads getMiscByteArrayVarInt (first ++ tempStream) tempStream := by
      refine (describes_varInt.reads size first measured).bind ?_
      rw [← length]
      exact reads_bytes tempStream
    refine array.bind_pure fun rest => ?_
    rw [bind_apply, readFrom, decoded]
    rfl
  split bytes login rest success := by
    obtain ⟨⟨protocolVersion, middle⟩, first, read1⟩ := Option.bind_eq_some_iff.mp success
    obtain ⟨_, rfl, rfl⟩ := describes_intBe.split bytes protocolVersion middle first
    obtain ⟨⟨tempStream, after⟩, array, read2⟩ := Option.bind_eq_some_iff.mp read1
    obtain ⟨⟨size, body⟩, sized, taken⟩ := Option.bind_eq_some_iff.mp array
    obtain ⟨block, measured, rfl⟩ := describes_varInt.split middle size body sized
    obtain ⟨_, ⟨rfl, length⟩, rfl⟩ := (describes_bytes _).split body tempStream after taken
    obtain ⟨⟨tokens, last⟩, decoded, read3⟩ := Option.bind_eq_some_iff.mp read2
    obtain ⟨⟨_, behind⟩, inner, same⟩ := Option.map_eq_some_iff.mp decoded
    cases same
    cases read3
    exact ⟨_, ⟨size, block, _, measured, length, (tokens_iff _ _).mp ⟨behind, inner⟩, rfl⟩,
      by simp only [List.append_assoc]⟩

/-! ## The other packets -/

def resourcePackClientResponseFormat : Format :=
  anyBytes 1 * followed (fun size block => block = putShortLe size)
    fun size => stringFormat ^ size.toNatClampNeg

/-- A count of no parameters. -/
def noParameters : Format := {block | VarIntLayout 0 block}

def textFormat : Format :=
  followed UnsignedByteLayout fun type =>
    anyBytes 1 * (optional (hasSourceName type) stringFormat *
      (optional (hasMessageOnly type || hasParameters type) stringFormat *
        (optional (hasParameters type) noParameters *
          (stringFormat * stringFormat))))

def interactFormat : Format :=
  followed UnsignedByteLayout fun actionId =>
    varLongFormat * optional (hasPosition actionId) (anyBytes 12)

def movePlayerFormat : Format :=
  varIntFormat * (anyBytes 24 * followed UnsignedByteLayout fun mode =>
    anyBytes 1 * (varIntFormat * (optional (mode = movePlayerModeTeleport) (anyBytes 8) *
      varLongFormat)))

def playerSkinFormat : Format :=
  anyBytes 16 * (skinFormat * (stringFormat * (stringFormat * anyBytes 1)))

def requestAbilityFormat : Format := varIntFormat * anyBytes 6

theorem takes_resourcePackIds :
    Takes (followed (fun size block => block = putShortLe size)
      fun size => stringFormat ^ size.toNatClampNeg) getMiscResourcePackIds :=
  Takes.followed describes_shortLe fun _ => (takes_string.readCount _).map _

theorem takes_resourcePackClientResponse :
    Takes resourcePackClientResponseFormat getPacketResourcePackClientResponse :=
  takes_unsignedByte.bind fun _ => takes_resourcePackIds.map _

theorem takes_parameters : Takes noParameters getParameters := by
  have each (parameterCount : UInt32) : Takes (if parameterCount = 0 then 1 else 0)
      (if parameterCount = 0 then pure parameterCount
        else do
          let _ ← getMiscStringVarInt
          writeOutside : Reader UInt32) := by
    split
    · exact Takes.pure _
    · refine Takes.fails fun bytes => ?_
      rw [bind_apply]
      cases getMiscStringVarInt bytes <;> rfl
  have only : followed VarIntLayout (fun other => if other = 0 then 1 else 0) =
      noParameters * 1 := followed_only 0 fun _ => Iff.rfl
  rw [mul_one] at only
  rw [← only]
  exact Takes.followed describes_varInt each

theorem takes_text : Takes textFormat getPacketText :=
  Takes.followed describes_unsignedByte fun _ =>
    takes_unsignedByte.bind fun _ => ((takes_string.map some).readWhen _ none).bind fun _ =>
    ((takes_string.map some).readWhen _ none).bind fun _ =>
    ((takes_parameters.map some).readWhen _ none).bind fun _ =>
    takes_string.bind fun _ => takes_string.map _

theorem sized_position : Sized 12 getPosition :=
  sized_floatLe.bind fun _ => sized_floatLe.bind fun _ => sized_floatLe.bind fun _ => Sized.pure _

theorem takes_interact : Takes interactFormat getPacketInteract :=
  Takes.followed describes_unsignedByte fun _ => takes_varLong.bind fun _ =>
    (((Takes.sized sized_position).map some).readWhen _ none).map _

theorem takes_movePlayer : Takes movePlayerFormat getPacketMovePlayer := by
  have cause : Sized 8 getTeleportCause :=
    sized_intLe.bind fun _ => sized_intLe.bind fun _ => Sized.pure _
  have whole : movePlayerFormat = varIntFormat * (anyBytes 12 * (anyBytes 4 * (anyBytes 4 *
      (anyBytes 4 * followed UnsignedByteLayout fun mode => anyBytes 1 * (varIntFormat *
        (optional (mode = movePlayerModeTeleport) (anyBytes 8) * varLongFormat)))))) := by
    simp only [movePlayerFormat, anyBytes_mul_mul]
  rw [whole]
  exact takes_varInt.bind fun _ => (Takes.sized sized_position).bind fun _ =>
    (Takes.sized sized_floatLe).bind fun _ => (Takes.sized sized_floatLe).bind fun _ =>
    (Takes.sized sized_floatLe).bind fun _ => Takes.followed describes_unsignedByte fun _ =>
    takes_unsignedByte.bind fun _ => takes_varInt.bind fun _ =>
    (((Takes.sized cause).map some).readWhen _ none).bind fun _ => takes_varLong.map _

theorem takes_playerSkin : Takes playerSkinFormat getPacketPlayerSkin :=
  (Takes.sized (Sized.readBytes 16)).bind fun _ => takes_skin.bind fun _ =>
    takes_string.bind fun _ => takes_string.bind fun _ => takes_unsignedByte.map _

theorem takes_requestAbility : Takes requestAbilityFormat getPacketRequestAbility :=
  takes_signedVarInt.bind fun _ => Takes.sized
    (sized_unsignedByte.bind fun _ => sized_unsignedByte.bind fun _ => sized_floatLe.bind fun _ =>
      Sized.pure _)

theorem takes_containerClose : Takes (anyBytes 2) getPacketContainerClose :=
  Takes.sized ((sized_unsignedByte.bind fun _ => Sized.pure _).bind fun _ =>
    sized_unsignedByte.bind fun _ => Sized.pure _)

theorem takes_requestChunkRadius : Takes varIntFormat getPacketRequestChunkRadius :=
  takes_signedVarInt.map _

end PodrumMinecraft.PacketFormats
