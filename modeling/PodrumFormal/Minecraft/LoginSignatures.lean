import PodrumFormal.Minecraft.AcceptedLogin

/-!
# Signatures of an accepted login

The caller looks at the bit of a failed signature only where the bit for done
is clear, and the check of a token sets both.
-/

set_option autoImplicit false

namespace PodrumMinecraft.LoginSignatures

open PodrumMisc.CString PodrumMisc.Base64 PodrumMisc.Json PodrumMisc.Jwt
open PodrumRakNet.Packet Player Login AcceptedLogin

/-- The signature of the token's own text is accepted under the key of its header. -/
def TokenSigned (environment : LoginEnvironment) (jwt : JwtData) : Prop :=
  ∃ key signature, headerKey jwt = some key ∧ signatureOf jwt = some signature ∧
    signatureResult environment key.bytes jwt signature = 1

def AllSigned (environment : LoginEnvironment) (login : PacketLogin) : Prop :=
  ∃ tokens client, loginTokens environment login = .ok (tokens, client) ∧
    ∀ jwt ∈ tokens ++ [client], TokenSigned environment jwt

/-- The condition takes the answers of the check on the side of the input
alone: a login that passes the other checks has to be signed already. -/
theorem accepted_signed_iff (environment : LoginEnvironment) (address : MiscAddress)
    (manager : MinecraftPlayerManager) (login : PacketLogin) :
    (Accepted environment address manager login → AllSigned environment login) ↔
      ((getMinecraftPlayerAddress address manager).isSome → ∀ tokens client,
        LoginShape environment login tokens client →
        ∀ jwt ∈ tokens ++ [client], TokenSigned environment jwt) :=
  accepted_law_iff environment address manager login _

/-- A login is accepted where the check refuses every signature. -/
theorem accepted_unsigned :
    Accepted (sampleEnvironment 0) sampleAddress sampleManager
        (sampleLogin (sampleToken rootHeader)) ∧
      ¬AllSigned (sampleEnvironment 0) (sampleLogin (sampleToken rootHeader)) := by
  constructor
  · exact isAccepted_iff.mp (by decide +kernel)
  · rintro ⟨tokens, client, -, signed⟩
    obtain ⟨key, signature, -, -, verified⟩ := signed client (by simp)
    exact absurd verified (by simp [signatureResult, sampleEnvironment])

end PodrumMinecraft.LoginSignatures
