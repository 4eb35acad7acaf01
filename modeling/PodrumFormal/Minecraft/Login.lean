import PodrumFormal.Minecraft.Player
import PodrumFormal.Misc.Jwt

/-!
# Login

The check of one token and the login handler around it.  No code sets
`encryption_enabled`, so an accepted login goes straight to `play_success`.
-/

set_option autoImplicit false

namespace PodrumMinecraft.Login

open PodrumMisc.CString PodrumMisc.Base64 PodrumMisc.Json PodrumMisc.Jwt
open PodrumRakNet.Packet Player

def mojangRootKey : List UInt8 := bytes <|
  "MHYwEAYHKoZIzj0CAQYFK4EEACIDYgAECRXueJeTDqNRRgJi/vlRufByu/2G0i2Ebt6YMar5QX/R0DIIyrJM" ++
  "cUpruK4QveTfJSTp3Shlq4Gk34cD/4GUWwkv0DVuzeuB+tXija7HBxii03NHDbPAD0AKnLr2wdAp"

/-- What the handler takes from outside.  `time` is the clock at the check of
each token, `beyondBuffer` the memory behind a decoded part of it, `readFreed`
what a released text still reads as, and `floatBits` the bits `atof` gives.
`unwrittenOutLen` and `unwrittenSignatureSize` are what the two lengths of a
check hold where no decoder writes them.  A key is its DER bytes; the results of
the verification are those of the `EVP_DigestVerify` functions. -/
structure LoginEnvironment where
  time : Nat → Int
  unwrittenOutLen : Nat → UInt64
  unwrittenSignatureSize : Nat → UInt64
  beyondBuffer : Nat → List UInt8 → List UInt8
  readFreed : List UInt8 → List UInt8
  floatBits : List UInt8 → Int
  i2dEcdsaSig : List UInt8 → List UInt8 → List UInt8
  mdCtxNew : Bool
  digestVerifyInit : List UInt8 → Int
  digestVerifyUpdate : List UInt8 → Int
  digestVerifyFinal : List UInt8 → List UInt8 → List UInt8 → Int

/-! ## One token -/

def bit (index : UInt32) : UInt32 := 1 <<< index

def flag (condition : Prop) [Decidable condition] (index : UInt32) : UInt32 :=
  if condition then bit index else 0

def isSet (status index : UInt32) : Bool := status &&& bit index ≠ 0

theorem isSet_or (left right index : UInt32) :
    isSet (left ||| right) index = (isSet left index || isSet right index) := by
  have distributed : (left ||| right) &&& bit index =
      (left &&& bit index) ||| (right &&& bit index) :=
    UInt32.toBitVec_inj.mp BitVec.and_or_distrib_right
  simp only [isSet, distributed, ne_eq, UInt32.or_eq_zero_iff]
  by_cases leftClear : left &&& bit index = 0 <;> simp [leftClear]

theorem isSet_flag (condition : Prop) [Decidable condition] (index other : UInt32) :
    isSet (flag condition index) other = (decide condition && isSet (bit index) other) := by
  by_cases holds : condition
  · simp [flag, holds]
  · simp [flag, holds, isSet]

def combined (jwtchain : JwtData) : List UInt8 :=
  cString jwtchain.rawHeader ++ bytes "." ++ cString jwtchain.rawPayload

def newSig (environment : LoginEnvironment) (signature : List UInt8) : List UInt8 :=
  environment.i2dEcdsaSig (signature.take (signature.length / 2))
    (signature.drop (signature.length / 2))

def signatureResult (environment : LoginEnvironment) (key : List UInt8) (jwtchain : JwtData)
    (signature : Decoded) : Int :=
  environment.digestVerifyFinal key (combined jwtchain) (newSig environment signature.bytes)

/-- One of the three calls before the final one fails. -/
def setupFails (environment : LoginEnvironment) (key message : List UInt8) : Bool :=
  !environment.mdCtxNew || environment.digestVerifyInit key ≠ 1 ||
    environment.digestVerifyUpdate message ≠ 1

/-- A decoder that returns `NULL` leaves the length as it was. -/
def lengthLeft (unwritten : UInt64) (decoded : Option Decoded) : Nat :=
  decoded.elim unwritten.toNat Decoded.outLen

/-- The comparison reads both keys as C strings. -/
def keyRefused (headerDerKey currentPublicKey : Option (List UInt8)) (first : Nat) :
    Except Fault Bool :=
  match currentPublicKey with
  | none => .ok (first ≠ 0)
  | some key => do
      let headerDerKey ← orFault .outOfBounds headerDerKey
      let equal ← strcmpEqual headerDerKey key
      return !equal

/-- `d2i_PUBKEY` decodes `out_len` bytes.  Behind a failed decoding these are at
`NULL`, and where the length counts none there is no key. -/
def publicKey (environment : LoginEnvironment) (headerDerKey : Option Decoded) (first : Nat) :
    Except Fault (Option (List UInt8)) :=
  match headerDerKey with
  | some key => .ok (some key.bytes)
  | none =>
      if 0 < (environment.unwrittenOutLen first).toInt64 then .error .outOfBounds else .ok none

def clockDiffers (timern exp nbf : Int) : Bool := nbf > timern + 60 || exp < timern - 60

/-- From the test for the fourth position on. -/
def checkPayload (environment : LoginEnvironment) (payload : JsonRoot) (status : UInt32)
    (currentPublicKey : Option (List UInt8)) (first : Nat) :
    Except Fault (UInt32 × Option (List UInt8)) := do
  if first = 4 then return (status ||| bit 9, currentPublicKey)
  else
    let identityPublicKey ← getJsonObjectValue (bytes "identityPublicKey") payload
    match identityPublicKey with
    | some (.string rawIdentityPublicKey) =>
        let exp ← getJsonObjectValue (bytes "exp") payload
        let exp ← intNumber environment.floatBits exp
        let nbf ← getJsonObjectValue (bytes "nbf") payload
        let nbf ← intNumber environment.floatBits nbf
        if clockDiffers (environment.time first) exp nbf then
          return (status ||| bit 8, currentPublicKey)
        else
          return (status ||| bit 9,
            (charBase64Decode (cString rawIdentityPublicKey)).map Decoded.out)
    | _ => return (status ||| bit 7, currentPublicKey)

/-- From the decoding of the signature on. -/
def checkSignature (environment : LoginEnvironment) (jwtchain : JwtData)
    (headerDerKey : Option Decoded) (status : UInt32) (currentPublicKey : Option (List UInt8))
    (first : Nat) : Except Fault (UInt32 × Option (List UInt8)) := do
  let rawSignature ← orFault .outOfBounds jwtchain.signature
  let decoded ← charBase64UrlDecode (cString rawSignature)
  if lengthLeft (environment.unwrittenSignatureSize first) decoded ≠ 96 then
    return (status ||| bit 4, currentPublicKey)
  else
    let signature ← orFault .outOfBounds decoded
    let key ← publicKey environment headerDerKey first
    match key with
    -- `EVP_DigestVerifyInit` fails without a key.
    | none => return (status ||| bit 5, currentPublicKey)
    | some key =>
        if setupFails environment key (combined jwtchain) then
          return (status ||| bit 5, currentPublicKey)
        else
          checkPayload environment jwtchain.payload
            (status ||| flag (signatureResult environment key jwtchain signature ≠ 1) 6)
            currentPublicKey first

/-- The status and the key the next token has to have. -/
def veriflyJwtChain (environment : LoginEnvironment) (jwtchain : JwtData)
    (currentPublicKey : Option (List UInt8)) (first : Nat) :
    Except Fault (UInt32 × Option (List UInt8)) := do
  let x5u ← getJsonObjectValue (bytes "x5u") jwtchain.header
  match x5u with
  | some (.string rawPublicKey) =>
      let status := flag (cString rawPublicKey = mojangRootKey) 1
      let headerDerKey := charBase64Decode (cString rawPublicKey)
      let status := status |||
        flag (lengthLeft (environment.unwrittenOutLen first) headerDerKey ≠ 120) 2
      let refused ← keyRefused (headerDerKey.map Decoded.out) currentPublicKey first
      if refused then return (status ||| bit 3, currentPublicKey)
      else checkSignature environment jwtchain headerDerKey status currentPublicKey first
  | _ => return (1, currentPublicKey)

/-- The exits with these bits destroy the object of the payload. -/
def destroysPayload (status : UInt32) : Bool :=
  isSet status 4 || isSet status 5 || isSet status 7

/-- The payload behind the check.  A destroyed object keeps its size alone, so
of one with members nothing is left that may be read. -/
def payloadLeft (status : UInt32) (payload : JsonRoot) : JsonRoot :=
  match payload with
  | some (.object (_ :: _) _) => if destroysPayload status then none else payload
  | _ => payload

/-! ## The handler -/

structure LoginTokens where
  identity : List UInt8
  client : List UInt8
  deriving DecidableEq

structure PacketLogin where
  protocolVersion : Int32
  tokens : LoginTokens
  deriving DecidableEq

inductive LoginOutcome
  | ignored
  | disconnect (message : List UInt8)
  | playSuccess
  deriving DecidableEq, Repr

structure ChainState where
  kicktype : UInt8
  isMojang : Bool
  currentPublicKey : Option (List UInt8)
  player : MinecraftPlayer

/-- The kick of a status without the bit for done; 0 does not leave the loop. -/
def kicktypeOf (status : UInt32) : UInt8 :=
  if status = 0 ∨ isSet status 0 ∨ isSet status 2 ∨ isSet status 3 ∨ isSet status 4 ∨
      isSet status 7 then 1
  else if isSet status 6 then 2
  else if isSet status 8 then 3
  else 0

def stringEntry : JsonRoot → Option (List UInt8)
  | some (.string text) => some text
  | _ => none

/-- The branch `i == 2`; the second component says whether the loop goes on. -/
def readExtraData (payload : JsonRoot) (state : ChainState) :
    Except Fault (ChainState × Bool) := do
  let value ← getJsonObjectValue (bytes "extraData") payload
  match value with
  | some (.object keys members) =>
      let identity ← memberAt (bytes "identity") keys members
      let displayName ← memberAt (bytes "displayName") keys members
      let xuid ← memberAt (bytes "XUID") keys members
      let titleId ← memberAt (bytes "titleId") keys members
      let player := { state.player with
        identity := stringEntry identity
        displayName := stringEntry displayName
        xuid := stringEntry xuid
        titleId := stringEntry titleId }
      return ({ state with player }, true)
  | _ => return ({ state with kicktype := 1 }, false)

/-- One round of the loop over the chain. -/
def chainRound (environment : LoginEnvironment) (i : Nat) (member : JsonMulti)
    (state : ChainState) : Except Fault (ChainState × Bool) := do
  let token ← jsonString (some member)
  let jwtchain ← jwtDecode (environment.beyondBuffer i) token
  let (stat, currentPublicKey) ←
    veriflyJwtChain environment jwtchain state.currentPublicKey i
  let kicktype := if isSet stat 9 then state.kicktype else kicktypeOf stat
  if ¬isSet stat 9 ∧ kicktype ≠ 0 then
    return ({ state with kicktype, currentPublicKey }, false)
  else
    let isMojang := state.isMojang || isSet stat 1
    let state := { state with kicktype, isMojang, currentPublicKey }
    if i = 2 then readExtraData (payloadLeft stat jwtchain.payload) state else return (state, true)

def checkChain (environment : LoginEnvironment) :
    Nat → List JsonMulti → ChainState → Except Fault ChainState
  | _, [], state => .ok state
  | i, member :: chain, state => do
      let (state, goesOn) ← chainRound environment i member state
      if goesOn then checkChain environment (i + 1) chain state else return state

def identityChain (login : PacketLogin) : Except Fault (List JsonMulti) := do
  let (jsonRoot, _) ← parseJsonRoot (login.tokens.identity ++ [0])
  let chain ← getJsonObjectValue (bytes "chain") jsonRoot
  jsonArray chain

def kickMessage (kicktype : UInt8) : List UInt8 :=
  if kicktype = 0 then bytes "invalid login"
  else if kicktype = 1 then bytes "invalid login payload"
  else if kicktype = 2 then bytes "invalid login signature"
  else if kicktype = 3 then bytes "invalid login timestamp"
  else bytes "You need to authenticate to Xbox Live."

/-- A token whose text was released before its parts are read. -/
def releasedToken (environment : LoginEnvironment) (jwt : JwtData) : JwtData :=
  { jwt with
    rawHeader := environment.readFreed jwt.rawHeader
    rawPayload := environment.readFreed jwt.rawPayload
    signature := jwt.signature.map environment.readFreed }

/-- After the loop and its increment the client token has the position one
past the length of the chain. -/
def checkClient (environment : LoginEnvironment) (login : PacketLogin) (size : Nat)
    (currentPublicKey : Option (List UInt8)) : Except Fault LoginOutcome := do
  let clientData ← jwtDecode (environment.beyondBuffer (size + 1)) login.tokens.client
  let (stat, _) ←
    veriflyJwtChain environment (releasedToken environment clientData) currentPublicKey (size + 1)
  return if isSet stat 9 then .playSuccess else .disconnect (bytes "invalid skin payload")

def handlePacketLogin (environment : LoginEnvironment) (address : MiscAddress)
    (manager : MinecraftPlayerManager) (login : PacketLogin) :
    Except Fault (MinecraftPlayerManager × LoginOutcome) :=
  match getMinecraftPlayerAddress address manager with
  | none => .ok (manager, .ignored)
  | some player => do
      let chain ← identityChain login
      let state ← checkChain environment 0 chain ⟨255, false, none, player⟩
      let manager := manager.replace state.player
      if state.kicktype ≠ 255 ∨ ¬state.isMojang then
        return (manager, .disconnect (kickMessage state.kicktype))
      else
        let outcome ← checkClient environment login chain.length state.currentPublicKey
        return (manager, outcome)

end PodrumMinecraft.Login
