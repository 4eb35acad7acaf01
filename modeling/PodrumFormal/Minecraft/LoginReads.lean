import PodrumFormal.Lib.Traced
import PodrumFormal.Minecraft.AcceptedLogin

/-!
# What the login reads of parsed values

A parsed value is a type and a union.  The two functions of the login are
followed once more with every read of a member of such a union logged, up to
their end or their first fault.
-/

set_option autoImplicit false

namespace PodrumMinecraft.LoginReads

open PodrumMisc.CString PodrumMisc.Base64 PodrumMisc.Json PodrumMisc.Jwt
open PodrumRakNet.Packet Player Login AcceptedLogin Traced

/-! ## Reads of a union -/

inductive Member
  | object
  | array
  | string
  | number
  deriving DecidableEq, Repr

/-- The type field of the value names the member. -/
def Names : JsonRoot → Member → Prop
  | some (.object _ _), .object => True
  | some (.array _), .array => True
  | some (.string _), .string => True
  | some (.number _), .number => True
  | _, _ => False

theorem names_string {root : JsonRoot} :
    Names root .string ↔ ∃ text, root = some (.string text) := by
  constructor
  · intro named
    cases root with
    | none => exact named.elim
    | some entry =>
        cases entry with
        | string text => exact ⟨text, rfl⟩
        | _ => exact named.elim
  · rintro ⟨text, rfl⟩
    trivial

theorem names_array {root : JsonRoot} :
    Names root .array ↔ ∃ members, root = some (.array members) := by
  constructor
  · intro named
    cases root with
    | none => exact named.elim
    | some entry =>
        cases entry with
        | array members => exact ⟨members, rfl⟩
        | _ => exact named.elim
  · rintro ⟨members, rfl⟩
    trivial

theorem names_number {root : JsonRoot} :
    Names root .number ↔ ∃ value, root = some (.number value) := by
  constructor
  · intro named
    cases root with
    | none => exact named.elim
    | some entry =>
        cases entry with
        | number value => exact ⟨value, rfl⟩
        | _ => exact named.elim
  · rintro ⟨value, rfl⟩
    trivial

structure UnionRead where
  value : JsonRoot
  member : Member

def UnionRead.Named (read : UnionRead) : Prop := Names read.value read.member

abbrev Reading (α : Type) := Traced UnionRead Fault α

/-- The member of an entry that was looked up and is not tested.  What no cell
holds has no type. -/
def readEntry (member : Member) (found : Except Fault JsonRoot) : Reading JsonRoot := do
  note ⟨found.toOption.join, member⟩
  silent found

/-! ## One token -/

/-- The object of the payload was read before. -/
def checkPayload (environment : LoginEnvironment) (payload : JsonRoot) (status : UInt32)
    (currentPublicKey : Option (List UInt8)) (first : Nat) :
    Reading (UInt32 × Option (List UInt8)) := do
  if first = 4 then return (status ||| bit 9, currentPublicKey)
  else
    let identityPublicKey ← silent (getJsonObjectValue (bytes "identityPublicKey") payload)
    match identityPublicKey with
    | some (.string rawIdentityPublicKey) =>
        let exp ← readEntry .number (getJsonObjectValue (bytes "exp") payload)
        let exp ← silent (intNumber environment.floatBits exp)
        let nbf ← readEntry .number (getJsonObjectValue (bytes "nbf") payload)
        let nbf ← silent (intNumber environment.floatBits nbf)
        if clockDiffers (environment.time first) exp nbf then
          return (status ||| bit 8, currentPublicKey)
        else
          note ⟨identityPublicKey, .string⟩
          return (status ||| bit 9,
            (charBase64Decode (cString rawIdentityPublicKey)).map Decoded.out)
    | _ => return (status ||| bit 7, currentPublicKey)

def checkSignature (environment : LoginEnvironment) (jwtchain : JwtData)
    (headerDerKey : Option Decoded) (status : UInt32) (currentPublicKey : Option (List UInt8))
    (first : Nat) : Reading (UInt32 × Option (List UInt8)) := do
  note ⟨jwtchain.payload, .object⟩
  let rawSignature ← silent (orFault .outOfBounds jwtchain.signature)
  let decoded ← silent (charBase64UrlDecode (cString rawSignature))
  if lengthLeft (environment.unwrittenSignatureSize first) decoded ≠ 96 then
    return (status ||| bit 4, currentPublicKey)
  else
    let signature ← silent (orFault .outOfBounds decoded)
    let key ← silent (publicKey environment headerDerKey first)
    match key with
    | none => return (status ||| bit 5, currentPublicKey)
    | some key =>
        if setupFails environment key (combined jwtchain) then
          return (status ||| bit 5, currentPublicKey)
        else
          checkPayload environment jwtchain.payload
            (status ||| flag (signatureResult environment key jwtchain signature ≠ 1) 6)
            currentPublicKey first

def veriflyJwtChain (environment : LoginEnvironment) (jwtchain : JwtData)
    (currentPublicKey : Option (List UInt8)) (first : Nat) :
    Reading (UInt32 × Option (List UInt8)) := do
  note ⟨jwtchain.header, .object⟩
  let x5u ← silent (getJsonObjectValue (bytes "x5u") jwtchain.header)
  match x5u with
  | some (.string rawPublicKey) =>
      note ⟨x5u, .string⟩
      let status := flag (cString rawPublicKey = mojangRootKey) 1
      let headerDerKey := charBase64Decode (cString rawPublicKey)
      let status := status |||
        flag (lengthLeft (environment.unwrittenOutLen first) headerDerKey ≠ 120) 2
      let refused ← silent (keyRefused (headerDerKey.map Decoded.out) currentPublicKey first)
      if refused then return (status ||| bit 3, currentPublicKey)
      else checkSignature environment jwtchain headerDerKey status currentPublicKey first
  | _ => return (1, currentPublicKey)

/-! ## The handler -/

/-- One of the four texts. -/
def readText (value : JsonRoot) (name : List UInt8) (keys : List (List UInt8))
    (members : List JsonMulti) : Reading JsonRoot := do
  note ⟨value, .object⟩
  readEntry .string (memberAt name keys members)

/-- A destroyed payload with members is no object any more. -/
def readExtraData (payload : JsonRoot) (state : ChainState) :
    Reading (ChainState × Bool) := do
  note ⟨payload, .object⟩
  let value ← silent (getJsonObjectValue (bytes "extraData") payload)
  match value with
  | some (.object keys members) =>
      let identity ← readText value (bytes "identity") keys members
      let displayName ← readText value (bytes "displayName") keys members
      let xuid ← readText value (bytes "XUID") keys members
      let titleId ← readText value (bytes "titleId") keys members
      let player := { state.player with
        identity := stringEntry identity
        displayName := stringEntry displayName
        xuid := stringEntry xuid
        titleId := stringEntry titleId }
      return ({ state with player }, true)
  | _ => return ({ state with kicktype := 1 }, false)

def chainRound (environment : LoginEnvironment) (i : Nat) (member : JsonMulti)
    (state : ChainState) : Reading (ChainState × Bool) := do
  note ⟨some member, .string⟩
  let token ← silent (jsonString (some member))
  let jwtchain ← silent (jwtDecode (environment.beyondBuffer i) token)
  let (stat, currentPublicKey) ←
    veriflyJwtChain environment jwtchain state.currentPublicKey i
  let kicktype := if isSet stat 9 then state.kicktype else kicktypeOf stat
  if ¬isSet stat 9 ∧ kicktype ≠ 0 then
    return ({ state with kicktype, currentPublicKey }, false)
  else
    let isMojang := state.isMojang || isSet stat 1
    let state := { state with kicktype, isMojang, currentPublicKey }
    if i = 2 then readExtraData (payloadLeft stat jwtchain.payload) state else return (state, true)

/-- The array is read for the test of the loop and for every index. -/
def checkChain (environment : LoginEnvironment) :
    Nat → List JsonMulti → ChainState → Reading ChainState
  | _, [], state => pure state
  | i, member :: chain, state => do
      let (state, goesOn) ← chainRound environment i member state
      if goesOn then checkChain environment (i + 1) chain state else return state

def identityChain (login : PacketLogin) : Reading (List JsonMulti) := do
  let (jsonRoot, _) ← silent (parseJsonRoot (login.tokens.identity ++ [0]))
  note ⟨jsonRoot, .object⟩
  let chain ← readEntry .array (getJsonObjectValue (bytes "chain") jsonRoot)
  silent (jsonArray chain)

def checkClient (environment : LoginEnvironment) (login : PacketLogin) (size : Nat)
    (currentPublicKey : Option (List UInt8)) : Reading LoginOutcome := do
  let clientData ← silent (jwtDecode (environment.beyondBuffer (size + 1)) login.tokens.client)
  let (stat, _) ←
    veriflyJwtChain environment (releasedToken environment clientData) currentPublicKey (size + 1)
  return if isSet stat 9 then .playSuccess else .disconnect (bytes "invalid skin payload")

def handlePacketLogin (environment : LoginEnvironment) (address : MiscAddress)
    (manager : MinecraftPlayerManager) (login : PacketLogin) :
    Reading (MinecraftPlayerManager × LoginOutcome) :=
  match getMinecraftPlayerAddress address manager with
  | none => pure (manager, .ignored)
  | some player => do
      let chain ← identityChain login
      let state ← checkChain environment 0 chain ⟨255, false, none, player⟩
      let manager := manager.replace state.player
      if state.kicktype ≠ 255 ∨ ¬state.isMojang then
        return (manager, .disconnect (kickMessage state.kicktype))
      else
        let outcome ← checkClient environment login chain.length state.currentPublicKey
        return (manager, outcome)

/-! ## The outcome -/

section Outcome

variable {environment : LoginEnvironment}

@[simp] theorem outcome_readEntry (member : Member) (found : Except Fault JsonRoot) :
    (readEntry member found).outcome = found := rfl

@[simp] theorem outcome_readText (value : JsonRoot) (name : List UInt8)
    (keys : List (List UInt8)) (members : List JsonMulti) :
    (readText value name keys members).outcome = memberAt name keys members := rfl

theorem outcome_checkPayload (payload : JsonRoot) (status : UInt32)
    (currentPublicKey : Option (List UInt8)) (first : Nat) :
    (checkPayload environment payload status currentPublicKey first).outcome =
      Login.checkPayload environment payload status currentPublicKey first := by
  rw [checkPayload, Login.checkPayload]
  by_cases fourth : first = 4
  · rw [if_pos fourth, if_pos fourth]
    rfl
  · rw [if_neg fourth, if_neg fourth, outcome_bind, outcome_silent]
    refine congrArg _ (funext fun identityPublicKey => ?_)
    cases identityPublicKey with
    | none => rfl
    | some entry =>
        cases entry with
        | string raw =>
            simp only [outcome_bind, outcome_readEntry, outcome_silent, apply_ite Traced.outcome,
              outcome_pure, outcome_note, ok_bind]
            rfl
        | _ => rfl

theorem outcome_checkSignature (jwtchain : JwtData) (headerDerKey : Option Decoded)
    (status : UInt32) (currentPublicKey : Option (List UInt8)) (first : Nat) :
    (checkSignature environment jwtchain headerDerKey status currentPublicKey first).outcome =
      Login.checkSignature environment jwtchain headerDerKey status currentPublicKey first := by
  rw [checkSignature, Login.checkSignature, outcome_bind, outcome_note, ok_bind, outcome_bind,
    outcome_silent]
  refine congrArg _ (funext fun raw => ?_)
  rw [outcome_bind, outcome_silent]
  refine congrArg _ (funext fun decoded => ?_)
  by_cases size : lengthLeft (environment.unwrittenSignatureSize first) decoded ≠ 96
  · rw [if_pos size, if_pos size]
    rfl
  · rw [if_neg size, if_neg size, outcome_bind, outcome_silent]
    refine congrArg _ (funext fun signature => ?_)
    rw [outcome_bind, outcome_silent]
    refine congrArg _ (funext fun key => ?_)
    cases key with
    | none => rfl
    | some key =>
        dsimp only
        rw [apply_ite Traced.outcome, outcome_pure, outcome_checkPayload]
        rfl

theorem outcome_veriflyJwtChain (jwtchain : JwtData) (currentPublicKey : Option (List UInt8))
    (first : Nat) :
    (veriflyJwtChain environment jwtchain currentPublicKey first).outcome =
      Login.veriflyJwtChain environment jwtchain currentPublicKey first := by
  rw [veriflyJwtChain, Login.veriflyJwtChain, outcome_bind, outcome_note, ok_bind, outcome_bind,
    outcome_silent]
  refine congrArg _ (funext fun x5u => ?_)
  cases x5u with
  | none => rfl
  | some entry =>
      cases entry with
      | string raw =>
          simp only [outcome_bind, outcome_note, outcome_silent, apply_ite Traced.outcome,
            outcome_pure, outcome_checkSignature, ok_bind]
          rfl
      | _ => rfl

theorem outcome_readExtraData (payload : JsonRoot) (state : ChainState) :
    (readExtraData payload state).outcome = Login.readExtraData payload state := by
  rw [readExtraData, Login.readExtraData, outcome_bind, outcome_note, ok_bind, outcome_bind,
    outcome_silent]
  refine congrArg _ (funext fun value => ?_)
  cases value with
  | none => rfl
  | some entry =>
      cases entry with
      | object keys members =>
          simp only [outcome_bind, outcome_readText, outcome_pure]
          rfl
      | _ => rfl

theorem outcome_chainRound (i : Nat) (member : JsonMulti) (state : ChainState) :
    (chainRound environment i member state).outcome =
      Login.chainRound environment i member state := by
  rw [chainRound, Login.chainRound]
  simp only [outcome_bind, outcome_note, outcome_silent, outcome_veriflyJwtChain,
    apply_ite Traced.outcome, outcome_pure, outcome_readExtraData, ok_bind]
  rfl

theorem outcome_checkChain (chain : List JsonMulti) : ∀ (i : Nat) (state : ChainState),
    (checkChain environment i chain state).outcome =
      Login.checkChain environment i chain state := by
  induction chain with
  | nil => exact fun i state => rfl
  | cons member chain ih =>
      intro i state
      rw [checkChain, Login.checkChain]
      simp only [outcome_bind, outcome_chainRound, apply_ite Traced.outcome, outcome_pure, ih]
      rfl

theorem outcome_identityChain (login : PacketLogin) :
    (identityChain login).outcome = Login.identityChain login := by
  rw [identityChain, Login.identityChain]
  simp only [outcome_bind, outcome_silent, outcome_note, outcome_readEntry, ok_bind]

theorem outcome_checkClient (login : PacketLogin) (size : Nat)
    (currentPublicKey : Option (List UInt8)) :
    (checkClient environment login size currentPublicKey).outcome =
      Login.checkClient environment login size currentPublicKey := by
  rw [checkClient, Login.checkClient]
  simp only [outcome_bind, outcome_silent, outcome_veriflyJwtChain, outcome_pure]
  rfl

/-- The logged computation is the login. -/
theorem outcome_handlePacketLogin (address : MiscAddress) (manager : MinecraftPlayerManager)
    (login : PacketLogin) :
    (handlePacketLogin environment address manager login).outcome =
      Login.handlePacketLogin environment address manager login := by
  rw [handlePacketLogin, Login.handlePacketLogin]
  cases getMinecraftPlayerAddress address manager with
  | none => rfl
  | some player =>
      simp only [outcome_bind, outcome_identityChain, outcome_checkChain, outcome_checkClient,
        apply_ite Traced.outcome, outcome_pure]
      rfl

end Outcome

end PodrumMinecraft.LoginReads
