import PodrumFormal.Minecraft.LoginReads
import PodrumFormal.Minecraft.LoginRounds

/-!
# The logins of the expected types

On which identity and client texts every member that the login reads is the one
that the value's type names.
-/

set_option autoImplicit false

namespace PodrumMinecraft.LoginTypes

open PodrumMisc.CString PodrumMisc.Base64 PodrumMisc.Json PodrumMisc.Jwt
open PodrumRakNet.Packet Player AcceptedLogin Traced LoginReads LoginRounds
open Login hiding checkPayload checkSignature veriflyJwtChain readExtraData chainRound checkChain
  identityChain checkClient handlePacketLogin

/-! ## Tokens of the expected types -/

/-- The entry of that key is a number. -/
def NumberAt (key : List UInt8) (root : JsonRoot) : Prop :=
  ∃ value, getJsonObjectValue key root = .ok (some (.number value))

/-- With a key for the next token the times are numbers. -/
def TimesTyped (payload : JsonRoot) (first : Nat) : Prop :=
  first ≠ 4 → (stringAt (bytes "identityPublicKey") payload).isSome →
    NumberAt (bytes "exp") payload ∧ NumberAt (bytes "nbf") payload

/-- The payload behind a key that is not refused; `none` is one that does not
decode.  The times matter where the signature has its size and its check is set
up. -/
structure PayloadTyped (environment : LoginEnvironment) (jwt : JwtData)
    (headerDerKey : Option Decoded) (first : Nat) : Prop where
  object : Names jwt.payload .object
  times : (∃ signature, signatureOf jwt = some signature ∧ signature.outLen = 96) →
    ∀ key, headerDerKey = some key → setupFails environment key.bytes (combined jwt) = false →
      TimesTyped jwt.payload first

structure TokenTyped (environment : LoginEnvironment) (jwt : JwtData)
    (current : Option (List UInt8)) (first : Nat) : Prop where
  header : Names jwt.header .object
  payload : ∀ text, x5u jwt = some text →
    keyRefused ((charBase64Decode text).map Decoded.out) current first = .ok false →
      PayloadTyped environment jwt (charBase64Decode text) first

section Token

variable {environment : LoginEnvironment}

theorem all_readEntry {member : Member} {found : Except Fault JsonRoot} :
    All UnionRead.Named (readEntry member found) ↔
      ∃ root, found = .ok root ∧ Names root member := by
  rw [readEntry, all_note_bind, and_iff_left (all_silent found)]
  cases found with
  | ok root =>
      constructor
      · intro named
        exact ⟨root, rfl, named⟩
      · rintro ⟨other, same, named⟩
        cases same
        exact named
  | error fault =>
      constructor
      · intro named
        exact named.elim
      · rintro ⟨other, same, -⟩
        cases same

theorem all_readEntry_bind {member : Member} {found : Except Fault JsonRoot} {α : Type}
    {next : JsonRoot → Reading α} :
    All UnionRead.Named (readEntry member found >>= next) ↔
      (∃ root, found = .ok root ∧ Names root member) ∧
        ∀ root, found = .ok root → All UnionRead.Named (next root) := by
  rw [all_bind, outcome_readEntry, all_readEntry]

theorem intNumber_number (value : JsonNumber) :
    ∃ number, intNumber environment.floatBits (some (.number value)) = .ok number := by
  cases value with
  | int number => exact ⟨number, rfl⟩
  | float text => exact ⟨environment.floatBits text, rfl⟩

/-- A time that is a number is read, and the check goes on with it. -/
theorem all_time_bind {key : List UInt8} {payload : JsonRoot} {α : Type}
    {next : Int → Reading α} :
    All UnionRead.Named (do
        let entry ← readEntry .number (getJsonObjectValue key payload)
        let time ← silent (intNumber environment.floatBits entry)
        next time) ↔
      NumberAt key payload ∧ ∀ time, numberAt environment key payload = some time →
        All UnionRead.Named (next time) := by
  rw [all_readEntry_bind]
  constructor
  · rintro ⟨⟨root, found, named⟩, later⟩
    obtain ⟨value, rfl⟩ := names_number.mp named
    refine ⟨⟨value, found⟩, fun time read => ?_⟩
    obtain ⟨entry, same, number⟩ := numberAt_eq_some.mp read
    exact all_silent_bind.mp (later entry same) time number
  · rintro ⟨⟨value, found⟩, later⟩
    refine ⟨⟨_, found, trivial⟩, fun root same => all_silent_bind.mpr fun time number => ?_⟩
    exact later time (numberAt_eq_some.mpr ⟨root, same, number⟩)

theorem numberAt_of_number {key : List UInt8} {payload : JsonRoot}
    (number : NumberAt key payload) : ∃ time, numberAt environment key payload = some time := by
  obtain ⟨value, found⟩ := number
  obtain ⟨time, read⟩ := @intNumber_number environment value
  exact ⟨time, numberAt_eq_some.mpr ⟨_, found, read⟩⟩

theorem all_checkPayload (payload : JsonRoot) (status : UInt32) (current : Option (List UInt8))
    (first : Nat) :
    All UnionRead.Named (checkPayload environment payload status current first) ↔
      TimesTyped payload first := by
  rw [checkPayload, TimesTyped]
  by_cases fourth : first = 4
  · rw [if_pos fourth]
    exact iff_of_true (all_pure _) fun other => absurd fourth other
  · rw [if_neg fourth, all_silent_bind]
    constructor
    · intro holds _ present
      obtain ⟨text, named⟩ := Option.isSome_iff_exists.mp present
      obtain ⟨raw, found, -⟩ := stringAt_eq_some.mp named
      have behind := holds _ found
      obtain ⟨exp, later⟩ := all_time_bind.mp behind
      obtain ⟨time, read⟩ := @numberAt_of_number environment _ _ exp
      exact ⟨exp, (all_time_bind.mp (later time read)).1⟩
    · intro typed value found
      cases value with
      | none => exact all_pure _
      | some entry =>
          cases entry with
          | string raw =>
              obtain ⟨exp, nbf⟩ := typed fourth
                (Option.isSome_iff_exists.mpr ⟨_, stringAt_eq_some.mpr ⟨raw, found, rfl⟩⟩)
              refine all_time_bind.mpr ⟨exp, fun expTime _ => ?_⟩
              refine all_time_bind.mpr ⟨nbf, fun nbfTime _ => ?_⟩
              split
              · exact all_pure _
              · exact all_note_bind.mpr ⟨trivial, all_pure _⟩
          | _ => exact all_pure _

theorem all_checkSignature (jwt : JwtData) (headerDerKey : Option Decoded) (status : UInt32)
    (current : Option (List UInt8)) (first : Nat) :
    All UnionRead.Named (checkSignature environment jwt headerDerKey status current first) ↔
      PayloadTyped environment jwt headerDerKey first := by
  rw [checkSignature, all_note_bind]
  constructor
  · rintro ⟨object, holds⟩
    refine ⟨object, ?_⟩
    rintro ⟨signature, found, size⟩ key rfl started
    obtain ⟨raw, present, decode⟩ := signatureOf_eq_some.mp found
    have behind := all_silent_bind.mp (all_silent_bind.mp holds raw
      (orFault_eq_ok.mpr present)) _ decode
    have sized : lengthLeft (environment.unwrittenSignatureSize first) (some signature) = 96 := size
    rw [if_neg (not_not_intro sized)] at behind
    have checked := all_silent_bind.mp (all_silent_bind.mp behind signature rfl) _ rfl
    dsimp only at checked
    rw [started, if_neg Bool.false_ne_true] at checked
    exact (all_checkPayload _ _ _ _).mp checked
  · rintro ⟨object, times⟩
    refine ⟨object, all_silent_bind.mpr fun raw present =>
      all_silent_bind.mpr fun decoded decode => ?_⟩
    split
    · exact all_pure _
    · rename_i size
      refine all_silent_bind.mpr fun signature written => all_silent_bind.mpr fun key read => ?_
      rw [orFault_eq_ok] at present written
      rw [written] at decode size
      cases key with
      | none => exact all_pure _
      | some der =>
          obtain ⟨key, rfl, rfl⟩ := publicKey_some.mp read
          dsimp only
          cases started : setupFails environment key.bytes (combined jwt) with
          | true => exact all_pure _
          | false =>
              exact (all_checkPayload _ _ _ _).mpr (times ⟨signature,
                signatureOf_eq_some.mpr ⟨raw, present, decode⟩, not_not.mp size⟩ key rfl started)

/-- The reads of one token. -/
theorem all_veriflyJwtChain (jwt : JwtData) (current : Option (List UInt8)) (first : Nat) :
    All UnionRead.Named (veriflyJwtChain environment jwt current first) ↔
      TokenTyped environment jwt current first := by
  rw [veriflyJwtChain, all_note_bind]
  constructor
  · rintro ⟨object, holds⟩
    refine ⟨object, fun text named accepted => ?_⟩
    obtain ⟨raw, found, rfl⟩ := stringAt_eq_some.mp named
    have behind := (all_note_bind.mp (all_silent_bind.mp holds _ found)).2
    exact (all_checkSignature _ _ _ _ _).mp (all_silent_bind.mp behind false accepted)
  · rintro ⟨object, payload⟩
    refine ⟨object, all_silent_bind.mpr fun value found => ?_⟩
    cases value with
    | none => exact all_pure _
    | some entry =>
        cases entry with
        | string raw =>
            refine all_note_bind.mpr ⟨trivial, all_silent_bind.mpr fun refused compared => ?_⟩
            cases refused with
            | true => exact all_pure _
            | false =>
                exact (all_checkSignature _ _ _ _ _).mpr
                  (payload _ (stringAt_eq_some.mpr ⟨raw, found, rfl⟩) compared)
        | _ => exact all_pure _

end Token

/-! ## Chains of the expected types -/

/-- The four texts of the extra data, where it is an object. -/
structure ExtraTyped (payload : JsonRoot) : Prop where
  object : Names payload .object
  texts : ∀ keys members,
    getJsonObjectValue (bytes "extraData") payload = .ok (some (.object keys members)) →
      ∀ name ∈ ["identity", "displayName", "XUID", "titleId"],
        ∃ text, memberAt (bytes name) keys members = .ok (some (.string text))

/-- The object of the payload has no members, of which its destruction would
leave none to read. -/
def Memberless (payload : JsonRoot) : Prop := ∃ members, payload = some (.object [] members)

/-- Every member that is reached is a string, its token has the types that are
read of it, and so have the tokens behind it. -/
def ChainTyped (environment : LoginEnvironment) :
    Nat → List JsonMulti → Option (List UInt8) → Prop
  | _, [], _ => True
  | i, member :: chain, current =>
      ∃ token, member = .string token ∧
        ∀ jwt, jwtDecode (environment.beyondBuffer i) token = .ok jwt →
          TokenTyped environment jwt current i ∧
            ∀ next, GoesOn environment jwt current i next →
              (i = 2 → ExtraTyped jwt.payload ∧
                (SetupRefused environment jwt current i → Memberless jwt.payload)) ∧
              ((i = 2 → TokenShape environment jwt current i next ∧ HasExtraData jwt.payload) →
                ChainTyped environment (i + 1) chain next)

section Chain

variable {environment : LoginEnvironment}

/-- A text that is a string is read, and the branch goes on with it. -/
theorem all_readText_bind {name : List UInt8} {keys : List (List UInt8)}
    {members : List JsonMulti} {α : Type} {next : JsonRoot → Reading α} :
    All UnionRead.Named (readText (some (.object keys members)) name keys members >>= next) ↔
      ∃ text, memberAt name keys members = .ok (some (.string text)) ∧
        All UnionRead.Named (next (some (.string text))) := by
  rw [readText, all_bind, all_note_bind, all_readEntry]
  constructor
  · rintro ⟨⟨-, root, found, named⟩, later⟩
    obtain ⟨text, rfl⟩ := names_string.mp named
    exact ⟨text, found, later _ found⟩
  · rintro ⟨text, found, later⟩
    refine ⟨⟨trivial, _, found, trivial⟩, fun root same => ?_⟩
    rw [outcome_bind, outcome_note, ok_bind, outcome_readEntry, found] at same
    cases same
    exact later

theorem all_readExtraData (payload : JsonRoot) (state : ChainState) :
    All UnionRead.Named (readExtraData payload state) ↔ ExtraTyped payload := by
  rw [readExtraData, all_note_bind]
  constructor
  · rintro ⟨object, holds⟩
    refine ⟨object, fun keys members found => ?_⟩
    have behind := all_silent_bind.mp holds _ found
    obtain ⟨identity, identityFound, behind⟩ := all_readText_bind.mp behind
    obtain ⟨displayName, nameFound, behind⟩ := all_readText_bind.mp behind
    obtain ⟨xuid, xuidFound, behind⟩ := all_readText_bind.mp behind
    obtain ⟨titleId, titleFound, -⟩ := all_readText_bind.mp behind
    simp only [List.forall_mem_cons, List.not_mem_nil, false_imp_iff, implies_true, and_true]
    exact ⟨⟨_, identityFound⟩, ⟨_, nameFound⟩, ⟨_, xuidFound⟩, _, titleFound⟩
  · rintro ⟨object, texts⟩
    refine ⟨object, all_silent_bind.mpr fun value found => ?_⟩
    cases value with
    | none => exact all_pure _
    | some entry =>
        cases entry with
        | object keys members =>
            have named := texts keys members found
            obtain ⟨identity, identityFound⟩ := named "identity" (by simp)
            obtain ⟨displayName, nameFound⟩ := named "displayName" (by simp)
            obtain ⟨xuid, xuidFound⟩ := named "XUID" (by simp)
            obtain ⟨titleId, titleFound⟩ := named "titleId" (by simp)
            refine all_readText_bind.mpr ⟨identity, identityFound, ?_⟩
            refine all_readText_bind.mpr ⟨displayName, nameFound, ?_⟩
            refine all_readText_bind.mpr ⟨xuid, xuidFound, ?_⟩
            exact all_readText_bind.mpr ⟨titleId, titleFound, all_pure _⟩
        | _ => exact all_pure _

theorem extraTyped_destroyed {status : UInt32} (destroyed : destroysPayload status = true)
    (payload : JsonRoot) :
    ExtraTyped (payloadLeft status payload) ↔ ExtraTyped payload ∧ Memberless payload := by
  unfold payloadLeft
  split
  · rw [destroyed, if_pos rfl]
    refine iff_of_false (fun typed => typed.object.elim) ?_
    rintro ⟨-, members, same⟩
    cases same
  · rename_i memberless
    refine (and_iff_left_of_imp fun typed => ?_).symm
    have object := typed.object
    match payload with
    | some (.object [] members) => exact ⟨members, rfl⟩
    | some (.object (key :: keys) members) => exact absurd rfl (memberless key keys members)
    | none => exact object.elim
    | some (.array _) => exact object.elim
    | some (.string _) => exact object.elim
    | some (.number _) => exact object.elim
    | some (.bool _) => exact object.elim
    | some .null => exact object.elim

/-- What the branch of the third token may read behind a check that the loop
goes on from. -/
theorem extraTyped_left {jwt : JwtData} {result : UInt32} {current next : Option (List UInt8)}
    {first : Nat}
    (returned : Login.veriflyJwtChain environment jwt current first = .ok (result, next))
    (stays : Stays result) :
    ExtraTyped (payloadLeft result jwt.payload) ↔ ExtraTyped jwt.payload ∧
      (SetupRefused environment jwt current first → Memberless jwt.payload) := by
  rcases verifly_stays returned stays with ⟨shape, intact⟩ | ⟨refused, -, destroyed⟩
  · rw [payloadLeft_intact intact]
    exact (and_iff_left fun refused => absurd refused (not_refused shape)).symm
  · rw [extraTyped_destroyed destroyed]
    exact and_congr_right fun _ => ⟨fun none _ => none, fun none => none refused⟩

theorem all_chainRound (i : Nat) (member : JsonMulti) (state : ChainState) :
    All UnionRead.Named (chainRound environment i member state) ↔
      ∃ token, member = .string token ∧
        ∀ jwt, jwtDecode (environment.beyondBuffer i) token = .ok jwt →
          TokenTyped environment jwt state.currentPublicKey i ∧
            ∀ next, GoesOn environment jwt state.currentPublicKey i next →
              i = 2 → ExtraTyped jwt.payload ∧
                (SetupRefused environment jwt state.currentPublicKey i →
                  Memberless jwt.payload) := by
  rw [chainRound, all_note_bind]
  constructor
  · rintro ⟨string, holds⟩
    obtain ⟨token, same⟩ := names_string.mp string
    obtain rfl := Option.some.inj same
    refine ⟨token, rfl, fun jwt decoded => ?_⟩
    have behind := all_silent_bind.mp (all_silent_bind.mp holds token rfl) jwt decoded
    obtain ⟨typed, later⟩ := all_bind.mp behind
    refine ⟨(all_veriflyJwtChain _ _ _).mp typed, fun next goesOn second => ?_⟩
    obtain ⟨result, returned, stays⟩ := verifly_goesOn_iff.mpr goesOn
    have rest := later (result, next) ((outcome_veriflyJwtChain _ _ _).trans returned)
    dsimp only at rest
    rw [if_neg (fun leaves => leaves_iff.mp leaves stays), if_pos second] at rest
    exact (extraTyped_left returned stays).mp ((all_readExtraData _ _).mp rest)
  · rintro ⟨token, rfl, holds⟩
    refine ⟨trivial, all_silent_bind.mpr fun text same => all_silent_bind.mpr fun jwt decoded => ?_⟩
    obtain rfl := Except.ok.inj same
    obtain ⟨typed, extra⟩ := holds jwt decoded
    refine all_bind.mpr ⟨(all_veriflyJwtChain _ _ _).mpr typed, fun verified returned => ?_⟩
    obtain ⟨result, next⟩ := verified
    rw [outcome_veriflyJwtChain] at returned
    dsimp only
    by_cases stays : Stays result
    · rw [if_neg (fun leaves => leaves_iff.mp leaves stays)]
      split
      · rename_i second
        exact (all_readExtraData _ _).mpr ((extraTyped_left returned stays).mpr
          (extra next (verifly_goesOn_iff.mp ⟨result, returned, stays⟩) second))
      · exact all_pure _
    · rw [if_pos (leaves_iff.mpr stays)]
      exact all_pure _

/-- Only the key of the state decides what a round reads. -/
theorem all_checkChain (chain : List JsonMulti) : ∀ (i : Nat) (state : ChainState),
    All UnionRead.Named (checkChain environment i chain state) ↔
      ChainTyped environment i chain state.currentPublicKey := by
  induction chain with
  | nil => exact fun i state => iff_of_true (all_pure state) trivial
  | cons member chain ih =>
      intro i state
      rw [checkChain, all_bind, all_chainRound, ChainTyped]
      simp only [outcome_chainRound]
      constructor
      · rintro ⟨⟨token, rfl, typed⟩, later⟩
        refine ⟨token, rfl, fun jwt decoded => ?_⟩
        obtain ⟨tokenTyped, extra⟩ := typed jwt decoded
        refine ⟨tokenTyped, fun next goesOn => ⟨extra next goesOn, fun present => ?_⟩⟩
        obtain ⟨after, returned, rfl⟩ := (chainRound_goesOn_iff decoded).mpr ⟨goesOn, present⟩
        exact (ih (i + 1) after).mp (later (after, true) returned)
      · rintro ⟨token, rfl, typed⟩
        refine ⟨⟨token, rfl, fun jwt decoded => ?_⟩, fun round returned => ?_⟩
        · obtain ⟨tokenTyped, behind⟩ := typed jwt decoded
          exact ⟨tokenTyped, fun next goesOn => (behind next goesOn).1⟩
        · obtain ⟨after, goesOn⟩ := round
          cases goesOn with
          | false => exact all_pure after
          | true =>
              obtain ⟨text, same, decoding⟩ := bind_eq_ok.mp returned
              obtain rfl := Except.ok.inj same
              obtain ⟨jwt, decoded, -⟩ := bind_eq_ok.mp decoding
              obtain ⟨remains, present⟩ := (chainRound_goesOn_iff decoded).mp ⟨after, returned, rfl⟩
              exact (ih (i + 1) after).mpr (((typed jwt decoded).2 _ remains).2 present)

end Chain

/-! ## Logins of the expected types -/

/-- The types of the identity text, and of the client token where the handler
gets to it: behind a chain that passes every check and has the root key. -/
structure IdentityTyped (environment : LoginEnvironment) (login : PacketLogin) (root : JsonRoot) :
    Prop where
  object : Names root .object
  chain : ∃ chain, getJsonObjectValue (bytes "chain") root = .ok (some (.array chain)) ∧
    ChainTyped environment 0 chain none ∧
    ∀ final tokens client, ChainShape environment 0 chain none final tokens →
      (∃ jwt ∈ tokens, hasRootKey jwt = true) →
      jwtDecode (environment.beyondBuffer (chain.length + 1)) login.tokens.client = .ok client →
        TokenTyped environment (releasedToken environment client) final (chain.length + 1)

/-- On a text the parser does not return from nothing is read. -/
def LoginTyped (environment : LoginEnvironment) (login : PacketLogin) : Prop :=
  ∀ root rest, parseJsonRoot (login.tokens.identity ++ [0]) = .ok (root, rest) →
    IdentityTyped environment login root

section Login

variable {environment : LoginEnvironment}

theorem all_identityChain (login : PacketLogin) :
    All UnionRead.Named (identityChain login) ↔
      ∀ root rest, parseJsonRoot (login.tokens.identity ++ [0]) = .ok (root, rest) →
        Names root .object ∧
          ∃ chain, getJsonObjectValue (bytes "chain") root = .ok (some (.array chain)) := by
  rw [identityChain, all_silent_bind]
  constructor
  · intro holds root rest parsed
    obtain ⟨object, behind⟩ := all_note_bind.mp (holds (root, rest) parsed)
    obtain ⟨⟨entry, found, named⟩, -⟩ := all_readEntry_bind.mp behind
    obtain ⟨members, rfl⟩ := names_array.mp named
    exact ⟨object, members, found⟩
  · intro typed parse parsed
    obtain ⟨object, members, found⟩ := typed parse.1 parse.2 parsed
    exact all_note_bind.mpr ⟨object,
      all_readEntry_bind.mpr ⟨⟨_, found, trivial⟩, fun _ _ => all_silent _⟩⟩

theorem all_checkClient (login : PacketLogin) (size : Nat) (current : Option (List UInt8)) :
    All UnionRead.Named (checkClient environment login size current) ↔
      ∀ client, jwtDecode (environment.beyondBuffer (size + 1)) login.tokens.client =
          .ok client →
        TokenTyped environment (releasedToken environment client) current (size + 1) := by
  rw [checkClient, all_silent_bind]
  refine forall_congr' fun client => imp_congr_right fun _ => ?_
  rw [all_bind, all_veriflyJwtChain]
  exact and_iff_left fun verified _ => all_pure _

/-- Exactly on the logins of the expected types is every member that is read
the one the type names. -/
theorem reads_named_iff (environment : LoginEnvironment) (address : MiscAddress)
    (manager : MinecraftPlayerManager) (login : PacketLogin) :
    All UnionRead.Named (handlePacketLogin environment address manager login) ↔
      ((getMinecraftPlayerAddress address manager).isSome → LoginTyped environment login) := by
  rw [handlePacketLogin]
  cases getMinecraftPlayerAddress address manager with
  | none => exact iff_of_true (all_pure _) fun present => absurd present Bool.false_ne_true
  | some player =>
      rw [all_bind, all_identityChain]
      simp only [outcome_identityChain]
      constructor
      · rintro ⟨identity, later⟩ - root rest parsed
        obtain ⟨object, chain, found⟩ := identity root rest parsed
        obtain ⟨chainReads, behind⟩ :=
          all_bind.mp (later chain (identityChain_ok.mpr ⟨root, rest, parsed, found⟩))
        refine ⟨object, chain, found, (all_checkChain _ _ _).mp chainReads, ?_⟩
        intro final tokens client shape root decoded
        obtain ⟨state, checked, kept, mojang, rfl⟩ :=
          (@checkChain_accepts_iff environment chain player final).mpr ⟨tokens, shape, root⟩
        have clientReads := behind state ((outcome_checkChain _ _ _).trans checked)
        rw [if_neg (not_or.mpr ⟨not_not_intro kept, not_not_intro mojang⟩)] at clientReads
        exact (all_checkClient _ _ _).mp (all_bind.mp clientReads).1 client decoded
      · intro typed
        refine ⟨fun root rest parsed => ?_, fun chain returned => ?_⟩
        · obtain ⟨object, chain, found, -⟩ := typed rfl root rest parsed
          exact ⟨object, chain, found⟩
        · obtain ⟨root, rest, parsed, found⟩ := identityChain_ok.mp returned
          obtain ⟨-, other, otherFound, chainTyped, clientTyped⟩ := typed rfl root rest parsed
          obtain rfl : chain = other := by
            rw [found] at otherFound
            cases otherFound
            rfl
          refine all_bind.mpr ⟨(all_checkChain _ _ _).mpr chainTyped, fun state checked => ?_⟩
          rw [outcome_checkChain] at checked
          split
          · exact all_pure _
          · rename_i accepted
            obtain ⟨kept, mojang⟩ := not_or.mp accepted
            obtain ⟨tokens, shape, rootKey⟩ := checkChain_accepts_iff.mp
              ⟨state, checked, not_not.mp kept, not_not.mp mojang, rfl⟩
            refine all_bind.mpr ⟨(all_checkClient _ _ _).mpr fun client decoded => ?_,
              fun _ _ => all_pure _⟩
            exact clientTyped _ tokens client shape rootKey decoded

end Login

/-- An identity text with an array for its root, which is read as an object. -/
def arrayLogin : PacketLogin := { protocolVersion := 594, tokens := ⟨bytes "[]", []⟩ }

theorem array_read_as_object :
    ¬All UnionRead.Named
      (handlePacketLogin (sampleEnvironment 1) sampleAddress sampleManager arrayLogin) := by
  intro named
  have first : (⟨some (.array []), .object⟩ : UnionRead) ∈
      (handlePacketLogin (sampleEnvironment 1) sampleAddress sampleManager arrayLogin).log := by
    have logged : (handlePacketLogin (sampleEnvironment 1) sampleAddress sampleManager
        arrayLogin).log = [⟨some (.array []), .object⟩, ⟨none, .array⟩] := by rfl
    rw [logged]
    exact List.mem_cons_self
  exact named _ first

end PodrumMinecraft.LoginTypes
