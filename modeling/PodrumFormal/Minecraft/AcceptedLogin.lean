import PodrumFormal.Minecraft.Login

/-!
# The logins that are accepted

What the tokens of an accepted login look like, without the status bits and
without the answer of the signature check.
-/

set_option autoImplicit false

namespace PodrumMinecraft.AcceptedLogin

open PodrumMisc.CString PodrumMisc.Base64 PodrumMisc.Json PodrumMisc.Jwt
open PodrumRakNet.Packet Player Login

/-! ## The parts of a token -/

def stringAt (key : List UInt8) (root : JsonRoot) : Option (List UInt8) :=
  match getJsonObjectValue key root with
  | .ok (some (.string text)) => some (cString text)
  | _ => none

def numberAt (environment : LoginEnvironment) (key : List UInt8) (root : JsonRoot) :
    Option Int :=
  match getJsonObjectValue key root >>= intNumber environment.floatBits with
  | .ok value => some value
  | .error _ => none

def x5u (jwt : JwtData) : Option (List UInt8) := stringAt (bytes "x5u") jwt.header

def headerKey (jwt : JwtData) : Option Decoded := (x5u jwt).bind charBase64Decode

def identityPublicKey (jwt : JwtData) : Option (List UInt8) :=
  stringAt (bytes "identityPublicKey") jwt.payload

def identityKey (jwt : JwtData) : Option Decoded :=
  (identityPublicKey jwt).bind charBase64Decode

def signatureOf (jwt : JwtData) : Option Decoded :=
  jwt.signature.bind fun signature =>
    match charBase64UrlDecode (cString signature) with
    | .ok decoded => decoded
    | .error _ => none

def hasRootKey (jwt : JwtData) : Bool := x5u jwt = some mojangRootKey

theorem stringAt_eq_some {key text : List UInt8} {root : JsonRoot} :
    stringAt key root = some text ↔
      ∃ raw, getJsonObjectValue key root = .ok (some (.string raw)) ∧ cString raw = text := by
  unfold stringAt
  constructor
  · intro found
    split at found
    · rename_i raw value
      exact ⟨raw, value, Option.some.inj found⟩
    · cases found
  · rintro ⟨raw, value, rfl⟩
    rw [value]

theorem numberAt_eq_some {environment : LoginEnvironment} {key : List UInt8} {root : JsonRoot}
    {value : Int} :
    numberAt environment key root = some value ↔
      ∃ entry, getJsonObjectValue key root = .ok entry ∧
        intNumber environment.floatBits entry = .ok value := by
  rw [← bind_eq_ok]
  unfold numberAt
  cases getJsonObjectValue key root >>= intNumber environment.floatBits with
  | error fault => simp
  | ok found => simp

theorem publicKey_some {environment : LoginEnvironment} {headerDerKey : Option Decoded}
    {first : Nat} {key : List UInt8} :
    publicKey environment headerDerKey first = .ok (some key) ↔
      ∃ decoded, headerDerKey = some decoded ∧ decoded.bytes = key := by
  cases headerDerKey with
  | some decoded => simp [publicKey]
  | none =>
      rw [publicKey]
      split <;> simp

theorem signatureOf_eq_some {jwt : JwtData} {decoded : Decoded} :
    signatureOf jwt = some decoded ↔
      ∃ raw, jwt.signature = some raw ∧ charBase64UrlDecode (cString raw) = .ok (some decoded) := by
  unfold signatureOf
  rw [Option.bind_eq_some_iff]
  apply exists_congr
  intro raw
  apply and_congr_right
  intro _
  cases charBase64UrlDecode (cString raw) with
  | error fault => simp
  | ok found => simp

/-! ## The checks other than the signature -/

/-- Where the fourth position does not end the check, the payload names the
next key and its times are near the clock. -/
structure PayloadShape (environment : LoginEnvironment) (jwt : JwtData) (first : Nat)
    (next : Option (List UInt8)) : Prop where
  key : ∃ text, identityPublicKey jwt = some text ∧
    next = (charBase64Decode text).map Decoded.out
  times : ∃ exp nbf, numberAt environment (bytes "exp") jwt.payload = some exp ∧
    numberAt environment (bytes "nbf") jwt.payload = some nbf ∧
    clockDiffers (environment.time first) exp nbf = false

/-- A token at position `first`, after a token that left `current` as the key
to have, and leaving `next`. -/
structure TokenShape (environment : LoginEnvironment) (jwt : JwtData)
    (current : Option (List UInt8)) (first : Nat) (next : Option (List UInt8)) : Prop where
  key : ∃ key, headerKey jwt = some key ∧ keyRefused (some key.out) current first = .ok false ∧
    setupFails environment key.bytes (combined jwt) = false
  signature : ∃ signature, signatureOf jwt = some signature ∧ signature.outLen = 96
  payload : (first = 4 ∧ next = current) ∨ (first ≠ 4 ∧ PayloadShape environment jwt first next)

/-- The only returns with the bit for done are the two that set it. -/
theorem checkPayload_done {environment : LoginEnvironment} {jwt : JwtData}
    {status result : UInt32} {current next : Option (List UInt8)} {first : Nat}
    (clear : isSet status 9 = false)
    (returned : checkPayload environment jwt.payload status current first = .ok (result, next))
    (done : isSet result 9 = true) :
    ((first = 4 ∧ next = current) ∨ (first ≠ 4 ∧ PayloadShape environment jwt first next)) ∧
      result = status ||| bit 9 := by
  rw [checkPayload] at returned
  by_cases fourth : first = 4
  · rw [if_pos fourth] at returned
    obtain ⟨rfl, rfl⟩ := Prod.mk.inj (Except.ok.inj returned)
    exact ⟨Or.inl ⟨fourth, rfl⟩, rfl⟩
  · rw [if_neg fourth] at returned
    obtain ⟨entry, found, returned⟩ := bind_eq_ok.mp returned
    split at returned
    · rename_i raw
      obtain ⟨exp, expFound, returned⟩ := bind_eq_ok.mp returned
      obtain ⟨expValue, expRead, returned⟩ := bind_eq_ok.mp returned
      obtain ⟨nbf, nbfFound, returned⟩ := bind_eq_ok.mp returned
      obtain ⟨nbfValue, nbfRead, returned⟩ := bind_eq_ok.mp returned
      split at returned
      · obtain ⟨rfl, rfl⟩ := Prod.mk.inj (Except.ok.inj returned)
        rw [isSet_or, clear] at done
        exact absurd done (by decide)
      · rename_i inTime
        obtain ⟨rfl, rfl⟩ := Prod.mk.inj (Except.ok.inj returned)
        refine ⟨Or.inr ⟨fourth, ?_, ?_⟩, rfl⟩
        · exact ⟨cString raw, stringAt_eq_some.mpr ⟨raw, found, rfl⟩, rfl⟩
        · exact ⟨expValue, nbfValue, numberAt_eq_some.mpr ⟨exp, expFound, expRead⟩,
            numberAt_eq_some.mpr ⟨nbf, nbfFound, nbfRead⟩, Bool.eq_false_iff.mpr inTime⟩
    · obtain ⟨rfl, rfl⟩ := Prod.mk.inj (Except.ok.inj returned)
      rw [isSet_or, clear] at done
      exact absurd done (by decide)

theorem checkPayload_of_shape {environment : LoginEnvironment} {jwt : JwtData}
    {current next : Option (List UInt8)} {first : Nat} (status : UInt32)
    (shape : (first = 4 ∧ next = current) ∨
      (first ≠ 4 ∧ PayloadShape environment jwt first next)) :
    checkPayload environment jwt.payload status current first = .ok (status ||| bit 9, next) := by
  rw [checkPayload]
  rcases shape with ⟨fourth, rfl⟩ | ⟨other, ⟨text, found, rfl⟩, exp, nbf, expFound, nbfFound, near⟩
  · rw [if_pos fourth]
    rfl
  · obtain ⟨raw, entry, rfl⟩ := stringAt_eq_some.mp found
    obtain ⟨expEntry, expFound, expRead⟩ := numberAt_eq_some.mp expFound
    obtain ⟨nbfEntry, nbfFound, nbfRead⟩ := numberAt_eq_some.mp nbfFound
    rw [if_neg other]
    simp only [entry, expFound, expRead, nbfFound, nbfRead, bind, Except.bind, near]
    rfl

/-- Whether the signature verifies shows in bit 6 alone. -/
theorem checkSignature_done {environment : LoginEnvironment} {jwt : JwtData}
    {headerDerKey : Option Decoded} {status result : UInt32}
    {current next : Option (List UInt8)} {first : Nat} (clear : isSet status 9 = false)
    (returned :
      checkSignature environment jwt headerDerKey status current first = .ok (result, next))
    (done : isSet result 9 = true) :
    (∃ signature, signatureOf jwt = some signature ∧ signature.outLen = 96) ∧
      (∃ key, headerDerKey = some key ∧
        setupFails environment key.bytes (combined jwt) = false) ∧
      ((first = 4 ∧ next = current) ∨ (first ≠ 4 ∧ PayloadShape environment jwt first next)) ∧
      ∀ index, isSet (bit 6) index = false → isSet (bit 9) index = false →
        isSet result index = isSet status index := by
  obtain ⟨raw, present, returned⟩ := bind_eq_ok.mp returned
  obtain ⟨decoded, decode, returned⟩ := bind_eq_ok.mp returned
  have unfinished (index : UInt32) (other : isSet (bit index) 9 = false) :
      result ≠ status ||| bit index := by
    rintro rfl
    rw [isSet_or, clear, other] at done
    cases done
  split at returned
  · obtain ⟨rfl, rfl⟩ := Prod.mk.inj (Except.ok.inj returned)
    exact absurd rfl (unfinished 4 (by decide))
  · rename_i size
    obtain ⟨signature, written, returned⟩ := bind_eq_ok.mp returned
    rw [orFault_eq_ok.mp written] at decode size
    obtain ⟨keyBytes, found, returned⟩ := bind_eq_ok.mp returned
    split at returned
    · obtain ⟨rfl, rfl⟩ := Prod.mk.inj (Except.ok.inj returned)
      exact absurd rfl (unfinished 5 (by decide))
    · obtain ⟨key, rfl, rfl⟩ := publicKey_some.mp found
      split at returned
      · obtain ⟨rfl, rfl⟩ := Prod.mk.inj (Except.ok.inj returned)
        exact absurd rfl (unfinished 5 (by decide))
      · rename_i started
        have stillClear (verdict : Prop) [Decidable verdict] :
            isSet (status ||| flag verdict 6) 9 = false := by
          rw [isSet_or, clear, isSet_flag]
          simp [show isSet (bit 6) 9 = false by decide]
        obtain ⟨payload, rfl⟩ := checkPayload_done (stillClear _) returned done
        refine ⟨⟨signature, signatureOf_eq_some.mpr ⟨raw, orFault_eq_ok.mp present, decode⟩,
          not_not.mp size⟩, ⟨key, rfl, Bool.eq_false_iff.mpr started⟩, payload, ?_⟩
        intro index signed finished
        rw [isSet_or, isSet_or, isSet_flag, signed, finished, Bool.and_false, Bool.or_false,
          Bool.or_false]

theorem checkSignature_of_shape {environment : LoginEnvironment} {jwt : JwtData}
    {key : Decoded} {current next : Option (List UInt8)} {first : Nat} (status : UInt32)
    (sized : ∃ signature, signatureOf jwt = some signature ∧ signature.outLen = 96)
    (started : setupFails environment key.bytes (combined jwt) = false)
    (payload : (first = 4 ∧ next = current) ∨
      (first ≠ 4 ∧ PayloadShape environment jwt first next)) :
    ∃ result, checkSignature environment jwt (some key) status current first =
      .ok (result, next) ∧ isSet result 9 = true := by
  obtain ⟨signature, found, size⟩ := sized
  obtain ⟨raw, present, decode⟩ := signatureOf_eq_some.mp found
  refine ⟨(status ||| flag (signatureResult environment key.bytes jwt signature ≠ 1) 6) ||| bit 9,
    ?_, ?_⟩
  · simp only [checkSignature, present, decode, orFault, bind, Except.bind, lengthLeft,
      Option.elim_some, size, publicKey, started]
    exact checkPayload_of_shape _ payload
  · rw [isSet_or]
    simp [show isSet (bit 9) 9 = true by decide]

theorem verifly_done {environment : LoginEnvironment} {jwt : JwtData} {result : UInt32}
    {current next : Option (List UInt8)} {first : Nat}
    (returned : veriflyJwtChain environment jwt current first = .ok (result, next))
    (done : isSet result 9 = true) :
    TokenShape environment jwt current first next ∧ isSet result 1 = hasRootKey jwt ∧
      destroysPayload result = false := by
  obtain ⟨entry, found, returned⟩ := bind_eq_ok.mp returned
  split at returned
  · rename_i raw
    obtain ⟨refused, compared, returned⟩ := bind_eq_ok.mp returned
    have text : x5u jwt = some (cString raw) := stringAt_eq_some.mpr ⟨raw, found, rfl⟩
    have clear (index : UInt32) (root : isSet (bit 1) index = false)
        (size : isSet (bit 2) index = false) (wrong : Prop) [Decidable wrong] :
        isSet (flag (cString raw = mojangRootKey) 1 ||| flag wrong 2) index = false := by
      rw [isSet_or, isSet_flag, isSet_flag, root, size, Bool.and_false, Bool.and_false,
        Bool.or_false]
    split at returned
    · obtain ⟨rfl, rfl⟩ := Prod.mk.inj (Except.ok.inj returned)
      rw [isSet_or, clear 9 (by decide) (by decide)] at done
      exact absurd done (by decide)
    · rename_i accepted
      obtain ⟨signature, ⟨key, decoded, started⟩, payload, same⟩ :=
        checkSignature_done (clear 9 (by decide) (by decide) _) returned done
      rw [decoded, Bool.eq_false_iff.mpr accepted] at compared
      refine ⟨⟨⟨key, ?_, compared, started⟩, signature, payload⟩, ?_, ?_⟩
      · rw [headerKey, text, Option.bind_some, decoded]
      · rw [same 1 (by decide) (by decide), isSet_or, isSet_flag, isSet_flag, hasRootKey, text]
        simp [show isSet (bit 1) 1 = true by decide, show isSet (bit 2) 1 = false by decide]
      · rw [destroysPayload, same 4 (by decide) (by decide), same 5 (by decide) (by decide),
          same 7 (by decide) (by decide), clear 4 (by decide) (by decide),
          clear 5 (by decide) (by decide), clear 7 (by decide) (by decide)]
        rfl
  · obtain ⟨rfl, rfl⟩ := Prod.mk.inj (Except.ok.inj returned)
    exact absurd done (by decide)

theorem verifly_of_shape {environment : LoginEnvironment} {jwt : JwtData}
    {current next : Option (List UInt8)} {first : Nat}
    (shape : TokenShape environment jwt current first next) :
    ∃ result, veriflyJwtChain environment jwt current first = .ok (result, next) ∧
      isSet result 9 = true := by
  obtain ⟨key, keyed, compared, started⟩ := shape.key
  obtain ⟨text, named, decoded⟩ := Option.bind_eq_some_iff.mp keyed
  obtain ⟨raw, found, rfl⟩ := stringAt_eq_some.mp named
  obtain ⟨result, checked, done⟩ := checkSignature_of_shape
    (flag (cString raw = mojangRootKey) 1 ||| flag (key.outLen ≠ 120) 2)
    shape.signature started shape.payload
  refine ⟨result, ?_, done⟩
  simp only [veriflyJwtChain, found, decoded, bind, Except.bind, Option.map_some, compared,
    lengthLeft, Option.elim_some]
  exact checked

theorem payloadLeft_intact {status : UInt32} (intact : destroysPayload status = false)
    (payload : JsonRoot) : payloadLeft status payload = payload := by
  unfold payloadLeft
  split
  · rw [intact]
    rfl
  · rfl

/-! ## The chain -/

/-- The four lookups of the branch `i == 2` return. -/
def HasExtraData (payload : JsonRoot) : Prop :=
  ∃ keys members, getJsonObjectValue (bytes "extraData") payload =
      .ok (some (.object keys members)) ∧
    ∀ name ∈ ["identity", "displayName", "XUID", "titleId"],
      ∃ entry, memberAt (bytes name) keys members = .ok entry

inductive ChainShape (environment : LoginEnvironment) :
    Nat → List JsonMulti → Option (List UInt8) → Option (List UInt8) → List JwtData → Prop
  | nil (i : Nat) (current : Option (List UInt8)) :
      ChainShape environment i [] current current []
  | cons {i : Nat} {token : List UInt8} {chain : List JsonMulti}
      {current next final : Option (List UInt8)} {jwt : JwtData} {tokens : List JwtData}
      (decoded : jwtDecode (environment.beyondBuffer i) token = .ok jwt)
      (shape : TokenShape environment jwt current i next)
      (extra : i = 2 → HasExtraData jwt.payload)
      (rest : ChainShape environment (i + 1) chain next final tokens) :
      ChainShape environment i (.string token :: chain) current final (jwt :: tokens)

/-- The branch changes the player and the kick alone. -/
theorem readExtraData_ok {payload : JsonRoot} {state next : ChainState} {goesOn : Bool}
    (returned : readExtraData payload state = .ok (next, goesOn)) :
    (goesOn = true ∧ HasExtraData payload ∧ ∃ player, next = { state with player }) ∨
      (goesOn = false ∧ next.kicktype = 1) := by
  obtain ⟨value, found, returned⟩ := bind_eq_ok.mp returned
  split at returned
  · rename_i keys members
    obtain ⟨identity, identityFound, returned⟩ := bind_eq_ok.mp returned
    obtain ⟨displayName, nameFound, returned⟩ := bind_eq_ok.mp returned
    obtain ⟨xuid, xuidFound, returned⟩ := bind_eq_ok.mp returned
    obtain ⟨titleId, titleFound, returned⟩ := bind_eq_ok.mp returned
    obtain ⟨rfl, rfl⟩ := Prod.mk.inj (Except.ok.inj returned)
    refine Or.inl ⟨rfl, ⟨keys, members, found, ?_⟩, _, rfl⟩
    simp only [List.forall_mem_cons, List.not_mem_nil, false_imp_iff, implies_true, and_true]
    exact ⟨⟨_, identityFound⟩, ⟨_, nameFound⟩, ⟨_, xuidFound⟩, _, titleFound⟩
  · obtain ⟨rfl, rfl⟩ := Prod.mk.inj (Except.ok.inj returned)
    exact Or.inr ⟨rfl, rfl⟩

theorem readExtraData_of_extra {payload : JsonRoot} (state : ChainState)
    (extra : HasExtraData payload) :
    ∃ player, readExtraData payload state = .ok ({ state with player }, true) := by
  obtain ⟨keys, members, found, present⟩ := extra
  obtain ⟨identity, identityFound⟩ := present "identity" (by simp)
  obtain ⟨displayName, nameFound⟩ := present "displayName" (by simp)
  obtain ⟨xuid, xuidFound⟩ := present "XUID" (by simp)
  obtain ⟨titleId, titleFound⟩ := present "titleId" (by simp)
  simp only [readExtraData, found, identityFound, nameFound, xuidFound, titleFound, bind,
    Except.bind]
  exact ⟨_, rfl⟩

theorem kicktypeOf_ne (status : UInt32) : kicktypeOf status ≠ 255 := by
  unfold kicktypeOf
  split
  · decide
  · split
    · decide
    · split <;> decide

/-- A round that keeps the kick is one of a token that was done. -/
theorem chainRound_cases {environment : LoginEnvironment} {i : Nat} {member : JsonMulti}
    {state next : ChainState} {goesOn : Bool}
    (returned : chainRound environment i member state = .ok (next, goesOn)) :
    (∃ token jwt, member = .string token ∧ goesOn = true ∧
      jwtDecode (environment.beyondBuffer i) token = .ok jwt ∧
      TokenShape environment jwt state.currentPublicKey i next.currentPublicKey ∧
      (i = 2 → HasExtraData jwt.payload) ∧ next.kicktype = state.kicktype ∧
      next.isMojang = (state.isMojang || hasRootKey jwt)) ∨ next.kicktype ≠ 255 := by
  obtain ⟨token, isString, returned⟩ := bind_eq_ok.mp returned
  obtain ⟨jwt, decoded, returned⟩ := bind_eq_ok.mp returned
  obtain ⟨⟨stat, key⟩, verified, returned⟩ := bind_eq_ok.mp returned
  have string : member = .string token := by
    cases member with
    | string text => exact congrArg _ (Except.ok.inj isString)
    | _ => cases isString
  dsimp only at returned
  by_cases done : isSet stat 9 = true
  · obtain ⟨shape, root, intact⟩ := verifly_done verified done
    rw [if_neg (fun kicked => kicked.1 done), if_pos done, payloadLeft_intact intact] at returned
    split at returned
    · rename_i second
      rcases readExtraData_ok returned with ⟨rfl, extra, player, rfl⟩ | ⟨-, kicked⟩
      · exact Or.inl ⟨token, jwt, string, rfl, decoded, shape, fun _ => extra, rfl,
          by rw [root]⟩
      · exact Or.inr (by rw [kicked]; decide)
    · rename_i other
      obtain ⟨rfl, rfl⟩ := Prod.mk.inj (Except.ok.inj returned)
      exact Or.inl ⟨token, jwt, string, rfl, decoded, shape, fun second => absurd second other,
        rfl, by rw [root]⟩
  · right
    rw [if_neg done] at returned
    split at returned
    · obtain ⟨rfl, rfl⟩ := Prod.mk.inj (Except.ok.inj returned)
      exact kicktypeOf_ne stat
    · split at returned
      · rcases readExtraData_ok returned with ⟨-, -, player, rfl⟩ | ⟨-, kicked⟩
        · exact kicktypeOf_ne stat
        · rw [kicked]
          decide
      · obtain ⟨rfl, rfl⟩ := Prod.mk.inj (Except.ok.inj returned)
        exact kicktypeOf_ne stat

theorem chainRound_of_shape {environment : LoginEnvironment} {i : Nat} {token : List UInt8}
    {state : ChainState} {next : Option (List UInt8)} {jwt : JwtData}
    (decoded : jwtDecode (environment.beyondBuffer i) token = .ok jwt)
    (shape : TokenShape environment jwt state.currentPublicKey i next)
    (extra : i = 2 → HasExtraData jwt.payload) :
    ∃ after, chainRound environment i (.string token) state = .ok (after, true) ∧
      after.kicktype = state.kicktype ∧ after.currentPublicKey = next ∧
      after.isMojang = (state.isMojang || hasRootKey jwt) := by
  obtain ⟨stat, verified, done⟩ := verifly_of_shape shape
  obtain ⟨-, root, intact⟩ := verifly_done verified done
  have unfolded : chainRound environment i (.string token) state =
      (if i = 2 then readExtraData jwt.payload
          ⟨state.kicktype, state.isMojang || isSet stat 1, next, state.player⟩
        else .ok (⟨state.kicktype, state.isMojang || isSet stat 1, next, state.player⟩, true)) := by
    simp only [chainRound, jsonString, decoded, verified, bind, Except.bind, done, if_true,
      not_true_eq_false, false_and, if_false, payloadLeft_intact intact]
    rfl
  rw [unfolded, root]
  split
  · rename_i second
    obtain ⟨player, returned⟩ := readExtraData_of_extra
      ⟨state.kicktype, state.isMojang || hasRootKey jwt, next, state.player⟩ (extra second)
    exact ⟨_, returned, rfl, rfl, rfl⟩
  · exact ⟨_, rfl, rfl, rfl, rfl⟩

/-- Once set, the kick is never taken back. -/
theorem checkChain_kicked {environment : LoginEnvironment} {chain : List JsonMulti} :
    ∀ {i : Nat} {state final : ChainState}, state.kicktype ≠ 255 →
      checkChain environment i chain state = .ok final → final.kicktype ≠ 255 := by
  induction chain with
  | nil =>
      intro i state final kicked returned
      obtain rfl := Except.ok.inj returned
      exact kicked
  | cons member chain ih =>
      intro i state final kicked returned
      obtain ⟨⟨next, goesOn⟩, round, returned⟩ := bind_eq_ok.mp returned
      have nextKicked : next.kicktype ≠ 255 := by
        rcases chainRound_cases round with ⟨_, _, -, -, -, -, -, same, -⟩ | nextKicked
        · rw [same]
          exact kicked
        · exact nextKicked
      dsimp only at returned
      split at returned
      · exact ih nextKicked returned
      · obtain rfl := Except.ok.inj returned
        exact nextKicked

theorem checkChain_done {environment : LoginEnvironment} {chain : List JsonMulti} :
    ∀ {i : Nat} {state final : ChainState},
      checkChain environment i chain state = .ok final → final.kicktype = 255 →
      ∃ tokens, ChainShape environment i chain state.currentPublicKey final.currentPublicKey
          tokens ∧
        final.isMojang = (state.isMojang || tokens.any hasRootKey) := by
  induction chain with
  | nil =>
      intro i state final returned kept
      obtain rfl := Except.ok.inj returned
      exact ⟨[], ChainShape.nil i _, by simp⟩
  | cons member chain ih =>
      intro i state final returned kept
      obtain ⟨⟨next, goesOn⟩, round, returned⟩ := bind_eq_ok.mp returned
      dsimp only at returned
      rcases chainRound_cases round with
        ⟨token, jwt, rfl, rfl, decoded, shape, extra, -, root⟩ | kicked
      · obtain ⟨tokens, rest, mojang⟩ := ih returned kept
        refine ⟨jwt :: tokens, ChainShape.cons decoded shape extra rest, ?_⟩
        rw [mojang, root, List.any_cons, Bool.or_assoc]
      · split at returned
        · exact absurd kept (checkChain_kicked kicked returned)
        · obtain rfl := Except.ok.inj returned
          exact absurd kept kicked

theorem checkChain_of_shape {environment : LoginEnvironment} {i : Nat} {chain : List JsonMulti}
    {current final : Option (List UInt8)} {tokens : List JwtData}
    (shape : ChainShape environment i chain current final tokens) :
    ∀ state : ChainState, state.currentPublicKey = current →
      ∃ after, checkChain environment i chain state = .ok after ∧
        after.kicktype = state.kicktype ∧ after.currentPublicKey = final ∧
        after.isMojang = (state.isMojang || tokens.any hasRootKey) := by
  induction shape with
  | nil i current =>
      intro state same
      exact ⟨state, rfl, rfl, same, by simp⟩
  | cons decoded shape extra rest ih =>
      intro state same
      rw [← same] at shape
      obtain ⟨middle, round, kept, key, root⟩ := chainRound_of_shape decoded shape extra
      obtain ⟨after, returned, afterKept, afterKey, afterRoot⟩ := ih middle key
      refine ⟨after, ?_, afterKept.trans kept, afterKey, ?_⟩
      · simp only [checkChain, round, bind, Except.bind, if_true]
        exact returned
      · rw [afterRoot, root, List.any_cons, Bool.or_assoc]

/-- The chains behind which the client token is read. -/
theorem checkChain_accepts_iff {environment : LoginEnvironment} {chain : List JsonMulti}
    {player : MinecraftPlayer} {final : Option (List UInt8)} :
    (∃ state, checkChain environment 0 chain ⟨255, false, none, player⟩ = .ok state ∧
      state.kicktype = 255 ∧ state.isMojang = true ∧ state.currentPublicKey = final) ↔
      ∃ tokens, ChainShape environment 0 chain none final tokens ∧
        ∃ jwt ∈ tokens, hasRootKey jwt = true := by
  constructor
  · rintro ⟨state, checked, kept, mojang, rfl⟩
    obtain ⟨tokens, shape, root⟩ := checkChain_done checked kept
    rw [mojang, Bool.false_or] at root
    exact ⟨tokens, shape, List.any_eq_true.mp root.symm⟩
  · rintro ⟨tokens, shape, root⟩
    obtain ⟨state, checked, kept, key, mojang⟩ :=
      checkChain_of_shape shape ⟨255, false, none, player⟩ rfl
    rw [Bool.false_or] at mojang
    exact ⟨state, checked, kept, mojang.trans (List.any_eq_true.mpr root), key⟩

/-! ## The whole login -/

/-- Every check but that of the signatures passes. -/
structure LoginShape (environment : LoginEnvironment) (login : PacketLogin)
    (tokens : List JwtData) (client : JwtData) : Prop where
  chain : ∃ chain final, identityChain login = .ok chain ∧
    ChainShape environment 0 chain none final tokens ∧
    jwtDecode (environment.beyondBuffer (chain.length + 1)) login.tokens.client = .ok client ∧
    ∃ next, TokenShape environment (releasedToken environment client) final (chain.length + 1) next
  root : ∃ jwt ∈ tokens, hasRootKey jwt = true

def Accepted (environment : LoginEnvironment) (address : MiscAddress)
    (manager : MinecraftPlayerManager) (login : PacketLogin) : Prop :=
  ∃ after, handlePacketLogin environment address manager login = .ok (after, .playSuccess)

theorem checkClient_success {environment : LoginEnvironment} {login : PacketLogin} {size : Nat}
    {current : Option (List UInt8)} :
    checkClient environment login size current = .ok .playSuccess ↔
      ∃ client, jwtDecode (environment.beyondBuffer (size + 1)) login.tokens.client = .ok client ∧
        ∃ next, TokenShape environment (releasedToken environment client) current (size + 1)
          next := by
  rw [checkClient, bind_eq_ok]
  apply exists_congr
  intro client
  apply and_congr_right
  intro _
  rw [bind_eq_ok]
  constructor
  · rintro ⟨⟨stat, next⟩, verified, outcome⟩
    dsimp only at outcome
    split at outcome
    · rename_i done
      exact ⟨next, (verifly_done verified done).1⟩
    · cases outcome
  · rintro ⟨next, shape⟩
    obtain ⟨stat, verified, done⟩ := verifly_of_shape shape
    refine ⟨(stat, next), verified, ?_⟩
    simp only [done, if_true]
    rfl

/-- The answers of the signature check are nowhere in the condition. -/
theorem accepted_iff (environment : LoginEnvironment) (address : MiscAddress)
    (manager : MinecraftPlayerManager) (login : PacketLogin) :
    Accepted environment address manager login ↔
      (getMinecraftPlayerAddress address manager).isSome ∧
        ∃ tokens client, LoginShape environment login tokens client := by
  unfold Accepted handlePacketLogin
  cases getMinecraftPlayerAddress address manager with
  | none => simp
  | some player =>
      constructor
      · rintro ⟨after, returned⟩
        obtain ⟨chain, parsed, returned⟩ := bind_eq_ok.mp returned
        obtain ⟨state, checked, returned⟩ := bind_eq_ok.mp returned
        dsimp only at returned
        split at returned
        · cases returned
        · rename_i kept
          obtain ⟨kicktype, mojang⟩ := not_or.mp kept
          obtain ⟨outcome, client, returned⟩ := bind_eq_ok.mp returned
          obtain ⟨-, rfl⟩ := Prod.mk.inj (Except.ok.inj returned)
          obtain ⟨tokens, shape, root⟩ := checkChain_accepts_iff.mp
            ⟨state, checked, not_not.mp kicktype, not_not.mp mojang, rfl⟩
          obtain ⟨clientData, decoded, clientShape⟩ := checkClient_success.mp client
          exact ⟨rfl, tokens, clientData, ⟨chain, _, parsed, shape, decoded, clientShape⟩, root⟩
      · rintro ⟨-, tokens, client, ⟨chain, final, parsed, shape, decoded, clientShape⟩, root⟩
        obtain ⟨state, checked, kept, rooted, key⟩ :=
          (@checkChain_accepts_iff environment chain player final).mpr ⟨tokens, shape, root⟩
        refine ⟨manager.replace state.player, ?_⟩
        have success := checkClient_success.mpr ⟨client, decoded, clientShape⟩
        rw [← key] at success
        simp only [parsed, checked, bind, Except.bind, kept, rooted, success]
        rfl

/-! ## The tokens of a login -/

def decodeChain (environment : LoginEnvironment) : Nat → List JsonMulti →
    Except Fault (List JwtData)
  | _, [] => .ok []
  | i, member :: chain => do
      let token ← jsonString (some member)
      let jwt ← jwtDecode (environment.beyondBuffer i) token
      let tokens ← decodeChain environment (i + 1) chain
      return jwt :: tokens

/-- The tokens of the chain and the client token. -/
def loginTokens (environment : LoginEnvironment) (login : PacketLogin) :
    Except Fault (List JwtData × JwtData) := do
  let chain ← identityChain login
  let tokens ← decodeChain environment 0 chain
  let client ← jwtDecode (environment.beyondBuffer (chain.length + 1)) login.tokens.client
  return (tokens, client)

theorem ChainShape.decoded {environment : LoginEnvironment} {i : Nat} {chain : List JsonMulti}
    {current final : Option (List UInt8)} {tokens : List JwtData}
    (shape : ChainShape environment i chain current final tokens) :
    decodeChain environment i chain = .ok tokens := by
  induction shape with
  | nil i current => rfl
  | cons decoded shape extra rest ih =>
      simp only [decodeChain, jsonString, decoded, ih, bind, Except.bind]
      rfl

theorem ChainShape.length {environment : LoginEnvironment} {i : Nat} {chain : List JsonMulti}
    {current final : Option (List UInt8)} {tokens : List JwtData}
    (shape : ChainShape environment i chain current final tokens) :
    chain.length = tokens.length := by
  induction shape with
  | nil i current => rfl
  | cons decoded shape extra rest ih => rw [List.length_cons, List.length_cons, ih]

theorem LoginShape.decoded {environment : LoginEnvironment} {login : PacketLogin}
    {tokens : List JwtData} {client : JwtData}
    (shape : LoginShape environment login tokens client) :
    loginTokens environment login = .ok (tokens, client) := by
  obtain ⟨chain, final, parsed, chainShape, decoded, -⟩ := shape.chain
  simp only [loginTokens, parsed, chainShape.decoded, decoded, bind, Except.bind]
  rfl

/-- A law about the tokens of an accepted login is one about the tokens that
pass the other checks. -/
theorem accepted_law_iff (environment : LoginEnvironment) (address : MiscAddress)
    (manager : MinecraftPlayerManager) (login : PacketLogin)
    (law : List JwtData → JwtData → Prop) :
    (Accepted environment address manager login → ∃ tokens client,
        loginTokens environment login = .ok (tokens, client) ∧ law tokens client) ↔
      ((getMinecraftPlayerAddress address manager).isSome → ∀ tokens client,
        LoginShape environment login tokens client → law tokens client) := by
  rw [accepted_iff]
  constructor
  · intro holds present tokens client shape
    obtain ⟨others, otherClient, decoded, law⟩ := holds ⟨present, tokens, client, shape⟩
    obtain ⟨rfl, rfl⟩ := Prod.mk.inj (Except.ok.inj (shape.decoded.symm.trans decoded))
    exact law
  · rintro holds ⟨present, tokens, client, shape⟩
    exact ⟨tokens, client, shape.decoded, holds present tokens client shape⟩

/-! ## Logins of one token

The key of the header is the root key or another point of the same curve, the
key of the payload is the root key, and the signature is of the right size.
-/

def rootHeader : List UInt8 :=
  bytes "eyJ4NXUiOiJNSFl3RUFZSEtvWkl6ajBDQVFZRks0RUVBQ0lEWWdBRUNSWHVlSmVURHFOUlJnSmkvdmxS" ++
  bytes "dWZCeXUvMkcwaTJFYnQ2WU1hcjVRWC9SMERJSXlySk1jVXBydUs0UXZlVGZKU1RwM1NobHE0R2szNGNE" ++
  bytes "LzRHVVd3a3YwRFZ1emV1Qit0WGlqYTdIQnhpaTAzTkhEYlBBRDBBS25McjJ3ZEFwIn0"

def otherHeader : List UInt8 :=
  bytes "eyJ4NXUiOiJNSFl3RUFZSEtvWkl6ajBDQVFZRks0RUVBQ0lEWWdBRXFvZktJcjZMQlRlT3NjY2U4eUN0" ++
  bytes "ZEc0ZE8yS0xwNXVZV2ZkQjRJSlVLamhWQXZKZHYxVXBiRHBVWGpoeWRncTNOaGZlU3BZbUxHOWRucGkv" ++
  bytes "a3BMY0tmajBIYjBvbWhSODZkb3hFN1h3dU1BS1lMSE9IWDZCblhwREhYeVE2ZzVmIn0"

def rootPayload : List UInt8 :=
  bytes "eyJpZGVudGl0eVB1YmxpY0tleSI6Ik1IWXdFQVlIS29aSXpqMENBUVlGSzRFRUFDSURZZ0FFQ1JYdWVK" ++
  bytes "ZVREcU5SUmdKaS92bFJ1ZkJ5dS8yRzBpMkVidDZZTWFyNVFYL1IwRElJeXJKTWNVcHJ1SzRRdmVUZkpT" ++
  bytes "VHAzU2hscTRHazM0Y0QvNEdVV3drdjBEVnV6ZXVCK3RYaWphN0hCeGlpMDNOSERiUEFEMEFLbkxyMndk" ++
  bytes "QXAiLCJleHAiOjEsIm5iZiI6MH0"

def sampleToken (header : List UInt8) : List UInt8 :=
  header ++ bytes "." ++ rootPayload ++ bytes "." ++ List.replicate 128 'A'.toUInt8

/-- The check of a signature always answers the same. -/
def sampleEnvironment (answer : Int) : LoginEnvironment where
  time := fun _ => 0
  unwrittenOutLen := fun _ => 0
  unwrittenSignatureSize := fun _ => 0
  beyondBuffer := fun _ _ => [0]
  readFreed := id
  floatBits := fun _ => 0
  i2dEcdsaSig := fun r s => r ++ s
  mdCtxNew := true
  digestVerifyInit := fun _ => 1
  digestVerifyUpdate := fun _ => 1
  digestVerifyFinal := fun _ _ _ => answer

def sampleLogin (client : List UInt8) : PacketLogin where
  protocolVersion := 594
  tokens :=
    { identity := bytes "\x7b\"chain\":[\"" ++ sampleToken rootHeader ++ bytes "\"]\x7d"
      client }

def sampleAddress : MiscAddress := ⟨4, bytes "10.0.0.1", 19132⟩

def samplePlayer : MinecraftPlayer where
  entityUniqueId := -1
  entityRuntimeId := 1
  address := sampleAddress
  protocol := 594
  displayName := some []
  identity := some []
  titleId := some []
  xuid := some []
  x := 0
  y := -56
  z := 0
  gamemode := 1
  viewDistance := 8
  spawned := 0

def sampleManager : MinecraftPlayerManager := addMinecraftPlayer samplePlayer KeyedArray.empty

def isAccepted (environment : LoginEnvironment) (address : MiscAddress)
    (manager : MinecraftPlayerManager) (login : PacketLogin) : Bool :=
  match handlePacketLogin environment address manager login with
  | .ok (_, .playSuccess) => true
  | _ => false

theorem isAccepted_iff {environment : LoginEnvironment} {address : MiscAddress}
    {manager : MinecraftPlayerManager} {login : PacketLogin} :
    isAccepted environment address manager login = true ↔
      Accepted environment address manager login := by
  unfold isAccepted Accepted
  constructor
  · intro accepted
    split at accepted
    · rename_i after returned
      exact ⟨after, returned⟩
    · cases accepted
  · rintro ⟨after, returned⟩
    rw [returned]

end PodrumMinecraft.AcceptedLogin
