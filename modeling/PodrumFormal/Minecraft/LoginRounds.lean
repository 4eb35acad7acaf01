import PodrumFormal.Minecraft.AcceptedLogin

/-!
# The rounds of the login's loop

Behind which tokens the loop goes on, and behind which chains the handler gets
to the client token.
-/

set_option autoImplicit false

namespace PodrumMinecraft.LoginRounds

open PodrumMisc.CString PodrumMisc.Base64 PodrumMisc.Json PodrumMisc.Jwt
open PodrumRakNet.Packet Player Login AcceptedLogin

/-! ## Tokens the loop goes on behind -/

/-- The signature of an accepted key of the right size is not checked, since a
call before the check fails.  That kick leaves the loop running, with the
object of the payload destroyed. -/
structure SetupRefused (environment : LoginEnvironment) (jwt : JwtData)
    (current : Option (List UInt8)) (first : Nat) : Prop where
  key : ∃ key, headerKey jwt = some key ∧ key.outLen = 120 ∧
    keyRefused (some key.out) current first = .ok false ∧
      setupFails environment key.bytes (combined jwt) = true
  signature : ∃ signature, signatureOf jwt = some signature ∧ signature.outLen = 96

inductive GoesOn (environment : LoginEnvironment) (jwt : JwtData)
    (current : Option (List UInt8)) (first : Nat) : Option (List UInt8) → Prop
  | done {next : Option (List UInt8)} (shape : TokenShape environment jwt current first next) :
      GoesOn environment jwt current first next
  | refused (shape : SetupRefused environment jwt current first) :
      GoesOn environment jwt current first current

/-- The loop is not left behind the status. -/
def Stays (status : UInt32) : Prop := isSet status 9 = true ∨ kicktypeOf status = 0

instance (status : UInt32) : Decidable (Stays status) :=
  inferInstanceAs (Decidable (_ ∨ _))

section Rounds

variable {environment : LoginEnvironment}

theorem kicktypeOf_of_set {status index : UInt32} (set : isSet status index = true)
    (kicks : index ∈ [0, 2, 3, 4, 7, 6, 8]) : kicktypeOf status ≠ 0 := by
  unfold kicktypeOf
  split
  · decide
  · rename_i clear
    split
    · decide
    · rename_i signed
      split
      · decide
      · rename_i inTime
        simp only [List.mem_cons, List.not_mem_nil, or_false] at kicks
        rcases kicks with rfl | rfl | rfl | rfl | rfl | rfl | rfl <;> simp_all

theorem isSet_bit (status : UInt32) {index : UInt32} (inRange : isSet (bit index) index = true) :
    isSet (status ||| bit index) index = true := by
  rw [isSet_or, inRange, Bool.or_true]

/-- A bit that kicks, on a status that is not done. -/
theorem not_stays {status index : UInt32} (clear : isSet status 9 = false)
    (kicks : index ∈ [0, 2, 3, 4, 7, 6, 8]) : ¬Stays (status ||| bit index) := by
  have bits : isSet (bit index) index = true ∧ isSet (bit index) 9 = false := by
    simp only [List.mem_cons, List.not_mem_nil, or_false] at kicks
    rcases kicks with rfl | rfl | rfl | rfl | rfl | rfl | rfl <;> decide
  rintro (done | stays)
  · rw [isSet_or, clear, bits.2] at done
    cases done
  · exact kicktypeOf_of_set (isSet_bit status bits.1) kicks stays

/-- The status in front of the checks of the signature. -/
def keyStatus (root size : Prop) [Decidable root] [Decidable size] : UInt32 :=
  flag root 1 ||| flag size 2

theorem isSet_keyStatus (root size : Prop) [Decidable root] [Decidable size] :
    isSet (keyStatus root size) 9 = false := by
  rw [keyStatus, isSet_or, isSet_flag, isSet_flag, show isSet (bit 1) 9 = false by decide,
    show isSet (bit 2) 9 = false by decide, Bool.and_false, Bool.and_false, Bool.or_false]

/-- Of the keys behind a failed setup only one of the wrong size kicks. -/
theorem stays_setup (root size : Prop) [Decidable root] [Decidable size] :
    Stays (keyStatus root size ||| bit 5) ↔ ¬size := by
  unfold Stays keyStatus flag
  by_cases rooted : root
  · by_cases sized : size
    · rw [if_pos rooted, if_pos sized]
      exact iff_of_false (by decide) (not_not_intro sized)
    · rw [if_pos rooted, if_neg sized]
      exact iff_of_true (by decide) sized
  · by_cases sized : size
    · rw [if_neg rooted, if_pos sized]
      exact iff_of_false (by decide) (not_not_intro sized)
    · rw [if_neg rooted, if_neg sized]
      exact iff_of_true (by decide) sized

theorem checkPayload_stays {payload : JsonRoot} {status result : UInt32}
    {current next : Option (List UInt8)} {first : Nat} (clear : isSet status 9 = false)
    (returned : checkPayload environment payload status current first = .ok (result, next))
    (stays : Stays result) : isSet result 9 = true := by
  rw [checkPayload] at returned
  split at returned
  · obtain ⟨rfl, rfl⟩ := Prod.mk.inj (Except.ok.inj returned)
    exact isSet_bit status (by decide)
  · obtain ⟨entry, found, returned⟩ := bind_eq_ok.mp returned
    split at returned
    · obtain ⟨exp, expFound, returned⟩ := bind_eq_ok.mp returned
      obtain ⟨expValue, expRead, returned⟩ := bind_eq_ok.mp returned
      obtain ⟨nbf, nbfFound, returned⟩ := bind_eq_ok.mp returned
      obtain ⟨nbfValue, nbfRead, returned⟩ := bind_eq_ok.mp returned
      split at returned
      · obtain ⟨rfl, rfl⟩ := Prod.mk.inj (Except.ok.inj returned)
        exact absurd stays (not_stays clear (by decide))
      · obtain ⟨rfl, rfl⟩ := Prod.mk.inj (Except.ok.inj returned)
        exact isSet_bit status (by decide)
    · obtain ⟨rfl, rfl⟩ := Prod.mk.inj (Except.ok.inj returned)
      exact absurd stays (not_stays clear (by decide))

/-- Bytes are only left to the decoder of the key where the length counts none. -/
theorem publicKey_null {first : Nat} {key : Option (List UInt8)}
    (read : publicKey environment none first = .ok key) :
    key = none ∧ lengthLeft (environment.unwrittenOutLen first) none ≠ 120 := by
  rw [publicKey] at read
  split at read
  · cases read
  · rename_i nothing
    refine ⟨(Except.ok.inj read).symm, fun counts => nothing ?_⟩
    have length : environment.unwrittenOutLen first = 120 := UInt64.toNat_inj.mp counts
    rw [length]
    decide

/-- The calls behind the signature do not get to its check. -/
def NotSetUp (environment : LoginEnvironment) (jwt : JwtData) (headerDerKey : Option Decoded)
    (first : Nat) : Prop :=
  ∃ key, publicKey environment headerDerKey first = .ok key ∧
    ∀ der, key = some der → setupFails environment der (combined jwt) = true

theorem checkSignature_stays {jwt : JwtData} {headerDerKey : Option Decoded}
    {status result : UInt32} {current next : Option (List UInt8)} {first : Nat}
    (clear : isSet status 9 = false)
    (returned : checkSignature environment jwt headerDerKey status current first =
      .ok (result, next)) (stays : Stays result) :
    isSet result 9 = true ∨ (result = status ||| bit 5 ∧ next = current ∧
      (∃ signature, signatureOf jwt = some signature ∧ signature.outLen = 96) ∧
        NotSetUp environment jwt headerDerKey first) := by
  obtain ⟨raw, present, returned⟩ := bind_eq_ok.mp returned
  obtain ⟨decoded, decode, returned⟩ := bind_eq_ok.mp returned
  split at returned
  · obtain ⟨rfl, rfl⟩ := Prod.mk.inj (Except.ok.inj returned)
    exact absurd stays (not_stays clear (by decide))
  · rename_i size
    obtain ⟨signature, written, returned⟩ := bind_eq_ok.mp returned
    rw [orFault_eq_ok.mp written] at decode size
    have sized : ∃ signature, signatureOf jwt = some signature ∧ signature.outLen = 96 :=
      ⟨signature, signatureOf_eq_some.mpr ⟨raw, orFault_eq_ok.mp present, decode⟩,
        not_not.mp size⟩
    obtain ⟨key, read, returned⟩ := bind_eq_ok.mp returned
    split at returned
    · obtain ⟨rfl, rfl⟩ := Prod.mk.inj (Except.ok.inj returned)
      exact Or.inr ⟨rfl, rfl, sized, none, read,
        fun der impossible => absurd impossible.symm (Option.some_ne_none der)⟩
    · rename_i der
      split at returned
      · rename_i failed
        obtain ⟨rfl, rfl⟩ := Prod.mk.inj (Except.ok.inj returned)
        exact Or.inr ⟨rfl, rfl, sized, some der, read,
          fun other same => Option.some.inj same ▸ failed⟩
      · have stillClear (verdict : Prop) [Decidable verdict] :
            isSet (status ||| flag verdict 6) 9 = false := by
          rw [isSet_or, clear, isSet_flag, show isSet (bit 6) 9 = false by decide, Bool.and_false,
            Bool.or_false]
        exact Or.inl (checkPayload_stays (stillClear _) returned stays)

theorem destroysPayload_setup (status : UInt32) : destroysPayload (status ||| bit 5) = true := by
  rw [destroysPayload, @isSet_bit status 5 (by decide), Bool.or_true, Bool.true_or]

/-- The loop goes on behind a token that is done, whose payload is as it was,
and behind one whose signature is not checked. -/
theorem verifly_stays {jwt : JwtData} {result : UInt32} {current next : Option (List UInt8)}
    {first : Nat}
    (returned : veriflyJwtChain environment jwt current first = .ok (result, next))
    (stays : Stays result) :
    (TokenShape environment jwt current first next ∧ destroysPayload result = false) ∨
      (SetupRefused environment jwt current first ∧ next = current ∧
        destroysPayload result = true) := by
  by_cases done : isSet result 9 = true
  · obtain ⟨shape, -, intact⟩ := verifly_done returned done
    exact Or.inl ⟨shape, intact⟩
  · obtain ⟨entry, found, returned⟩ := bind_eq_ok.mp returned
    split at returned
    · rename_i raw
      obtain ⟨refused, compared, returned⟩ := bind_eq_ok.mp returned
      have clear := isSet_keyStatus (cString raw = mojangRootKey)
        (lengthLeft (environment.unwrittenOutLen first) (charBase64Decode (cString raw)) ≠ 120)
      split at returned
      · obtain ⟨rfl, rfl⟩ := Prod.mk.inj (Except.ok.inj returned)
        exact absurd stays (not_stays clear (by decide))
      · rename_i accepted
        rcases checkSignature_stays clear returned stays with
          finished | ⟨rfl, rfl, signature, publicKey, read, failed⟩
        · exact absurd finished done
        · have sized := not_not.mp ((stays_setup _ _).mp stays)
          rw [Bool.eq_false_iff.mpr accepted] at compared
          cases decoded : charBase64Decode (cString raw) with
          | none =>
              rw [decoded] at read sized
              exact absurd sized (publicKey_null read).2
          | some key =>
              rw [decoded] at read sized compared
              have named : headerKey jwt = some key := Option.bind_eq_some_iff.mpr
                ⟨_, stringAt_eq_some.mpr ⟨raw, found, rfl⟩, decoded⟩
              have der := failed key.bytes (Except.ok.inj read).symm
              exact Or.inr ⟨⟨⟨key, named, sized, compared, der⟩, signature⟩, rfl,
                destroysPayload_setup _⟩
    · obtain ⟨rfl, rfl⟩ := Prod.mk.inj (Except.ok.inj returned)
      exact absurd stays (by decide)

theorem verifly_of_refused {jwt : JwtData} {current : Option (List UInt8)} {first : Nat}
    (shape : SetupRefused environment jwt current first) :
    ∃ result, veriflyJwtChain environment jwt current first = .ok (result, current) ∧
      Stays result ∧ destroysPayload result = true := by
  obtain ⟨key, named, sized, compared, failed⟩ := shape.key
  obtain ⟨signature, decoded, size⟩ := shape.signature
  obtain ⟨raw, present, decode⟩ := signatureOf_eq_some.mp decoded
  obtain ⟨text, x5uText, keyDecoded⟩ := Option.bind_eq_some_iff.mp named
  obtain ⟨rawKey, found, rfl⟩ := stringAt_eq_some.mp x5uText
  refine ⟨keyStatus (cString rawKey = mojangRootKey) (key.outLen ≠ 120) ||| bit 5, ?_,
    (stays_setup _ _).mpr (not_not_intro sized), destroysPayload_setup _⟩
  simp only [veriflyJwtChain, found, keyDecoded, orFault, bind, Except.bind, Option.map_some,
    compared, lengthLeft, Option.elim_some, checkSignature, present, decode, size, publicKey,
    failed]
  rfl

theorem verifly_goesOn_iff {jwt : JwtData} {current next : Option (List UInt8)} {first : Nat} :
    (∃ result, veriflyJwtChain environment jwt current first = .ok (result, next) ∧
      Stays result) ↔ GoesOn environment jwt current first next := by
  constructor
  · rintro ⟨result, returned, stays⟩
    rcases verifly_stays returned stays with ⟨shape, -⟩ | ⟨shape, rfl, -⟩
    · exact GoesOn.done shape
    · exact GoesOn.refused shape
  · intro goesOn
    cases goesOn with
    | done shape =>
        obtain ⟨result, returned, done⟩ := verifly_of_shape shape
        exact ⟨result, returned, Or.inl done⟩
    | refused shape =>
        obtain ⟨result, returned, stays, -⟩ := verifly_of_refused shape
        exact ⟨result, returned, stays⟩

/-- No token is both. -/
theorem not_refused {jwt : JwtData} {current next : Option (List UInt8)} {first : Nat}
    (shape : TokenShape environment jwt current first next) :
    ¬SetupRefused environment jwt current first := by
  intro refused
  obtain ⟨key, named, -, started⟩ := shape.key
  obtain ⟨other, same, -, -, failed⟩ := refused.key
  obtain rfl := Option.some.inj (named.symm.trans same)
  rw [started] at failed
  cases failed

/-- In what is left of a destroyed payload there is no extra data. -/
theorem not_hasExtraData {status : UInt32} (destroyed : destroysPayload status = true)
    (payload : JsonRoot) : ¬HasExtraData (payloadLeft status payload) := by
  rintro ⟨keys, members, found, -⟩
  unfold payloadLeft at found
  split at found
  · rw [destroyed, if_pos rfl] at found
    cases found
  · rename_i memberless
    match payload with
    | none => cases found
    | some (.object [] _) => cases found
    | some (.object (key :: keys) members) => exact memberless key keys members rfl
    | some (.array _) => cases found
    | some (.string _) => cases found
    | some (.number _) => cases found
    | some (.bool _) => cases found
    | some .null => cases found

/-- The test that leaves the loop, as it is written. -/
theorem leaves_iff {status : UInt32} {kicktype : UInt8} :
    (¬isSet status 9 = true ∧
      (if isSet status 9 = true then kicktype else kicktypeOf status) ≠ 0) ↔ ¬Stays status := by
  unfold Stays
  by_cases done : isSet status 9 = true
  · exact iff_of_false (fun leaves => leaves.1 done) (not_not_intro (Or.inl done))
  · rw [if_neg done, not_or]

/-- The rounds behind which the loop goes on. -/
theorem chainRound_goesOn_iff {i : Nat} {token : List UInt8} {jwt : JwtData} {state : ChainState}
    {next : Option (List UInt8)} (decoded : jwtDecode (environment.beyondBuffer i) token = .ok jwt) :
    (∃ after, chainRound environment i (.string token) state = .ok (after, true) ∧
      after.currentPublicKey = next) ↔
      GoesOn environment jwt state.currentPublicKey i next ∧
        (i = 2 → TokenShape environment jwt state.currentPublicKey i next ∧
          HasExtraData jwt.payload) := by
  constructor
  · rintro ⟨after, returned, rfl⟩
    obtain ⟨text, same, returned⟩ := bind_eq_ok.mp returned
    obtain rfl := Except.ok.inj same
    obtain ⟨other, same, returned⟩ := bind_eq_ok.mp returned
    obtain rfl := Except.ok.inj (decoded.symm.trans same)
    obtain ⟨⟨stat, key⟩, verified, returned⟩ := bind_eq_ok.mp returned
    dsimp only at returned
    by_cases stays : Stays stat
    · have goesOn := verifly_goesOn_iff.mp ⟨stat, verified, stays⟩
      rw [if_neg (fun leaves => leaves_iff.mp leaves stays)] at returned
      split at returned
      · rcases readExtraData_ok returned with ⟨-, extra, player, rfl⟩ | ⟨left, -⟩
        · rcases verifly_stays verified stays with ⟨shape, intact⟩ | ⟨-, -, destroyed⟩
          · rw [payloadLeft_intact intact] at extra
            exact ⟨goesOn, fun _ => ⟨shape, extra⟩⟩
          · exact absurd extra (not_hasExtraData destroyed _)
        · cases left
      · rename_i other
        cases returned
        exact ⟨goesOn, fun second => absurd second other⟩
    · rw [if_pos (leaves_iff.mpr stays)] at returned
      cases returned
  · rintro ⟨goesOn, extra⟩
    obtain ⟨stat, verified, stays⟩ := verifly_goesOn_iff.mpr goesOn
    simp only [chainRound, jsonString, decoded, verified, bind, Except.bind]
    rw [if_neg (fun leaves => leaves_iff.mp leaves stays)]
    split
    · rename_i second
      obtain ⟨shape, present⟩ := extra second
      rcases verifly_stays verified stays with ⟨-, intact⟩ | ⟨refused, -, -⟩
      · rw [payloadLeft_intact intact]
        obtain ⟨player, returned⟩ := readExtraData_of_extra _ present
        exact ⟨_, returned, rfl⟩
      · exact absurd refused (not_refused shape)
    · exact ⟨_, rfl, rfl⟩

theorem identityChain_ok {login : PacketLogin} {chain : List JsonMulti} :
    identityChain login = .ok chain ↔
      ∃ root rest, parseJsonRoot (login.tokens.identity ++ [0]) = .ok (root, rest) ∧
        getJsonObjectValue (bytes "chain") root = .ok (some (.array chain)) := by
  constructor
  · intro returned
    obtain ⟨⟨root, rest⟩, parsed, returned⟩ := bind_eq_ok.mp returned
    obtain ⟨entry, found, array⟩ := bind_eq_ok.mp returned
    cases entry with
    | none => cases array
    | some value =>
        cases value with
        | array members =>
            obtain rfl := Except.ok.inj array
            exact ⟨root, rest, parsed, found⟩
        | _ => cases array
  · rintro ⟨root, rest, parsed, found⟩
    simp only [identityChain, parsed, found, bind, Except.bind]
    rfl

end Rounds

end PodrumMinecraft.LoginRounds
