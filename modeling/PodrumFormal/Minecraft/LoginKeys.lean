import PodrumFormal.Minecraft.AcceptedLogin

/-!
# Keys of an accepted login

A key is compared with the one the token before it names as a C string, and
the token at position 4 does not hand a key on at all.
-/

set_option autoImplicit false

namespace PodrumMinecraft.LoginKeys

open PodrumMisc.CString PodrumMisc.Base64 PodrumMisc.Json PodrumMisc.Jwt
open PodrumRakNet.Packet Player Login AcceptedLogin

/-! ## Prefixes up to a zero byte -/

/-- The bytes up to and with a first zero do not depend on what follows it. -/
theorem takeWhile_take {shared rest : List UInt8} (nonzero : (0 : UInt8) ∉ shared) (count : Nat) :
    ((shared ++ 0 :: rest).take count).takeWhile (· ≠ 0) = shared.take count := by
  induction shared generalizing count with
  | nil => cases count <;> simp
  | cons byte shared ih =>
      cases count with
      | zero => simp
      | succ count =>
          have head : byte ≠ 0 := fun zero => nonzero (by simp [zero])
          have tail : (0 : UInt8) ∉ shared := fun member => nonzero (List.mem_cons_of_mem _ member)
          rw [List.cons_append, List.take_succ_cons, List.takeWhile_cons_of_pos (by simpa using head),
            ih tail, List.take_succ_cons]

/-- Buffers equal for `strcmp`, cut to keys of one length, agree up to the
first zero byte. -/
theorem takeWhile_eq {left right : Decoded}
    (equal : strcmpEqual left.out right.out = .ok true)
    (length : left.bytes.length = right.bytes.length) :
    left.bytes.takeWhile (· ≠ 0) = right.bytes.takeWhile (· ≠ 0) := by
  obtain ⟨shared, leftRest, rightRest, nonzero, leftOut, rightOut⟩ := strcmpEqual_true.mp equal
  simp only [Decoded.bytes, leftOut, rightOut] at length ⊢
  rw [takeWhile_take nonzero, takeWhile_take nonzero]
  simp only [List.length_take, List.length_append, List.length_cons] at length
  by_cases inside : left.outLen ≤ shared.length
  · rw [show right.outLen = left.outLen by omega]
  · rw [List.take_of_length_le (by omega), List.take_of_length_le (by omega)]

/-! ## Links -/

/-- The next token's key is the key this token names, byte for byte. -/
def SameKey (previous next : JwtData) : Prop :=
  ∃ key identity, headerKey next = some key ∧ identityKey previous = some identity ∧
    key.bytes = identity.bytes

/-- The two keys have one length and agree from their first zero byte on. -/
def SameTail (previous next : JwtData) : Prop :=
  ∃ key identity, headerKey next = some key ∧ identityKey previous = some identity ∧
    key.bytes.length = identity.bytes.length ∧
    key.bytes.dropWhile (· ≠ 0) = identity.bytes.dropWhile (· ≠ 0)

/-- What the code itself establishes: equality as C strings. -/
def Compared (previous next : JwtData) : Prop :=
  ∃ key identity, headerKey next = some key ∧ identityKey previous = some identity ∧
    strcmpEqual key.out identity.out = .ok true

/-- A relation of each two neighbours, with the position of the first. -/
def Links (link : Nat → JwtData → JwtData → Prop) (tokens : List JwtData) : Prop :=
  ∀ k previous next, tokens[k]? = some previous → tokens[k + 1]? = some next →
    link k previous next

theorem sameKey_iff {previous next : JwtData} (compared : Compared previous next) :
    SameKey previous next ↔ SameTail previous next := by
  constructor
  · rintro ⟨key, identity, header, named, same⟩
    exact ⟨key, identity, header, named, by rw [same], by rw [same]⟩
  · rintro ⟨key, identity, header, named, length, tail⟩
    obtain ⟨otherKey, otherIdentity, otherHeader, otherNamed, equal⟩ := compared
    obtain rfl := Option.some.inj (header.symm.trans otherHeader)
    obtain rfl := Option.some.inj (named.symm.trans otherNamed)
    refine ⟨key, identity, header, named, ?_⟩
    rw [← List.takeWhile_append_dropWhile (p := (· ≠ 0)) (l := key.bytes),
      ← List.takeWhile_append_dropWhile (p := (· ≠ 0)) (l := identity.bytes),
      takeWhile_eq equal length, tail]

/-! ## The key handed on -/

/-- Outside position 4 the key left behind is the one the payload names. -/
theorem next_eq {environment : LoginEnvironment} {jwt : JwtData}
    {current next : Option (List UInt8)} {first : Nat}
    (shape : TokenShape environment jwt current first next) (other : first ≠ 4) :
    next = (identityKey jwt).map Decoded.out := by
  rcases shape.payload with ⟨fourth, -⟩ | ⟨-, ⟨text, named, rfl⟩, -⟩
  · exact absurd fourth other
  · rw [identityKey, named, Option.bind_some]

/-- Past the first position a token needs a key to compare with. -/
theorem compared_of_shape {environment : LoginEnvironment} {previous jwt : JwtData}
    {next : Option (List UInt8)} {first : Nat}
    (shape : TokenShape environment jwt ((identityKey previous).map Decoded.out) first next)
    (later : first ≠ 0) : Compared previous jwt := by
  obtain ⟨key, header, accepted, -⟩ := shape.key
  cases named : identityKey previous with
  | none =>
      rw [named] at accepted
      simp [keyRefused, later] at accepted
  | some identity =>
      rw [named] at accepted
      obtain ⟨out, same, accepted⟩ := bind_eq_ok.mp accepted
      obtain rfl := Except.ok.inj same
      obtain ⟨equal, compared, answer⟩ := bind_eq_ok.mp accepted
      refine ⟨key, identity, header, named, ?_⟩
      rw [compared]
      simpa using Except.ok.inj answer

theorem chain_links {environment : LoginEnvironment} {i : Nat} {chain : List JsonMulti}
    {current final : Option (List UInt8)} {tokens : List JwtData}
    (shape : ChainShape environment i chain current final tokens) :
    Links (fun k previous next => i + k ≠ 4 → Compared previous next) tokens := by
  induction shape with
  | nil i current =>
      intro k previous next found
      simp at found
  | @cons i token chain current next final jwt tokens decoded shape extra rest ih =>
      rintro (_ | k) previous following found foundNext other
      · obtain rfl := Option.some.inj found
        rw [next_eq shape other] at rest
        cases rest with
        | nil => simp at foundNext
        | cons decoded nextShape extra rest =>
            obtain rfl := Option.some.inj foundNext
            exact compared_of_shape nextShape (Nat.succ_ne_zero i)
      · exact ih k previous following found foundNext (by omega)

theorem chain_final {environment : LoginEnvironment} {i : Nat} {chain : List JsonMulti}
    {current final : Option (List UInt8)} {tokens : List JwtData}
    (shape : ChainShape environment i chain current final tokens) :
    ∀ (front : List JwtData) (last : JwtData), tokens = front ++ [last] → i + front.length ≠ 4 →
      final = (identityKey last).map Decoded.out := by
  induction shape with
  | nil i current =>
      intro front last split
      simp at split
  | cons decoded shape extra rest ih =>
      intro front last split other
      cases front with
      | nil =>
          obtain ⟨rfl, rfl⟩ := List.cons.inj split
          cases rest
          exact next_eq shape other
      | cons head front =>
          apply ih front last (List.cons.inj split).2
          rw [List.length_cons] at other
          omega

/-- Along a login that passes the other checks each link but that behind
position 4 was compared. -/
theorem login_links {environment : LoginEnvironment} {login : PacketLogin}
    {tokens : List JwtData} {client : JwtData}
    (shape : LoginShape environment login tokens client) :
    Links (fun k previous next => k ≠ 4 → Compared previous next) (tokens ++ [client]) := by
  obtain ⟨chain, final, -, chainShape, -, next, clientShape⟩ := shape.chain
  intro k previous following found foundNext other
  by_cases inside : k + 1 < tokens.length
  · rw [List.getElem?_append_left (by omega)] at found
    rw [List.getElem?_append_left inside] at foundNext
    exact chain_links chainShape k previous following found foundNext (by omega)
  · have bound := (List.getElem?_eq_some_iff.mp foundNext).1
    rw [List.length_append, List.length_singleton] at bound
    obtain ⟨front, last, rfl⟩ : ∃ front last, tokens = front ++ [last] := by
      refine ⟨tokens.dropLast, tokens.getLast ?_, (List.dropLast_append_getLast _).symm⟩
      rintro rfl
      simp at bound
    have position : k = front.length := by
      rw [List.length_append, List.length_singleton] at bound inside
      omega
    subst position
    obtain rfl : last = previous := by simpa using found
    obtain rfl : client = following := by simpa using foundNext
    rw [chain_final chainShape front last rfl (by omega)] at clientShape
    -- The release leaves the parsed header, and with it the key, as it is.
    have released : Compared last (releasedToken environment client) :=
      compared_of_shape clientShape (Nat.succ_ne_zero _)
    exact released

/-! ## Byte equality of the keys -/

def AllLinked (environment : LoginEnvironment) (login : PacketLogin) : Prop :=
  ∃ tokens client, loginTokens environment login = .ok (tokens, client) ∧
    Links (fun _ => SameKey) (tokens ++ [client])

/-- The comparison leaves open what stands behind a zero byte, and position 4
leaves open the whole key. -/
theorem accepted_linked_iff (environment : LoginEnvironment) (address : MiscAddress)
    (manager : MinecraftPlayerManager) (login : PacketLogin) :
    (Accepted environment address manager login → AllLinked environment login) ↔
      ((getMinecraftPlayerAddress address manager).isSome → ∀ tokens client,
        LoginShape environment login tokens client →
        Links (fun k previous next =>
          if k = 4 then SameKey previous next else SameTail previous next)
          (tokens ++ [client])) := by
  rw [AllLinked, accepted_law_iff environment address manager login
    fun tokens client => Links (fun _ => SameKey) (tokens ++ [client])]
  refine imp_congr_right fun _ => forall_congr' fun tokens => forall_congr' fun client =>
    imp_congr_right fun shape => forall_congr' fun k => forall_congr' fun previous =>
    forall_congr' fun next => imp_congr_right fun found => imp_congr_right fun foundNext => ?_
  beta_reduce
  by_cases fourth : k = 4
  · rw [if_pos fourth]
  · rw [if_neg fourth]
    exact sameKey_iff (login_links shape k previous next found foundNext fourth)

/-- The client token's key is another point of the curve than the root key that
the token before it names. -/
theorem accepted_unlinked :
    Accepted (sampleEnvironment 1) sampleAddress sampleManager
        (sampleLogin (sampleToken otherHeader)) ∧
      ¬AllLinked (sampleEnvironment 1) (sampleLogin (sampleToken otherHeader)) := by
  constructor
  · exact isAccepted_iff.mp (by decide +kernel)
  · rintro ⟨tokens, client, decoded, linked⟩
    have keys : (loginTokens (sampleEnvironment 1)
        (sampleLogin (sampleToken otherHeader))).toOption.any (fun result =>
          result.1.length = 1 && result.1.all fun jwt =>
            (identityKey jwt).map Decoded.bytes ≠ (headerKey result.2).map Decoded.bytes) =
        true := by decide +kernel
    rw [decoded] at keys
    obtain ⟨single, differ⟩ := Bool.and_eq_true_iff.mp keys
    obtain ⟨jwt, rfl⟩ := List.length_eq_one_iff.mp (of_decide_eq_true single)
    obtain ⟨key, identity, header, named, same⟩ := linked 0 jwt client rfl rfl
    simp [header, named, same] at differ

end PodrumMinecraft.LoginKeys
