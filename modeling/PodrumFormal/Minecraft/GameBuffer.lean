import PodrumFormal.Minecraft.GamePacket

/-!
# The buffer of a game packet

What `get_packet_game` splits into sub-packets.  `zlib_decode` returns early
without an output, and only one of these returns is told apart from a success.
-/

set_option autoImplicit false

namespace PodrumMinecraft.GameBuffer

open ByteReader PodrumStream.BinaryStream PodrumZlib.ZlibHelper GamePacket

/-- The buffer of `data_stream`, `some none` where it is not assigned. -/
def splitBuffer (miniz : Miniz) (fuel : Nat) : List UInt8 → Option (Option (List UInt8))
  | [] => none
  | _ :: data => do
      let (status, out) ← zlibDecode miniz fuel data zlibRawMode
      some (gameData data status out)

theorem getPacketGame_splits (miniz : Miniz) (fuel : Nat) (frame : List UInt8) :
    getPacketGame miniz fuel frame = (splitBuffer miniz fuel frame).bind fun buffer =>
      buffer.bind fun dataStream => (readAll getEntryStream dataStream).map Prod.fst := by
  cases frame with
  | nil => rfl
  | cons first data =>
      simp only [getPacketGame, splitBuffer]
      cases zlibDecode miniz fuel data zlibRawMode with
      | none => rfl
      | some decoded =>
          obtain ⟨status, out⟩ := decoded
          simp only [Option.bind_eq_bind, Option.bind_some]
          cases gameData data status out with
          | none => rfl
          | some dataStream =>
              simp only [Option.bind_some]
              cases readAll getEntryStream dataStream <;> rfl

/-! ## The calls of inflate -/

section Calls

variable (miniz : Miniz) (halfLen : Nat)

/-- The calls into a buffer that grows by half when it is full, up to the first
status other than `MZ_OK`: that status, the length of the buffer and the bytes. -/
inductive Calls : Int → Nat → miniz.State → MzStatus → Int → List UInt8 → Prop
  | last {len room : Int} {total : Nat} {stream : miniz.State} {call : InflateCall miniz.State}
      (grown : nextLen halfLen total len = room)
      (called : miniz.inflate stream (toUInt (room - total)) = call)
      (inside : call.bytes ≠ [] → total + call.bytes.length ≤ room)
      (ended : call.status ≠ .ok) : Calls len total stream call.status room call.bytes
  | again {len room final : Int} {total : Nat} {stream : miniz.State}
      {call : InflateCall miniz.State} {status : MzStatus} {bytes : List UInt8}
      (grown : nextLen halfLen total len = room)
      (called : miniz.inflate stream (toUInt (room - total)) = call)
      (inside : call.bytes ≠ [] → total + call.bytes.length ≤ room)
      (going : call.status = .ok)
      (others : Calls room (total + call.bytes.length) call.next status final bytes) :
      Calls len total stream status final (call.bytes ++ bytes)

end Calls

section Turns

variable {miniz : Miniz} {halfLen : Nat}

theorem inside_iff {bytes : List UInt8} {total : Nat} {room : Int} :
    ¬(bytes ≠ [] ∧ room < total + bytes.length) ↔
      (bytes ≠ [] → total + bytes.length ≤ room) := by
  rw [not_and]
  exact forall_congr' fun _ => Int.not_lt

theorem calls_of_decodeTurns : ∀ {fuel : Nat} {len room : Int} {uncomp out : List UInt8}
    {stream : miniz.State} {status : MzStatus},
    decodeTurns miniz halfLen fuel len uncomp stream = some (status, room, out) →
      ∃ bytes, Calls miniz halfLen len uncomp.length stream status room bytes ∧
        out = uncomp ++ bytes := by
  intro fuel
  induction fuel with
  | zero =>
      intro len room uncomp out stream status run
      cases run
  | succ fuel ih =>
      intro len room uncomp out stream status run
      simp only [decodeTurns] at run
      split at run
      · cases run
      · rename_i written
        have inside := inside_iff.mp written
        split at run
        · rename_i going
          obtain ⟨bytes, others, rfl⟩ := ih run
          rw [List.length_append] at others
          exact ⟨_, .again rfl rfl inside going others, List.append_assoc ..⟩
        · rename_i ended
          cases run
          exact ⟨_, .last rfl rfl inside ended, rfl⟩

theorem decodeTurns_of_calls {len room : Int} {total : Nat} {stream : miniz.State}
    {status : MzStatus} {bytes : List UInt8}
    (calls : Calls miniz halfLen len total stream status room bytes) :
    ∀ uncomp : List UInt8, uncomp.length = total →
      ∃ fuel, decodeTurns miniz halfLen fuel len uncomp stream =
        some (status, room, uncomp ++ bytes) := by
  induction calls with
  | last grown called inside ended =>
      rintro uncomp rfl
      refine ⟨1, ?_⟩
      have written := inside_iff.mpr inside
      simp only [decodeTurns, grown, called, if_neg written, if_neg ended]
  | again grown called inside going others ih =>
      rintro uncomp rfl
      obtain ⟨fuel, run⟩ := ih (uncomp ++ _) List.length_append
      refine ⟨fuel + 1, ?_⟩
      have written := inside_iff.mpr inside
      simp only [decodeTurns, grown, called, if_neg written, if_pos going, run, List.append_assoc]

end Turns

/-! ## The decoder on a payload -/

section Payload

variable (miniz : Miniz) (payload : List UInt8)

/-- What `inflateInit2` says to a payload. -/
def started : Except MzStatus miniz.State :=
  miniz.inflateInit2 (windowBits zlibRawMode) (payload.take (toUInt payload.length))

/-- The calls of `inflate` on a payload. -/
def PayloadCalls (stream : miniz.State) : MzStatus → Int → List UInt8 → Prop :=
  Calls miniz (payload.length / 2) (toInt payload.length) 0 stream

/-- The bytes before the end of the stream. -/
def Inflated (data : List UInt8) : Prop :=
  ∃ stream room, started miniz payload = .ok stream ∧
    PayloadCalls miniz payload stream .streamEnd room data

/-- Whenever the decoder returns, the buffer of the frame is the inflated payload
or the payload. -/
def Assigned : Prop :=
  ∀ fuel buffer, splitBuffer miniz fuel (idGame :: payload) = some buffer →
    ∃ data, buffer = some data ∧ (data = payload ∨ Inflated miniz payload data)

/-- Miniz refuses the payload with a data error, or starts and has no other last
status than the end of the stream and a data error. -/
def EndsWell : Prop :=
  match started miniz payload with
  | .error status => status = .dataError
  | .ok stream => ∀ status room bytes, PayloadCalls miniz payload stream status room bytes →
      status = .streamEnd ∨ status = .dataError

end Payload

section Buffer

variable {miniz : Miniz} {payload : List UInt8}

/-- What a nonempty payload comes to after the calls. -/
theorem zlibDecode_some {fuel : Nat} {status : MzStatus} {out : Option (List UInt8)}
    (nonempty : payload ≠ [])
    (run : zlibDecode miniz fuel payload zlibRawMode = some (status, out)) :
    (started miniz payload = .error status ∧ out = none) ∨
      ∃ stream last room bytes, started miniz payload = .ok stream ∧
        PayloadCalls miniz payload stream last room bytes ∧
        ((last = .streamEnd ∧ status = .ok ∧ out = some bytes) ∨
          (last ≠ .streamEnd ∧ status = last ∧ out = none)) := by
  rw [zlibDecode, if_neg (mt List.length_eq_zero_iff.mp nonempty), ← started] at run
  cases start : started miniz payload with
  | error refusal =>
      rw [start] at run
      cases run
      exact .inl ⟨rfl, rfl⟩
  | ok stream =>
      rw [start] at run
      obtain ⟨⟨last, room, uncomp⟩, turns, run⟩ := Option.bind_eq_some_iff.mp run
      obtain ⟨bytes, calls, rfl⟩ := calls_of_decodeTurns turns
      refine .inr ⟨stream, last, room, uncomp, rfl, calls, ?_⟩
      dsimp only at run
      split at run
      · rename_i other
        cases run
        exact .inr ⟨other, rfl, rfl⟩
      · rename_i ended
        split at run
        · cases run
          exact .inl ⟨not_not.mp ended, rfl, rfl⟩
        · cases run

theorem zlibDecode_refused {status : MzStatus} (nonempty : payload ≠ [])
    (refused : started miniz payload = .error status) :
    zlibDecode miniz 0 payload zlibRawMode = some (status, none) := by
  rw [zlibDecode, if_neg (mt List.length_eq_zero_iff.mp nonempty), ← started, refused]

theorem zlibDecode_stopped {stream : miniz.State} {status : MzStatus} {room : Int}
    {bytes : List UInt8} (nonempty : payload ≠ []) (start : started miniz payload = .ok stream)
    (calls : PayloadCalls miniz payload stream status room bytes) (other : status ≠ .streamEnd) :
    ∃ fuel, zlibDecode miniz fuel payload zlibRawMode = some (status, none) := by
  obtain ⟨fuel, turns⟩ := decodeTurns_of_calls calls [] rfl
  refine ⟨fuel, ?_⟩
  rw [zlibDecode, if_neg (mt List.length_eq_zero_iff.mp nonempty), ← started, start]
  simp only [turns, Option.bind_eq_bind, Option.bind_some, if_pos other]

theorem splitBuffer_decoded {fuel : Nat} {first : UInt8} {status : MzStatus}
    {out : Option (List UInt8)}
    (run : zlibDecode miniz fuel payload zlibRawMode = some (status, out)) :
    splitBuffer miniz fuel (first :: payload) = some (gameData payload status out) := by
  simp only [splitBuffer, run, Option.bind_eq_bind, Option.bind_some]

theorem assigned_of_endsWell {fuel : Nat} {status : MzStatus} {out : Option (List UInt8)}
    (nonempty : payload ≠ []) (endsWell : EndsWell miniz payload)
    (run : zlibDecode miniz fuel payload zlibRawMode = some (status, out)) :
    ∃ data, gameData payload status out = some data ∧
      (data = payload ∨ Inflated miniz payload data) := by
  rcases zlibDecode_some nonempty run with
    ⟨refused, rfl⟩ | ⟨stream, last, room, bytes, start, calls, stopped⟩
  · rw [EndsWell, refused] at endsWell
    exact ⟨payload, if_pos endsWell, .inl rfl⟩
  · rw [EndsWell, start] at endsWell
    rcases stopped with ⟨rfl, rfl, rfl⟩ | ⟨other, rfl, rfl⟩
    · exact ⟨bytes, rfl, .inr ⟨stream, room, start, calls⟩⟩
    · have corrupt := (endsWell _ _ _ calls).resolve_left other
      exact ⟨payload, if_pos corrupt, .inl rfl⟩

theorem dataError_of_assigned {fuel : Nat} {status : MzStatus}
    (assigned : Assigned miniz payload)
    (run : zlibDecode miniz fuel payload zlibRawMode = some (status, none)) :
    status = .dataError := by
  obtain ⟨data, present, -⟩ := assigned fuel _ (splitBuffer_decoded run)
  by_contra other
  rw [gameData, if_neg other] at present
  cases present

theorem endsWell_of_assigned (assigned : Assigned miniz payload) :
    payload ≠ [] ∧ EndsWell miniz payload := by
  have nonempty : payload ≠ [] := by
    rintro rfl
    have empty : zlibDecode miniz 0 [] zlibRawMode = some (.ok, none) := rfl
    cases dataError_of_assigned assigned empty
  refine ⟨nonempty, ?_⟩
  rw [EndsWell]
  cases start : started miniz payload with
  | error status => exact dataError_of_assigned assigned (zlibDecode_refused nonempty start)
  | ok stream =>
      intro status room bytes calls
      by_contra bad
      obtain ⟨other, intact⟩ := not_or.mp bad
      obtain ⟨fuel, run⟩ := zlibDecode_stopped nonempty start calls other
      exact intact (dataError_of_assigned assigned run)

end Buffer

/-- The buffer is the inflated payload or the payload exactly where the payload
is not empty and miniz ends with the stream or with a data error. -/
theorem splitBuffer_assigned_iff (miniz : Miniz) (payload : List UInt8) :
    Assigned miniz payload ↔ payload ≠ [] ∧ EndsWell miniz payload := by
  constructor
  · exact endsWell_of_assigned
  · rintro ⟨nonempty, endsWell⟩ fuel buffer split
    obtain ⟨⟨status, out⟩, run, same⟩ := Option.bind_eq_some_iff.mp split
    cases same
    exact assigned_of_endsWell nonempty endsWell run

/-- A codec whose `inflate` waits for more input. -/
def starvedMiniz : Miniz where
  State := Unit
  inflateInit2 _ _ := .ok ()
  inflate _ _ := { status := .bufError, bytes := [], next := () }
  deflateInit2 _ _ := .ok
  deflate _ _ _ := []

/-- An empty payload, and a payload that ends within a block. -/
theorem buffer_unassigned :
    splitBuffer storedMiniz 0 [idGame] = some none ∧
      splitBuffer starvedMiniz 1 [idGame, 0x4b] = some none := ⟨rfl, rfl⟩

end PodrumMinecraft.GameBuffer
