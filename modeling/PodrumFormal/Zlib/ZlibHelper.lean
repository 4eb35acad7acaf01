import Mathlib.Algebra.Group.Int.Defs
import Mathlib.Algebra.Group.Nat.Defs
import Mathlib.Data.List.Basic

/-!
# The zlib helper

`zlib_decode` and `zlib_encode` over the calls of miniz that they make.  The
buffer of the decoder is as long as an `int` says: from `2 ^ 31` bytes on, the
length is negative and no byte may be written.
-/

set_option autoImplicit false

namespace PodrumZlib.ZlibHelper

inductive MzStatus
  | ok
  | streamEnd
  | needDict
  | errno
  | streamError
  | dataError
  | memError
  | bufError
  | versionError
  | paramError
  deriving DecidableEq, Repr

/-- What one call of `inflate` leaves behind. -/
structure InflateCall (State : Type) where
  status : MzStatus
  bytes : List UInt8
  next : State

/-- The part of miniz that the helper calls.  `inflate` has the whole input
from its start, and the room behind `next_out`; `deflate` is the whole output
of `Z_FINISH`. -/
structure Miniz where
  State : Type
  inflateInit2 : (windowBits : Int) → List UInt8 → Except MzStatus State
  inflate : State → (availOut : Nat) → InflateCall State
  deflateInit2 : (windowBits level : Int) → MzStatus
  deflate : (windowBits level : Int) → List UInt8 → List UInt8

def zlibDeflateMode : Int := 0
def zlibRawMode : Int := 1
def zlibGzipMode : Int := 2

def windowBits (mode : Int) : Int :=
  if mode = zlibRawMode then -15
  else if mode = zlibDeflateMode then 15
  else if mode = zlibGzipMode then 16 + 15
  else 15

/-! ## C integers -/

def toInt (value : Int) : Int := value.bmod (2 ^ 32)

def toULong (value : Int) : Nat := (value % 2 ^ 64).toNat

def toUInt (value : Int) : Nat := (value % 2 ^ 32).toNat

theorem toInt_small {value : Int} (nonneg : 0 ≤ value) (small : value < 2 ^ 31) :
    toInt value = value := by
  rw [toInt, Int.bmod_def]
  omega

theorem toInt_large (value : Int) (large : 2 ^ 31 ≤ value) (below : value < 2 ^ 32) :
    toInt value = value - 2 ^ 32 := by
  rw [toInt, Int.bmod_def]
  omega

/-! ## Decoding -/

section Decode

variable (miniz : Miniz)

/-- The length of the buffer for the next call. -/
def nextLen (halfLen totalOut : Nat) (len : Int) : Int :=
  if toULong len ≤ totalOut then toInt (len + halfLen) else len

/-- The loop around `inflate`: the last status, the length of the buffer and
the bytes in it. -/
def decodeTurns (halfLen : Nat) :
    Nat → Int → List UInt8 → miniz.State → Option (MzStatus × Int × List UInt8)
  | 0, _, _, _ => none
  | fuel + 1, len, uncomp, stream =>
      let room := nextLen halfLen uncomp.length len
      let call := miniz.inflate stream (toUInt (room - uncomp.length))
      if call.bytes ≠ [] ∧ room < uncomp.length + call.bytes.length then none
      else if call.status = .ok then
        decodeTurns halfLen fuel room (uncomp ++ call.bytes) call.next
      else some (call.status, room, uncomp ++ call.bytes)

/-- The status, and the output where it is assigned. -/
def zlibDecode (fuel : Nat) (input : List UInt8) (mode : Int) :
    Option (MzStatus × Option (List UInt8)) :=
  if input.length = 0 then some (.ok, none)
  else
    match miniz.inflateInit2 (windowBits mode) (input.take (toUInt input.length)) with
    | .error status => some (status, none)
    | .ok stream => do
        let (status, room, uncomp) ←
          decodeTurns miniz (input.length / 2) fuel (toInt input.length) [] stream
        if status ≠ .streamEnd then some (status, none)
        else if uncomp = [] ∨ uncomp.length ≤ room then some (.ok, some uncomp)
        else none

end Decode

/-! ## Encoding -/

def compressBound (sourceLen : Nat) : Nat :=
  max (128 + sourceLen * 110 / 100) (128 + sourceLen + (sourceLen / (31 * 1024) + 1) * 5)

/-- The status, and the output where it is wholly written. -/
def zlibEncode (miniz : Miniz) (input : List UInt8) (level mode : Int) :
    MzStatus × Option (List UInt8) :=
  let availOut := toUInt (compressBound input.length)
  let ready := miniz.deflateInit2 (windowBits mode) level
  let encoded := miniz.deflate (windowBits mode) level (input.take (toUInt input.length))
  if ready ≠ .ok then (ready, none)
  else if availOut = 0 then (.bufError, none)
  else if encoded.length ≤ availOut then (.ok, some encoded)
  else (.ok, none)

/-! ## Inflate undoes deflate -/

/-- Calls with room deliver `pending` in parts, at least a byte a call, and the
call with the last byte ends the stream. -/
inductive Delivers (miniz : Miniz) : miniz.State → List UInt8 → Prop
  | intro {stream : miniz.State} {pending : List UInt8}
      (within : ∀ avail, 1 ≤ avail → (miniz.inflate stream avail).bytes.length ≤ avail)
      (part : ∀ avail, 1 ≤ avail → (miniz.inflate stream avail).bytes <+: pending)
      (status : ∀ avail, 1 ≤ avail →
        (miniz.inflate stream avail).status =
          if (miniz.inflate stream avail).bytes = pending then .streamEnd else .ok)
      (progress : ∀ avail, 1 ≤ avail → (miniz.inflate stream avail).bytes = [] → pending = [])
      (others : ∀ avail, 1 ≤ avail → (miniz.inflate stream avail).bytes ≠ pending →
        Delivers miniz (miniz.inflate stream avail).next
          (pending.drop (miniz.inflate stream avail).bytes.length)) :
      Delivers miniz stream pending

structure RawLaws (miniz : Miniz) (level : Int) : Prop where
  ready : miniz.deflateInit2 (windowBits zlibRawMode) level = .ok
  nonempty : ∀ data, 2 ≤ (miniz.deflate (windowBits zlibRawMode) level data).length
  bounded : ∀ data, data.length < 2 ^ 32 →
    (miniz.deflate (windowBits zlibRawMode) level data).length ≤ compressBound data.length
  inflated : ∀ data, data.length < 2 ^ 32 → ∃ stream,
    miniz.inflateInit2 (windowBits zlibRawMode)
      (miniz.deflate (windowBits zlibRawMode) level data) = .ok stream ∧
    Delivers miniz stream data

/-- Some buffer of the decoder, which starts at `size` bytes and grows by half
of that, holds `total` bytes and is below `2 ^ 31` bytes long. -/
def BufferFits (total size : Nat) : Prop :=
  ∃ turns, total ≤ size + turns * (size / 2) ∧ size + turns * (size / 2) < 2 ^ 31

/-! ## The loop over a lawful stream -/

section Turns

variable {miniz : Miniz} {stream : miniz.State} {pending : List UInt8}

theorem toULong_small {value : Int} (nonneg : 0 ≤ value) (small : value < 2 ^ 31) :
    (toULong value : Int) = value := by
  rw [toULong]
  omega

theorem toUInt_small (value : Int) (nonneg : 0 ≤ value) (small : value < 2 ^ 32) :
    (toUInt value : Int) = value := by
  rw [toUInt]
  omega

theorem product_nonneg (turns halfLen : Nat) : (0 : Int) ≤ turns * halfLen :=
  Int.mul_nonneg (Int.natCast_nonneg turns) (Int.natCast_nonneg halfLen)

/-- Until the whole output is there, the next call has room, in a buffer of
the same sequence. -/
theorem nextLen_fits {halfLen totalOut left turns : Nat} {len : Int} (grows : 1 ≤ halfLen)
    (nonneg : 0 ≤ len) (inside : totalOut ≤ len) (more : totalOut = len → 1 ≤ left)
    (fits : totalOut + left ≤ len + turns * halfLen) (small : len + turns * halfLen < 2 ^ 31) :
    ∃ later : Nat, (totalOut : Int) < nextLen halfLen totalOut len ∧
      nextLen halfLen totalOut len + later * halfLen = len + turns * halfLen := by
  have product := product_nonneg turns halfLen
  have unsigned := toULong_small nonneg (by omega)
  rw [nextLen]
  by_cases full : toULong len ≤ totalOut
  · have reached : (totalOut : Int) = len := by omega
    have waiting := more reached
    cases turns with
    | zero => omega
    | succ turns =>
        have split : ((turns + 1 : Nat) : Int) * halfLen = turns * halfLen + halfLen := by
          rw [Int.natCast_succ, Int.add_mul, Int.one_mul]
        have product := product_nonneg turns halfLen
        rw [if_pos full, toInt_small (by omega) (by omega)]
        exact ⟨turns, by omega, by omega⟩
  · rw [if_neg full]
    exact ⟨turns, by omega, rfl⟩

/-- The turn of a buffer that the bytes of the call fit in. -/
theorem decodeTurns_turn {halfLen : Nat} (fuel : Nat) {len room : Int} {uncomp : List UInt8}
    {call : InflateCall miniz.State} (next : nextLen halfLen uncomp.length len = room)
    (called : miniz.inflate stream (toUInt (room - uncomp.length)) = call)
    (inside : uncomp.length + call.bytes.length ≤ room) :
    decodeTurns miniz halfLen (fuel + 1) len uncomp stream =
      if call.status = .ok then
        decodeTurns miniz halfLen fuel room (uncomp ++ call.bytes) call.next
      else some (call.status, room, uncomp ++ call.bytes) := by
  have written : ¬(call.bytes ≠ [] ∧ room < uncomp.length + call.bytes.length) := by
    rintro ⟨_, outside⟩
    omega
  simp only [decodeTurns, next, called, if_neg written]

theorem decodeTurns_fits (delivers : Delivers miniz stream pending) {halfLen : Nat}
    (grows : 1 ≤ halfLen) : ∀ (len : Int) (uncomp : List UInt8) (turns : Nat), 0 ≤ len →
      uncomp.length ≤ len → (uncomp.length = len → 1 ≤ pending.length) →
      uncomp.length + pending.length ≤ len + turns * halfLen → len + turns * halfLen < 2 ^ 31 →
      ∃ fuel room, decodeTurns miniz halfLen fuel len uncomp stream =
        some (.streamEnd, room, uncomp ++ pending) ∧ (uncomp ++ pending).length ≤ room := by
  induction delivers with
  | @intro stream pending within part status progress others ih =>
      intro len uncomp turns nonneg inside more fits small
      obtain ⟨later, room, total⟩ := nextLen_fits grows nonneg inside more fits small
      have product := product_nonneg later halfLen
      generalize next : nextLen halfLen uncomp.length len = length at room total
      have avail := toUInt_small (length - uncomp.length) (by omega) (by omega)
      generalize asked : toUInt (length - uncomp.length) = available at avail
      have positive : 1 ≤ available := by omega
      have short := within available positive
      have ended := status available positive
      have onward := ih available positive
      obtain ⟨left, rfl⟩ := part available positive
      generalize called : miniz.inflate stream available = call at *
      have turn := fun fuel => decodeTurns_turn fuel next
        (asked.symm ▸ called) (by omega)
      by_cases whole : call.bytes = call.bytes ++ left
      · rw [if_pos whole] at ended
        refine ⟨1, length, ?_⟩
        rw [turn, ended, ← whole, List.length_append]
        exact ⟨rfl, by omega⟩
      · rw [if_neg whole] at ended
        have unread : 1 ≤ left.length :=
          List.length_pos_of_ne_nil fun none => whole (by rw [none, List.append_nil])
        rw [List.drop_left] at onward
        rw [List.length_append] at fits
        obtain ⟨fuel, last, run, holds⟩ := onward whole length
          (uncomp ++ call.bytes) later (by omega) (by rw [List.length_append]; omega) (fun _ => unread)
          (by rw [List.length_append]; omega) (by omega)
        rw [List.append_assoc] at run holds
        exact ⟨fuel + 1, last, by rw [turn, if_pos ended, run], holds⟩

/-- A write behind a negative length. -/
theorem decodeTurns_outside (delivers : Delivers miniz stream pending) {halfLen fuel : Nat}
    {len room : Int} {uncomp : List UInt8} (next : nextLen halfLen uncomp.length len = room)
    (negative : room < 0) (avail : 1 ≤ toUInt (room - uncomp.length)) (more : pending ≠ []) :
    decodeTurns miniz halfLen (fuel + 1) len uncomp stream = none := by
  cases delivers with
  | intro within part status progress others =>
      have written := fun silent => more (progress _ avail silent)
      simp only [decodeTurns, next]
      rw [if_pos ⟨written, by omega⟩]

/-- What the next call has room for, where no buffer below `2 ^ 31` bytes holds
the whole output. -/
theorem nextLen_overflow {halfLen totalOut left : Nat} {len : Int} (grows : 1 ≤ halfLen)
    (halved : halfLen < 2 ^ 31) (nonneg : 0 ≤ len) (inside : totalOut ≤ len)
    (never : ∀ turns : Nat, len + turns * halfLen < 2 ^ 31 →
      len + turns * halfLen < totalOut + left) (small : len < 2 ^ 31) :
    (nextLen halfLen totalOut len < 0 ∧
        1 ≤ toUInt (nextLen halfLen totalOut len - totalOut)) ∨
      (totalOut < nextLen halfLen totalOut len ∧ nextLen halfLen totalOut len < 2 ^ 31 ∧
        ∀ turns : Nat, nextLen halfLen totalOut len + turns * halfLen < 2 ^ 31 →
          nextLen halfLen totalOut len + turns * halfLen < totalOut + left) := by
  have unsigned := toULong_small nonneg small
  rw [nextLen]
  by_cases full : toULong len ≤ totalOut
  · rw [if_pos full]
    by_cases overflow : 2 ^ 31 ≤ len + halfLen
    · left
      rw [toInt_large _ overflow (by omega)]
      refine ⟨by omega, ?_⟩
      rw [toUInt]
      omega
    · right
      rw [toInt_small (by omega) (by omega)]
      refine ⟨by omega, by omega, ?_⟩
      intro turns bound
      have split : ((turns + 1 : Nat) : Int) * halfLen = turns * halfLen + halfLen := by
        rw [Int.natCast_succ, Int.add_mul, Int.one_mul]
      have reached := never (turns + 1) (by omega)
      omega
  · right
    rw [if_neg full]
    exact ⟨by omega, small, never⟩

theorem decodeTurns_overflow (delivers : Delivers miniz stream pending) {halfLen : Nat}
    (grows : 1 ≤ halfLen) (halved : halfLen < 2 ^ 31) : ∀ {len : Int} {uncomp : List UInt8},
      0 ≤ len → len < 2 ^ 31 → uncomp.length ≤ len →
      (∀ turns : Nat, len + turns * halfLen < 2 ^ 31 →
        len + turns * halfLen < uncomp.length + pending.length) →
      ∀ fuel, decodeTurns miniz halfLen fuel len uncomp stream = none := by
  induction delivers with
  | @intro stream pending within part status progress others ih =>
      intro len uncomp nonneg small inside never fuel
      have delivers : Delivers miniz stream pending := .intro within part status progress others
      have beyond := never 0 (by omega)
      have more : pending ≠ [] := by
        rintro rfl
        rw [List.length_nil] at beyond
        omega
      cases fuel with
      | zero => rfl
      | succ fuel =>
          rcases nextLen_overflow grows halved nonneg inside never small with
            ⟨negative, avail⟩ | ⟨room, below, later⟩
          · exact decodeTurns_outside delivers rfl negative avail more
          · generalize next : nextLen halfLen uncomp.length len = length at room below later
            have avail := toUInt_small (length - uncomp.length) (by omega) (by omega)
            generalize asked : toUInt (length - uncomp.length) = available at avail
            have positive : 1 ≤ available := by omega
            have short := within available positive
            have ended := status available positive
            have onward := ih available positive
            obtain ⟨left, rfl⟩ := part available positive
            generalize called : miniz.inflate stream available = call at *
            have turn := decodeTurns_turn fuel next (asked.symm ▸ called) (by omega)
            have unread := later 0 (by omega)
            rw [List.length_append] at later unread
            have whole : call.bytes ≠ call.bytes ++ left := by
              intro whole
              have same := congrArg List.length whole
              rw [List.length_append] at same
              omega
            rw [if_neg whole] at ended
            rw [List.drop_left] at onward
            rw [turn, if_pos ended]
            apply onward whole (by omega) below (by rw [List.length_append]; omega)
            intro turns bound
            have reached := later turns bound
            rw [List.length_append]
            omega

end Turns

/-! ## What the decoder makes of what the encoder wrote -/

section Helper

variable {miniz : Miniz} {level : Int} {data : List UInt8}

theorem toUInt_length {size : Nat} (small : size < 2 ^ 32) : toUInt size = size := by
  rw [toUInt]
  omega

theorem zlibDecode_deflated (laws : RawLaws miniz level) (short : data.length < 2 ^ 32)
    {encoded : List UInt8} (deflated : miniz.deflate (windowBits zlibRawMode) level data = encoded)
    (small : encoded.length < 2 ^ 32) :
    ∃ stream, Delivers miniz stream data ∧ ∀ fuel,
      zlibDecode miniz fuel encoded zlibRawMode =
        (decodeTurns miniz (encoded.length / 2) fuel (toInt encoded.length) [] stream).bind
          fun (status, room, uncomp) =>
            if status ≠ .streamEnd then some (status, none)
            else if uncomp = [] ∨ uncomp.length ≤ room then some (.ok, some uncomp)
            else none := by
  have nonempty := laws.nonempty data
  obtain ⟨stream, started, delivers⟩ := laws.inflated data short
  rw [deflated] at nonempty started
  refine ⟨stream, delivers, fun fuel => ?_⟩
  rw [zlibDecode, if_neg (by omega), toUInt_length small, List.take_length, started]
  rfl

theorem zlibDecode_fits (laws : RawLaws miniz level) {encoded : List UInt8}
    (deflated : miniz.deflate (windowBits zlibRawMode) level data = encoded)
    (fits : BufferFits data.length encoded.length) :
    ∃ fuel, zlibDecode miniz fuel encoded zlibRawMode = some (.ok, some data) := by
  obtain ⟨turns, room, small⟩ := fits
  have nonempty := laws.nonempty data
  rw [deflated] at nonempty
  obtain ⟨stream, delivers, decoded⟩ :=
    zlibDecode_deflated laws (by omega) deflated (by omega)
  have roomInt : (data.length : Int) ≤ encoded.length + turns * (encoded.length / 2 : Nat) := by
    exact_mod_cast room
  have smallInt : (encoded.length : Int) + turns * (encoded.length / 2 : Nat) < 2 ^ 31 := by
    exact_mod_cast small
  obtain ⟨fuel, last, run, holds⟩ := decodeTurns_fits delivers
    (show 1 ≤ encoded.length / 2 by omega) encoded.length [] turns (by omega)
    (by rw [List.length_nil]; omega) (by rw [List.length_nil]; omega)
    (by rw [List.length_nil]; omega) smallInt
  refine ⟨fuel, ?_⟩
  rw [decoded, toInt_small (by omega) (by omega), run]
  simp only [List.nil_append] at holds ⊢
  simp [holds]

theorem zlibDecode_overflow (laws : RawLaws miniz level) (short : data.length < 2 ^ 32)
    {encoded : List UInt8} (deflated : miniz.deflate (windowBits zlibRawMode) level data = encoded)
    (small : encoded.length < 2 ^ 32) (bounded : encoded.length ≤ compressBound data.length)
    (overflow : ¬BufferFits data.length encoded.length) (fuel : Nat) :
    zlibDecode miniz fuel encoded zlibRawMode = none := by
  have nonempty := laws.nonempty data
  rw [deflated] at nonempty
  obtain ⟨stream, delivers, decoded⟩ := zlibDecode_deflated laws short deflated small
  have run : decodeTurns miniz (encoded.length / 2) fuel (toInt encoded.length) [] stream =
      none := by
    by_cases fits : encoded.length < 2 ^ 31
    · rw [toInt_small (by omega) (by omega)]
      apply decodeTurns_overflow delivers (by omega) (by omega) (by omega) (by omega)
        (by rw [List.length_nil]; omega)
      intro turns bound
      by_contra holds
      apply overflow
      rw [List.length_nil] at holds
      refine ⟨turns, ?_, ?_⟩
      · have room : (data.length : Int) ≤ encoded.length + turns * (encoded.length / 2 : Nat) := by
          omega
        exact_mod_cast room
      · exact_mod_cast bound
    · have some : data ≠ [] := by
        rintro rfl
        have bound : encoded.length ≤ 133 := bounded
        omega
      have length := toInt_large encoded.length (by omega) (by omega)
      have kept : nextLen (encoded.length / 2) ([] : List UInt8).length (toInt encoded.length) =
          toInt encoded.length := by
        rw [nextLen, if_neg]
        rw [List.length_nil, toULong]
        omega
      cases fuel with
      | zero => rfl
      | succ fuel =>
          refine decodeTurns_outside delivers kept (by omega) ?_ some
          rw [List.length_nil, toUInt]
          omega
  rw [decoded, run]
  rfl

theorem zlibEncode_deflated (laws : RawLaws miniz level) (small : data.length < 2 ^ 31) :
    zlibEncode miniz data level zlibRawMode =
      (.ok, some (miniz.deflate (windowBits zlibRawMode) level data)) := by
  have bounded := laws.bounded data (by omega)
  have nonempty := laws.nonempty data
  have below : compressBound data.length < 2 ^ 32 := by
    rw [compressBound]
    omega
  rw [zlibEncode, toUInt_length below, toUInt_length (show data.length < 2 ^ 32 by omega),
    List.take_length, laws.ready]
  simp only [ne_eq, not_true_eq_false, if_false]
  rw [if_neg (by omega), if_pos bounded]

/-- An output that is wholly written is the output for the part of the input
that `avail_in` counts. -/
theorem zlibEncode_out {mode : Int} {encoded : List UInt8}
    (success : (zlibEncode miniz data level mode).2 = some encoded) :
    miniz.deflate (windowBits mode) level (data.take (toUInt data.length)) = encoded ∧
      encoded.length < 2 ^ 32 := by
  have below : toUInt (compressBound data.length) < 2 ^ 32 := by
    rw [toUInt]
    omega
  unfold zlibEncode at success
  dsimp only at success
  split at success
  · cases success
  · split at success
    · cases success
    · split at success
      · rename_i fits
        cases success
        exact ⟨rfl, by omega⟩
      · cases success

/-- More turns than a run takes change nothing. -/
theorem decodeTurns_more {halfLen : Nat} {result : MzStatus × Int × List UInt8} :
    ∀ {fuel : Nat} {len : Int} {uncomp : List UInt8} {stream : miniz.State},
      decodeTurns miniz halfLen fuel len uncomp stream = some result → ∀ more,
      decodeTurns miniz halfLen (fuel + more) len uncomp stream = some result := by
  intro fuel
  induction fuel with
  | zero =>
      intro len uncomp stream run
      cases run
  | succ fuel ih =>
      intro len uncomp stream run more
      rw [Nat.add_right_comm]
      simp only [decodeTurns] at run ⊢
      split at run
      · cases run
      · rename_i inside
        rw [if_neg inside]
        split at run
        · rename_i again
          rw [if_pos again]
          exact ih run more
        · rename_i last
          rw [if_neg last]
          exact run

theorem zlibDecode_more {fuel : Nat} {input : List UInt8} {mode : Int}
    {result : MzStatus × Option (List UInt8)}
    (run : zlibDecode miniz fuel input mode = some result) (more : Nat) :
    zlibDecode miniz (fuel + more) input mode = some result := by
  unfold zlibDecode at run ⊢
  split at run
  · rename_i empty
    rw [if_pos empty]
    exact run
  · rename_i some
    rw [if_neg some]
    split at run
    · exact run
    · obtain ⟨last, turns, run⟩ := Option.bind_eq_some_iff.mp run
      simp only [decodeTurns_more turns more]
      exact run

/-- The decoder has one result, however many turns it is given. -/
theorem zlibDecode_unique {first second : Nat} {input : List UInt8} {mode : Int}
    {left right : MzStatus × Option (List UInt8)}
    (one : zlibDecode miniz first input mode = some left)
    (other : zlibDecode miniz second input mode = some right) : left = right := by
  have run := zlibDecode_more one second
  rw [Nat.add_comm, zlibDecode_more other first] at run
  exact (Option.some.inj run).symm

end Helper

end PodrumZlib.ZlibHelper
