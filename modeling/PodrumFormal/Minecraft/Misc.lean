import Mathlib.Algebra.Group.Int.Defs
import Mathlib.Algebra.Group.Nat.Defs
import PodrumFormal.Lib.ByteWriter
import PodrumFormal.Stream.VarInt

/-!
# Strings and byte arrays with their length

The arrays that `mcmisc.c` writes behind a var int or a 16-bit length, and the
getters of its strings.  A string is its bytes without the terminator.
-/

set_option autoImplicit false

namespace PodrumMinecraft.Misc

open ByteReader ByteWriter Endian PodrumStream.BinaryStream PodrumStream.VarInt

def getMiscByteArrayVarInt : Reader (List UInt8) := do
  let size ← getVarInt
  getBytes size.toNat

/-- A write through a pointer that was never set, or outside its allocation. -/
def writeOutside {α : Type} : Reader α := fun _ => none

def getMiscStringVarInt : Reader (List UInt8) := do
  let size ← getVarInt
  -- `malloc(size + 1)` wraps.
  if size + 1 = 0 then writeOutside else getBytes size.toNat

/-- A negative size, and the greatest, whose successor is negative, leave the
terminator without a place. -/
def getMiscStringIntLe : Reader (List UInt8) := do
  let size ← getIntLe
  if 0 < size + 1 then getBytes size.toNatClampNeg else writeOutside

structure MiscResourcePackIds where
  size : Int16
  ids : List (List UInt8)
  deriving DecidableEq

/-- A negative number of ids is none. -/
def getMiscResourcePackIds : Reader MiscResourcePackIds := do
  let size ← getShortLe
  let ids ← readCount getMiscStringVarInt size.toNatClampNeg
  pure { size, ids }

/-- A negative length is a `size_t` of more bytes than any stream has. -/
def getMiscByteArrayShortLe : Reader (List UInt8) := do
  let size ← getShortLe
  getBytes size.toInt64.toUInt64.toNat

def putMiscByteArrayVarInt (value : List UInt8) : List UInt8 :=
  putVarInt (UInt32.ofNat value.length) ++ putBytes value

/-- The length is an `int`: a negative one is a `size_t` of more bytes than any
string has. -/
def putMiscStringVarInt (value : List UInt8) : Option (List UInt8) :=
  let length := Int32.ofNat value.length
  if length < 0 then none
  else some (putVarInt length.toUInt32 ++ putBytes (value.take length.toNatClampNeg))

def putMiscByteArrayShortLe (value : List UInt8) : List UInt8 :=
  putShortLe (Int16.ofNat value.length) ++ putBytes value

theorem reads_byteArrayVarInt {value : List UInt8} (fits : value.length < 2 ^ 32) :
    Reads getMiscByteArrayVarInt (putMiscByteArrayVarInt value) value := by
  apply (reads_varInt _).bind
  rw [UInt32.toNat_ofNat_of_lt' fits]
  exact reads_bytes value

theorem shortSize_exact {size : Nat} (fits : size < 2 ^ 15) :
    (Int16.ofNat size).toInt64.toUInt64.toNat = size := by
  have widened : (Int16.ofNat size).toInt64 = Int64.ofNat size := by
    apply Int64.toInt_inj.mp
    rw [Int16.toInt_toInt64, Int16.toInt_ofNat_of_lt fits, Int64.toInt_ofNat_of_lt (by omega)]
  rw [widened, Int64.toUInt64_ofNat', UInt64.toNat_ofNat_of_lt' (by simp only [UInt64.size]; omega)]

theorem reads_byteArrayShortLe {value : List UInt8} (fits : value.length < 2 ^ 15) :
    Reads getMiscByteArrayShortLe (putMiscByteArrayShortLe value) value := by
  apply (reads_shortLe _).bind
  rw [shortSize_exact fits]
  exact reads_bytes value

theorem putMiscByteArrayShortLe_length (value : List UInt8) :
    (putMiscByteArrayShortLe value).length = 2 + value.length := by
  rw [putMiscByteArrayShortLe, List.length_append, putShortLe, putUnsignedShortLe,
    littleBytes_length, putBytes]

/-- A longer array is cut to the length that its 32 bits name, and the rest of
it is left in the stream. -/
theorem byteArrayVarInt_cut (value rest : List UInt8) :
    getMiscByteArrayVarInt (putMiscByteArrayVarInt value ++ rest) =
      some (value.take (value.length % 2 ^ 32), value.drop (value.length % 2 ^ 32) ++ rest) := by
  have short : value.length % 2 ^ 32 ≤ value.length := Nat.mod_le _ _
  have inside : value.length % 2 ^ 32 ≤ (value ++ rest).length := by
    rw [List.length_append]
    omega
  rw [getMiscByteArrayVarInt, putMiscByteArrayVarInt, bind_apply, List.append_assoc,
    reads_varInt, Option.bind_some, UInt32.toNat_ofNat', putBytes, getBytes, readBytes,
    if_pos inside, List.take_append_of_le_length short, List.drop_append_of_le_length short]

/-! ## Strings -/

/-- What the `int` leaves of a string. -/
def cut (value : List UInt8) : List UInt8 := value.take (value.length % 2 ^ 32)

/-- The length of a string, as an `int`, is not negative. -/
def Writable (value : List UInt8) : Prop := value.length % 2 ^ 32 < 2 ^ 31

instance (value : List UInt8) : Decidable (Writable value) :=
  inferInstanceAs (Decidable (value.length % 2 ^ 32 < 2 ^ 31))

theorem cut_short {value : List UInt8} (short : value.length < 2 ^ 31) : cut value = value := by
  rw [cut, Nat.mod_eq_of_lt (by omega), List.take_length]

theorem length_cut (value : List UInt8) : (cut value).length = value.length % 2 ^ 32 := by
  rw [cut, List.length_take]
  exact Nat.min_eq_left (Nat.mod_le _ _)

theorem length_cut_lt {value : List UInt8} (writable : Writable value) :
    (cut value).length < 2 ^ 31 := by
  rw [length_cut]
  exact writable

/-- A writable string that is not cut is short. -/
theorem short_of_cut {value : List UInt8} (writable : Writable value) (same : cut value = value) :
    value.length < 2 ^ 31 := by
  have length := length_cut_lt writable
  rwa [same] at length

theorem ofNat_size {length : Nat} (short : length < 2 ^ 31) :
    (UInt32.ofNat length).toNat = length :=
  UInt32.toNat_ofNat_of_lt' (by simp only [UInt32.size]; omega)

theorem writable_short {value : List UInt8} (short : value.length < 2 ^ 31) : Writable value := by
  rw [Writable, Nat.mod_eq_of_lt (by omega)]
  exact short

theorem intLength (value : List UInt8) :
    (Int32.ofNat value.length).toInt =
      if Writable value then ((value.length % 2 ^ 32 : Nat) : Int)
      else ((value.length % 2 ^ 32 : Nat) : Int) - 2 ^ 32 := by
  have size : (Int32.size : Int) = 2 ^ 32 := rfl
  rw [Int32.toInt_ofNat', Int.bmod_def, size]
  by_cases writable : Writable value
  · rw [if_pos writable]
    unfold Writable at writable
    rw [if_pos (by omega)]
    omega
  · rw [if_neg writable]
    unfold Writable at writable
    rw [if_neg (by omega)]
    omega

theorem intLength_negative (value : List UInt8) :
    Int32.ofNat value.length < 0 ↔ ¬Writable value := by
  have length := intLength value
  rw [Int32.lt_iff_toInt_lt, Int32.toInt_zero, length]
  split
  · rename_i writable
    exact iff_of_false (Int.not_lt.mpr (Int.natCast_nonneg _)) (not_not_intro writable)
  · rename_i tooLong
    have below : value.length % 2 ^ 32 < 2 ^ 32 := Nat.mod_lt _ (by decide)
    exact iff_of_true (by omega) tooLong

theorem putMiscStringVarInt_writable {value : List UInt8} (writable : Writable value) :
    putMiscStringVarInt value =
      some (putVarInt (UInt32.ofNat (cut value).length) ++ putBytes (cut value)) := by
  have positive : ¬Int32.ofNat value.length < 0 :=
    fun negative => (intLength_negative value).mp negative writable
  have size : (Int32.ofNat value.length).toNatClampNeg = value.length % 2 ^ 32 := by
    have length := intLength value
    rw [if_pos writable] at length
    rw [Int32.toNatClampNeg, length, Int.toNat_natCast]
  have wrapped : UInt32.ofNat (value.length % 2 ^ 32) = UInt32.ofNat value.length :=
    UInt32.toNat_inj.mp (by rw [UInt32.toNat_ofNat', UInt32.toNat_ofNat', Nat.mod_mod])
  simp only [putMiscStringVarInt, if_neg positive, size, Int32.toUInt32_ofNat', length_cut, wrapped]
  rfl

theorem putMiscStringVarInt_isSome {value : List UInt8} :
    (∃ block, putMiscStringVarInt value = some block) ↔ Writable value := by
  constructor
  · rintro ⟨block, written⟩
    by_contra tooLong
    rw [putMiscStringVarInt, if_pos ((intLength_negative value).mpr tooLong)] at written
    cases written
  · intro writable
    exact ⟨_, putMiscStringVarInt_writable writable⟩

/-- A string is read back up to its cut. -/
theorem encodes_string (value : List UInt8) :
    Encodes (putMiscStringVarInt value) getMiscStringVarInt (cut value) := by
  intro block written
  have writable := putMiscStringVarInt_isSome.mp ⟨block, written⟩
  have fits := length_cut_lt writable
  have size := ofNat_size fits
  have room : UInt32.ofNat (cut value).length + 1 ≠ 0 := by
    intro zero
    have wraps := congrArg UInt32.toNat zero
    rw [UInt32.toNat_add, size, UInt32.toNat_one, UInt32.toNat_zero] at wraps
    omega
  rw [putMiscStringVarInt_writable writable] at written
  cases written
  apply (reads_varInt _).bind
  rw [if_neg room, size]
  exact reads_bytes _

end PodrumMinecraft.Misc
