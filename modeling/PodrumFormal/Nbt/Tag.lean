import PodrumFormal.Misc.CString
import PodrumFormal.Stream.VarInt

/-!
# Named binary tags

The tag tree and its codec in three byte orders.  A union is the member its
tag id names, so the ids of a tree are those of its values.  A getter is
`none` where it reads past the stream or writes outside a string.
-/

set_option autoImplicit false

namespace PodrumNbt.Tag

open ByteReader PodrumMisc.CString PodrumStream.BinaryStream PodrumStream.VarInt

def endTag : Int8 := 0
def byteTag : Int8 := 1
def shortTag : Int8 := 2
def intTag : Int8 := 3
def longTag : Int8 := 4
def floatTag : Int8 := 5
def doubleTag : Int8 := 6
def byteArrayTag : Int8 := 7
def stringTag : Int8 := 8
def listTag : Int8 := 9
def compoundTag : Int8 := 10
def intArrayTag : Int8 := 11
def longArrayTag : Int8 := 12

inductive Endianess
  | big
  | little
  | network
  deriving DecidableEq, Repr

/-- `unwritten` is the union under an id that no case of the getter has. -/
inductive NbtMulti
  | unwritten (tagId : Int8)
  | byte (value : Int8)
  | short (value : Int16)
  | int (value : Int32)
  | long (value : Int64)
  | float (bits : UInt32)
  | double (bits : UInt64)
  | byteArray (data : List Int8)
  | string (text : List UInt8)
  | list (tagId : Int8) (data : List NbtMulti)
  | compound (entries : List (List UInt8 × NbtMulti))
  | intArray (data : List Int32)
  | longArray (data : List Int64)
  deriving Repr

def NbtMulti.tagId : NbtMulti → Int8
  | .unwritten tagId => tagId
  | .byte _ => byteTag
  | .short _ => shortTag
  | .int _ => intTag
  | .long _ => longTag
  | .float _ => floatTag
  | .double _ => doubleTag
  | .byteArray _ => byteArrayTag
  | .string _ => stringTag
  | .list _ _ => listTag
  | .compound _ => compoundTag
  | .intArray _ => intArrayTag
  | .longArray _ => longArrayTag

structure NbtNamed where
  name : List UInt8
  data : NbtMulti
  deriving Repr

/-! ## Scalars -/

section Getters

variable (endianess : Endianess)

def getNbtByteTag : Reader Int8 := getByte

def getNbtShortTag : Reader Int16 :=
  match endianess with
  | .big => getShortBe
  | .little | .network => getShortLe

def getNbtIntTag : Reader Int32 :=
  match endianess with
  | .big => getIntBe
  | .little => getIntLe
  | .network => getSignedVarInt

def getNbtLongTag : Reader Int64 :=
  match endianess with
  | .big => getLongBe
  | .little => getLongLe
  | .network => getSignedVarLong

def getNbtFloatTag : Reader UInt32 :=
  match endianess with
  | .big => getFloatBe
  | .little | .network => getFloatLe

def getNbtDoubleTag : Reader UInt64 :=
  match endianess with
  | .big => getDoubleBe
  | .little | .network => getDoubleLe

/-! ## Arrays and strings -/

/-- The loop `for (i = 0; i < size; ++i)`, which a negative size does not
enter. -/
def readSized {α : Type} (reader : Reader α) : Reader (List α) := do
  let size ← getNbtIntTag endianess
  readCount reader size.toInt.toNat

def getNbtByteArrayTag : Reader (List Int8) := readSized endianess getNbtByteTag

def getLength : Reader UInt32 :=
  match endianess with
  | .big => do
      let length ← getUnsignedShortBe
      pure length.toUInt32
  | .little => do
      let length ← getUnsignedShortLe
      pure length.toUInt32
  | .network => getVarInt

def getNbtStringTag : Reader (List UInt8) := do
  let length ← getLength endianess
  -- `length + 1` is a 32-bit sum, and so may be a smaller allocation.
  if length.toNat < (length + 1).toNat then getBytes length.toNat else fun _ => none

def getNbtIntArrayTag : Reader (List Int32) := readSized endianess (getNbtIntTag endianess)

def getNbtLongArrayTag : Reader (List Int64) := readSized endianess (getNbtLongTag endianess)

/-! ## Trees -/

variable (multi : Int8 → Reader NbtMulti)

def getNbtListTag : Reader NbtMulti := do
  let tagId ← getNbtByteTag
  let data ← readSized endianess (multi tagId)
  pure (.list tagId data)

/-- An entry behind its tag id, and the entries after it. -/
def getEntry (tagId : Int8) (others : Reader (List (List UInt8 × NbtMulti))) :
    Reader (List (List UInt8 × NbtMulti)) := do
  let name ← getNbtStringTag endianess
  let data ← multi tagId
  let rest ← others
  pure ((name, data) :: rest)

def getTurn (others : Reader (List (List UInt8 × NbtMulti))) :
    Reader (List (List UInt8 × NbtMulti)) := do
  let tagId ← getNbtByteTag
  if tagId = endTag then pure [] else getEntry endianess multi tagId others

/-- The loop of `get_nbt_compound_tag`: it ends with the stream or behind an
end tag. -/
def getEntries : Nat → Reader (List (List UInt8 × NbtMulti))
  | _, [] => some ([], [])
  | 0, _ :: _ => none
  | fuel + 1, bytes@(_ :: _) => getTurn endianess multi (getEntries fuel) bytes

/-- Every turn passes a byte, so the fuel is the number of bytes left. -/
def getNbtCompoundTag : Reader NbtMulti := fun bytes =>
  (NbtMulti.compound <$> getEntries endianess multi bytes.length) bytes

end Getters

/-- Every nested call is behind a byte of its own. -/
def getNbtMultiTag (endianess : Endianess) : Nat → Int8 → Reader NbtMulti
  | 0, _ => fun _ => none
  | fuel + 1, tagId =>
      if tagId = byteTag then .byte <$> getNbtByteTag
      else if tagId = shortTag then .short <$> getNbtShortTag endianess
      else if tagId = intTag then .int <$> getNbtIntTag endianess
      else if tagId = longTag then .long <$> getNbtLongTag endianess
      else if tagId = floatTag then .float <$> getNbtFloatTag endianess
      else if tagId = doubleTag then .double <$> getNbtDoubleTag endianess
      else if tagId = byteArrayTag then .byteArray <$> getNbtByteArrayTag endianess
      else if tagId = stringTag then .string <$> getNbtStringTag endianess
      else if tagId = listTag then getNbtListTag endianess (getNbtMultiTag endianess fuel)
      else if tagId = compoundTag then getNbtCompoundTag endianess (getNbtMultiTag endianess fuel)
      else if tagId = intArrayTag then .intArray <$> getNbtIntArrayTag endianess
      else if tagId = longArrayTag then .longArray <$> getNbtLongArrayTag endianess
      else pure (.unwritten tagId)

def getNamedWithin (endianess : Endianess) (fuel : Nat) : Reader NbtNamed := do
  let tagId ← getNbtByteTag
  if tagId ≠ endTag then do
    let name ← getNbtStringTag endianess
    let data ← getNbtMultiTag endianess fuel tagId
    pure { name, data }
  else pure { name := [], data := .unwritten tagId }

def getNbtNamedTag (endianess : Endianess) : Reader NbtNamed := fun bytes =>
  getNamedWithin endianess bytes.length bytes

/-! ## Putters -/

section Putters

variable (endianess : Endianess)

def putNbtByteTag (value : Int8) : List UInt8 := putByte value

def putNbtShortTag (value : Int16) : List UInt8 :=
  match endianess with
  | .big => putShortBe value
  | .little | .network => putShortLe value

def putNbtIntTag (value : Int32) : List UInt8 :=
  match endianess with
  | .big => putIntBe value
  | .little => putIntLe value
  | .network => putSignedVarInt value

def putNbtLongTag (value : Int64) : List UInt8 :=
  match endianess with
  | .big => putLongBe value
  | .little => putLongLe value
  | .network => putSignedVarLong value

def putNbtFloatTag (bits : UInt32) : List UInt8 :=
  match endianess with
  | .big => putFloatBe bits
  | .little | .network => putFloatLe bits

def putNbtDoubleTag (bits : UInt64) : List UInt8 :=
  match endianess with
  | .big => putDoubleBe bits
  | .little | .network => putDoubleLe bits

def putSized {α : Type} (put : α → List UInt8) (data : List α) : List UInt8 :=
  putNbtIntTag endianess (Int32.ofNat data.length) ++ data.flatMap put

def putNbtByteArrayTag (data : List Int8) : List UInt8 := putSized endianess putNbtByteTag data

def putLength (length : Nat) : List UInt8 :=
  match endianess with
  | .big => putUnsignedShortBe (UInt16.ofNat length)
  | .little => putUnsignedShortLe (UInt16.ofNat length)
  | .network => putVarInt (UInt32.ofNat length)

/-- `strlen(value)` and the bytes before the terminator. -/
def putNbtStringTag (text : List UInt8) : List UInt8 :=
  putLength endianess (cString text).length ++ putBytes (cString text)

def putNbtIntArrayTag (data : List Int32) : List UInt8 :=
  putSized endianess (putNbtIntTag endianess) data

def putNbtLongArrayTag (data : List Int64) : List UInt8 :=
  putSized endianess (putNbtLongTag endianess) data

end Putters

mutual

def putNbtMultiTag (endianess : Endianess) : NbtMulti → List UInt8
  | .unwritten _ => []
  | .byte value => putNbtByteTag value
  | .short value => putNbtShortTag endianess value
  | .int value => putNbtIntTag endianess value
  | .long value => putNbtLongTag endianess value
  | .float bits => putNbtFloatTag endianess bits
  | .double bits => putNbtDoubleTag endianess bits
  | .byteArray data => putNbtByteArrayTag endianess data
  | .string text => putNbtStringTag endianess text
  | .list tagId data =>
      putNbtByteTag tagId ++ putNbtIntTag endianess (Int32.ofNat data.length) ++
        putElements endianess data
  | .compound entries => putEntries endianess entries ++ putNbtByteTag endTag
  | .intArray data => putNbtIntArrayTag endianess data
  | .longArray data => putNbtLongArrayTag endianess data

/-- The loop of `put_nbt_list_tag`. -/
def putElements (endianess : Endianess) : List NbtMulti → List UInt8
  | [] => []
  | value :: rest => putNbtMultiTag endianess value ++ putElements endianess rest

/-- The loop of `put_nbt_compound_tag`. -/
def putEntries (endianess : Endianess) : List (List UInt8 × NbtMulti) → List UInt8
  | [] => []
  | (name, data) :: rest =>
      if data.tagId = endTag then []
      else
        putNbtByteTag data.tagId ++ putNbtStringTag endianess name ++
          putNbtMultiTag endianess data ++ putEntries endianess rest

end

def putNbtNamedTag (endianess : Endianess) (value : NbtNamed) : List UInt8 :=
  putNbtByteTag value.data.tagId ++
  if value.data.tagId ≠ endTag then
    putNbtStringTag endianess value.name ++ putNbtMultiTag endianess value.data
  else []

end PodrumNbt.Tag
