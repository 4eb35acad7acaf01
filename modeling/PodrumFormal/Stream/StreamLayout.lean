import PodrumFormal.Lib.ByteLayout
import PodrumFormal.Stream.VarInt

/-!
# What the getters accept

The blocks of bytes that each getter takes: those that its putter writes, and
for a variable-length integer also the longer ones and those without a last
group.
-/

set_option autoImplicit false

namespace PodrumStream.StreamLayout

open ByteReader Endian Base128 ByteLayout BinaryStream VarInt

theorem describes_unsignedByte :
    Describes (fun value block => block = putUnsignedByte value) getUnsignedByte :=
  Describes.readByte

theorem describes_bytes (count : Nat) :
    Describes (fun value block => block = value ∧ value.length = count) (getBytes count) :=
  Describes.readBytes count

theorem describes_unsignedShortLe :
    Describes (fun value block => block = putUnsignedShortLe value) getUnsignedShortLe :=
  ((Describes.readLittle 2).map
    (fun _ _ holds => UInt16.toNat_ofNat_of_lt' (by simpa using holds.2))
    fun _ => UInt16.ofNat_toNat).congr
    fun value _ => ⟨fun same => ⟨same, value.toNat_lt⟩, And.left⟩

theorem describes_unsignedShortBe :
    Describes (fun value block => block = putUnsignedShortBe value) getUnsignedShortBe :=
  ((Describes.readBig 2).map
    (fun _ _ holds => UInt16.toNat_ofNat_of_lt' (by simpa using holds.2))
    fun _ => UInt16.ofNat_toNat).congr
    fun value _ => ⟨fun same => ⟨same, value.toNat_lt⟩, And.left⟩

theorem describes_unsignedTriadLe :
    Describes (fun value block => block = putUnsignedTriadLe value ∧ value.toNat < 2 ^ 24)
      getUnsignedTriadLe :=
  (Describes.readLittle 3).map
    (fun _ _ holds => UInt32.toNat_ofNat_of_lt' (Nat.lt_of_lt_of_le holds.2 (by decide)))
    fun _ => UInt32.ofNat_toNat

theorem describes_unsignedIntLe :
    Describes (fun value block => block = putUnsignedIntLe value) getUnsignedIntLe :=
  ((Describes.readLittle 4).map
    (fun _ _ holds => UInt32.toNat_ofNat_of_lt' (by simpa using holds.2))
    fun _ => UInt32.ofNat_toNat).congr
    fun value _ => ⟨fun same => ⟨same, value.toNat_lt⟩, And.left⟩

theorem describes_unsignedIntBe :
    Describes (fun value block => block = putUnsignedIntBe value) getUnsignedIntBe :=
  ((Describes.readBig 4).map
    (fun _ _ holds => UInt32.toNat_ofNat_of_lt' (by simpa using holds.2))
    fun _ => UInt32.ofNat_toNat).congr
    fun value _ => ⟨fun same => ⟨same, value.toNat_lt⟩, And.left⟩

theorem describes_shortLe :
    Describes (fun value block => block = putShortLe value) getShortLe :=
  describes_unsignedShortLe.map (fun _ _ _ => UInt16.toUInt16_toInt16 _)
    fun _ => Int16.toInt16_toUInt16 _

theorem describes_intLe : Describes (fun value block => block = putIntLe value) getIntLe :=
  describes_unsignedIntLe.map (fun _ _ _ => UInt32.toUInt32_toInt32 _)
    fun _ => Int32.toInt32_toUInt32 _

theorem describes_intBe : Describes (fun value block => block = putIntBe value) getIntBe :=
  describes_unsignedIntBe.map (fun _ _ _ => UInt32.toUInt32_toInt32 _)
    fun _ => Int32.toInt32_toUInt32 _

/-! ## Variable-length integers -/

/-- At most five groups; without a last one among them the value is 0. -/
def VarIntLayout : Layout UInt32 := fun value block =>
  ∃ result, Groups 5 result block ∧ value = UInt32.ofNat (result.getD 0)

def VarLongLayout : Layout UInt64 := fun value block =>
  ∃ result, Groups 10 result block ∧ value = UInt64.ofNat (result.getD 0)

theorem describes_varInt : Describes VarIntLayout getVarInt := (describes_groups 5).image _

theorem describes_varLong : Describes VarLongLayout getVarLong := (describes_groups 10).image _

/-! ## Sizes -/

theorem sized_unsignedByte : Sized 1 getUnsignedByte := Sized.readByte

theorem sized_unsignedShortBe : Sized 2 getUnsignedShortBe :=
  (Sized.readBig 2).bind fun _ => Sized.pure _

theorem sized_intLe : Sized 4 getIntLe :=
  ((Sized.readLittle 4).bind fun _ => Sized.pure _).bind fun _ => Sized.pure _

theorem sized_floatLe : Sized 4 getFloatLe := (Sized.readLittle 4).bind fun _ => Sized.pure _

theorem sized_unsignedLongBe : Sized 8 getUnsignedLongBe :=
  (Sized.readBig 8).bind fun _ => Sized.pure _

end PodrumStream.StreamLayout
