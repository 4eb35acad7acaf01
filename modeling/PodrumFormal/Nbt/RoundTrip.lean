import Mathlib.Data.List.TakeWhile
import PodrumFormal.Nbt.Tag

/-!
# The round trip of tag trees

What a tree must satisfy for its lengths and ids to fit their fields, and when
the getter gives it back.  The one string the network order can write and not
read is `2 ^ 32 - 1` bytes long: the getter allocates `length + 1` bytes.
-/

set_option autoImplicit false

namespace PodrumNbt.RoundTrip

open ByteReader PodrumMisc.CString PodrumStream.BinaryStream PodrumStream.VarInt PodrumNbt.Tag

/-! ## Well-formed trees -/

def FitsLength : Endianess → Nat → Prop
  | .network, length => length < 2 ^ 32
  | _, length => length < 2 ^ 16

structure TextFits (endianess : Endianess) (text : List UInt8) : Prop where
  nonzero : 0 ∉ text
  fits : FitsLength endianess text.length

mutual

def WellFormed (endianess : Endianess) : NbtMulti → Prop
  | .unwritten _ => False
  | .byteArray data => data.length < 2 ^ 31
  | .string text => TextFits endianess text
  | .list tagId data =>
      1 ≤ tagId ∧ tagId ≤ 12 ∧ data.length < 2 ^ 31 ∧ WellFormedElements endianess tagId data
  | .compound entries => entries.length < 2 ^ 31 ∧ WellFormedEntries endianess entries
  | .intArray data => data.length < 2 ^ 31
  | .longArray data => data.length < 2 ^ 31
  | _ => True

def WellFormedElements (endianess : Endianess) (tagId : Int8) : List NbtMulti → Prop
  | [] => True
  | value :: rest =>
      value.tagId = tagId ∧ WellFormed endianess value ∧ WellFormedElements endianess tagId rest

def WellFormedEntries (endianess : Endianess) : List (List UInt8 × NbtMulti) → Prop
  | [] => True
  | (name, data) :: rest =>
      TextFits endianess name ∧ WellFormed endianess data ∧ WellFormedEntries endianess rest

end

mutual

/-- The names and strings of a tree. -/
def texts : NbtMulti → List (List UInt8)
  | .string text => [text]
  | .list _ data => elementTexts data
  | .compound entries => entryTexts entries
  | _ => []

def elementTexts : List NbtMulti → List (List UInt8)
  | [] => []
  | value :: rest => texts value ++ elementTexts rest

def entryTexts : List (List UInt8 × NbtMulti) → List (List UInt8)
  | [] => []
  | (name, data) :: rest => name :: texts data ++ entryTexts rest

end

/-- The allocation for the text and its terminator does not wrap. -/
def Allocatable (endianess : Endianess) (text : List UInt8) : Prop :=
  endianess = .network → text.length ≠ 2 ^ 32 - 1

def AllAllocatable (endianess : Endianess) (all : List (List UInt8)) : Prop :=
  ∀ text ∈ all, Allocatable endianess text

theorem allAllocatable_append {endianess : Endianess} {left right : List (List UInt8)} :
    AllAllocatable endianess (left ++ right) ↔
      AllAllocatable endianess left ∧ AllAllocatable endianess right :=
  List.forall_mem_append

theorem tagId_ne_end {endianess : Endianess} {value : NbtMulti}
    (wellFormed : WellFormed endianess value) : value.tagId ≠ endTag := by
  cases value with
  | unwritten tagId => exact wellFormed.elim
  | _ => simp only [NbtMulti.tagId]; decide

/-! ## Scalars, arrays and strings -/

section Fields

variable (endianess : Endianess)

theorem reads_nbtShortTag (value : Int16) :
    Reads (getNbtShortTag endianess) (putNbtShortTag endianess value) value := by
  cases endianess with
  | big => exact reads_shortBe value
  | little => exact reads_shortLe value
  | network => exact reads_shortLe value

theorem reads_nbtIntTag (value : Int32) :
    Reads (getNbtIntTag endianess) (putNbtIntTag endianess value) value := by
  cases endianess with
  | big => exact reads_intBe value
  | little => exact reads_intLe value
  | network => exact reads_signedVarInt value

theorem reads_nbtLongTag (value : Int64) :
    Reads (getNbtLongTag endianess) (putNbtLongTag endianess value) value := by
  cases endianess with
  | big => exact reads_longBe value
  | little => exact reads_longLe value
  | network => exact reads_signedVarLong value

theorem reads_nbtFloatTag (bits : UInt32) :
    Reads (getNbtFloatTag endianess) (putNbtFloatTag endianess bits) bits := by
  cases endianess with
  | big => exact reads_unsignedIntBe bits
  | little => exact reads_unsignedIntLe bits
  | network => exact reads_unsignedIntLe bits

theorem reads_nbtDoubleTag (bits : UInt64) :
    Reads (getNbtDoubleTag endianess) (putNbtDoubleTag endianess bits) bits := by
  cases endianess with
  | big => exact reads_unsignedLongBe bits
  | little => exact reads_unsignedLongLe bits
  | network => exact reads_unsignedLongLe bits

theorem size_exact {size : Nat} (fits : size < 2 ^ 31) :
    (Int32.ofNat size).toInt.toNat = size := by
  rw [Int32.toInt_ofNat_of_lt fits, Int.toNat_natCast]

/-- Reading a size and then as many elements. -/
theorem reads_sized_of {α : Type} {reader : Reader α} {data : List α} {bytes : List UInt8}
    (fits : data.length < 2 ^ 31) (each : Reads (readCount reader data.length) bytes data) :
    Reads (readSized endianess reader)
      (putNbtIntTag endianess (Int32.ofNat data.length) ++ bytes) data := by
  apply (reads_nbtIntTag endianess _).bind
  rw [size_exact fits]
  exact each

theorem reads_sized {α : Type} {reader : Reader α} {put : α → List UInt8}
    (each : ∀ value, Reads reader (put value) value) {data : List α}
    (fits : data.length < 2 ^ 31) :
    Reads (readSized endianess reader) (putSized endianess put data) data := by
  apply reads_sized_of endianess fits
  have loop : Reads (readCount reader data.length) (data.flatMap put) (data.map id) :=
    Reads.count data fun value _ => each value
  rwa [List.map_id] at loop

theorem reads_length {length : Nat} (fits : FitsLength endianess length) :
    Reads (getLength endianess) (putLength endianess length) (UInt32.ofNat length) := by
  have converted : ∀ {length : Nat}, length < 2 ^ 16 →
      (UInt16.ofNat length).toUInt32 = UInt32.ofNat length := by
    intro length small
    rw [← UInt32.toNat_inj, UInt16.toNat_toUInt32, UInt16.toNat_ofNat', UInt32.toNat_ofNat']
    omega
  cases endianess with
  | big => exact (reads_unsignedShortBe _).map (converted fits)
  | little => exact (reads_unsignedShortLe _).map (converted fits)
  | network => exact reads_varInt _

theorem length_small {length : Nat} (fits : FitsLength endianess length) : length < 2 ^ 32 := by
  cases endianess with
  | network => exact fits
  | big => exact Nat.lt_trans fits (by decide)
  | little => exact Nat.lt_trans fits (by decide)

theorem reads_nbtStringTag {text : List UInt8} (fits : TextFits endianess text)
    (allocatable : Allocatable endianess text) :
    Reads (getNbtStringTag endianess) (putNbtStringTag endianess text) text := by
  have small := length_small endianess fits.fits
  have exact : (UInt32.ofNat text.length).toNat = text.length :=
    UInt32.toNat_ofNat_of_lt' small
  have room : text.length + 1 < 2 ^ 32 := by
    cases endianess with
    | network =>
        have other := allocatable rfl
        omega
    | big =>
        have short : text.length < 2 ^ 16 := fits.fits
        omega
    | little =>
        have short : text.length < 2 ^ 16 := fits.fits
        omega
  have more : (UInt32.ofNat text.length).toNat < (UInt32.ofNat text.length + 1).toNat := by
    rw [UInt32.toNat_add, exact, UInt32.toNat_one, Nat.mod_eq_of_lt room]
    exact Nat.lt_succ_self _
  rw [putNbtStringTag, cString_of_nonzero fits.nonzero]
  apply (reads_length endianess fits.fits).bind
  rw [if_pos more, exact]
  exact reads_bytes text

theorem nbtStringTag_fails {text : List UInt8} (fits : TextFits endianess text)
    (not_allocatable : ¬Allocatable endianess text) :
    Fails (getNbtStringTag endianess) (putNbtStringTag endianess text) := by
  obtain ⟨rfl, long⟩ : endianess = .network ∧ text.length = 2 ^ 32 - 1 := by
    simpa [Allocatable] using not_allocatable
  rw [putNbtStringTag, cString_of_nonzero fits.nonzero]
  apply Fails.bind_after (reads_length .network fits.fits)
  rw [long]
  exact fun _ => rfl

end Fields

/-! ## Trees -/

theorem putNbtByteTag_length (value : Int8) : (putNbtByteTag value).length = 1 := rfl

/-- A turn of the compound's loop, at an entry. -/
theorem getEntries_entry {endianess : Endianess} {multi : Int8 → Reader NbtMulti} (turns : Nat)
    {tagId : Int8} (other : tagId ≠ endTag) (bytes : List UInt8) :
    getEntries endianess multi (turns + 1) (putNbtByteTag tagId ++ bytes) =
      getEntry endianess multi tagId (getEntries endianess multi turns) bytes := by
  have read : getNbtByteTag (putNbtByteTag tagId ++ bytes) = some (tagId, bytes) :=
    reads_byte tagId bytes
  have turn : getEntries endianess multi (turns + 1) (putNbtByteTag tagId ++ bytes) =
      getTurn endianess multi (getEntries endianess multi turns)
        (putNbtByteTag tagId ++ bytes) := rfl
  rw [turn, getTurn, bind_apply, read, Option.bind_some, if_neg other]

theorem reads_entry {endianess : Endianess} {multi : Int8 → Reader NbtMulti} {tagId : Int8}
    {others : Reader (List (List UInt8 × NbtMulti))} {name : List UInt8} {data : NbtMulti}
    {entries : List (List UInt8 × NbtMulti)} {nameBytes dataBytes entryBytes : List UInt8}
    (first : Reads (getNbtStringTag endianess) nameBytes name)
    (second : Reads (multi tagId) dataBytes data) (third : Reads others entryBytes entries) :
    Reads (getEntry endianess multi tagId others) (nameBytes ++ (dataBytes ++ entryBytes))
      ((name, data) :: entries) :=
  first.bind (second.bind (third.bind_pure (Reads.pure _)))

mutual

theorem reads_nbtMultiTag {endianess : Endianess} : ∀ {value : NbtMulti} (fuel : Nat),
    WellFormed endianess value → AllAllocatable endianess (texts value) →
    (putNbtMultiTag endianess value).length < fuel →
    Reads (getNbtMultiTag endianess fuel value.tagId) (putNbtMultiTag endianess value) value
  | _, 0, _, _, enough => absurd enough (Nat.not_lt_zero _)
  | .unwritten _, _ + 1, wellFormed, _, _ => wellFormed.elim
  | .byte value, _ + 1, _, _, _ => (reads_byte value).functor NbtMulti.byte
  | .short value, _ + 1, _, _, _ => (reads_nbtShortTag endianess value).functor NbtMulti.short
  | .int value, _ + 1, _, _, _ => (reads_nbtIntTag endianess value).functor NbtMulti.int
  | .long value, _ + 1, _, _, _ => (reads_nbtLongTag endianess value).functor NbtMulti.long
  | .float bits, _ + 1, _, _, _ => (reads_nbtFloatTag endianess bits).functor NbtMulti.float
  | .double bits, _ + 1, _, _, _ => (reads_nbtDoubleTag endianess bits).functor NbtMulti.double
  | .byteArray _, _ + 1, fits, _, _ =>
      (reads_sized endianess reads_byte fits).functor NbtMulti.byteArray
  | .string _, _ + 1, fits, allocatable, _ =>
      (reads_nbtStringTag endianess fits (allocatable _ (List.mem_singleton.mpr rfl))).functor
        NbtMulti.string
  | .list tagId data, fuel + 1, wellFormed, allocatable, enough => by
      obtain ⟨-, -, fits, elements⟩ := wellFormed
      simp only [putNbtMultiTag, List.length_append, putNbtByteTag_length] at enough
      have loop := reads_elements fuel elements allocatable (by omega)
      rw [putNbtMultiTag, List.append_assoc]
      apply (reads_byte tagId).bind
      exact (reads_sized_of endianess fits loop).map rfl
  | .compound entries, fuel + 1, wellFormed, allocatable, enough => by
      simp only [putNbtMultiTag, List.length_append, putNbtByteTag_length] at enough
      intro rest
      have loop := reads_entries fuel
        ((putNbtMultiTag endianess (.compound entries) ++ rest).length)
        wellFormed.2 allocatable (by omega)
        (by simp only [putNbtMultiTag, List.length_append, putNbtByteTag_length]; omega)
      exact loop.functor NbtMulti.compound rest
  | .intArray _, _ + 1, fits, _, _ =>
      (reads_sized endianess (reads_nbtIntTag endianess) fits).functor NbtMulti.intArray
  | .longArray _, _ + 1, fits, _, _ =>
      (reads_sized endianess (reads_nbtLongTag endianess) fits).functor NbtMulti.longArray

theorem reads_elements {endianess : Endianess} {tagId : Int8} (fuel : Nat) :
    ∀ {data : List NbtMulti}, WellFormedElements endianess tagId data →
      AllAllocatable endianess (elementTexts data) → (putElements endianess data).length < fuel →
      Reads (readCount (getNbtMultiTag endianess fuel tagId) data.length)
        (putElements endianess data) data
  | [], _, _, _ => Reads.pure []
  | value :: data, wellFormed, allocatable, enough => by
      obtain ⟨rfl, valueFits, dataFits⟩ := wellFormed
      obtain ⟨valueRoom, dataRoom⟩ := allAllocatable_append.mp allocatable
      simp only [putElements, List.length_append] at enough
      have head := reads_nbtMultiTag fuel valueFits valueRoom (by omega)
      have tail := reads_elements fuel dataFits dataRoom (by omega)
      exact head.bind (tail.bind_pure (Reads.pure _))

theorem reads_entries {endianess : Endianess} (fuel : Nat) :
    ∀ {entries : List (List UInt8 × NbtMulti)} (turns : Nat),
      WellFormedEntries endianess entries → AllAllocatable endianess (entryTexts entries) →
      (putEntries endianess entries).length < fuel →
      (putEntries endianess entries).length < turns →
      Reads (getEntries endianess (getNbtMultiTag endianess fuel) turns)
        (putEntries endianess entries ++ putNbtByteTag endTag) entries
  | _, 0, _, _, _, room => absurd room (Nat.not_lt_zero _)
  | [], _ + 1, _, _, _, _ => fun _ => rfl
  | (name, data) :: entries, turns + 1, wellFormed, allocatable, enough, room => by
      obtain ⟨nameFits, dataFits, entriesFit⟩ := wellFormed
      obtain ⟨nameRoom, allocatable⟩ := List.forall_mem_cons.mp allocatable
      obtain ⟨dataRoom, entriesRoom⟩ := allAllocatable_append.mp allocatable
      have other := tagId_ne_end dataFits
      simp only [putEntries, if_neg other, List.length_append, putNbtByteTag_length] at enough room
      have first := reads_nbtStringTag endianess nameFits nameRoom
      have second := reads_nbtMultiTag fuel dataFits dataRoom (by omega)
      have third := reads_entries fuel turns entriesFit entriesRoom
        (by omega) (by omega)
      intro rest
      simp only [putEntries, if_neg other, List.append_assoc]
      rw [getEntries_entry turns other]
      simpa only [List.append_assoc] using reads_entry first second third rest

end

/-! ## The string that wraps the allocation -/

theorem getEntry_fails_name {endianess : Endianess} {multi : Int8 → Reader NbtMulti} {tagId : Int8}
    {others : Reader (List (List UInt8 × NbtMulti))} {nameBytes : List UInt8}
    (failure : Fails (getNbtStringTag endianess) nameBytes) :
    Fails (getEntry endianess multi tagId others) nameBytes :=
  failure.bind

theorem getEntry_fails_data {endianess : Endianess} {multi : Int8 → Reader NbtMulti} {tagId : Int8}
    {others : Reader (List (List UInt8 × NbtMulti))} {name nameBytes dataBytes : List UInt8}
    (first : Reads (getNbtStringTag endianess) nameBytes name)
    (failure : Fails (multi tagId) dataBytes) :
    Fails (getEntry endianess multi tagId others) (nameBytes ++ dataBytes) :=
  .bind_after first failure.bind

theorem getEntry_fails_others {endianess : Endianess} {multi : Int8 → Reader NbtMulti}
    {tagId : Int8} {others : Reader (List (List UInt8 × NbtMulti))}
    {name nameBytes dataBytes entryBytes : List UInt8} {data : NbtMulti}
    (first : Reads (getNbtStringTag endianess) nameBytes name)
    (second : Reads (multi tagId) dataBytes data) (failure : Fails others entryBytes) :
    Fails (getEntry endianess multi tagId others) (nameBytes ++ (dataBytes ++ entryBytes)) :=
  .bind_after first (.bind_after second failure.bind)

mutual

theorem nbtMultiTag_fails {endianess : Endianess} : ∀ {value : NbtMulti} (fuel : Nat),
    WellFormed endianess value → ¬AllAllocatable endianess (texts value) →
    (putNbtMultiTag endianess value).length < fuel →
    Fails (getNbtMultiTag endianess fuel value.tagId) (putNbtMultiTag endianess value)
  | _, 0, _, _, enough => absurd enough (Nat.not_lt_zero _)
  | .string text, _ + 1, fits, blocked, _ => by
      have long : ¬Allocatable endianess text := fun holds =>
        blocked (List.forall_mem_singleton.mpr holds)
      exact (nbtStringTag_fails endianess fits long).functor NbtMulti.string
  | .list tagId data, fuel + 1, wellFormed, blocked, enough => by
      obtain ⟨-, -, fits, elements⟩ := wellFormed
      simp only [putNbtMultiTag, List.length_append, putNbtByteTag_length] at enough
      have loop := elements_fail fuel elements blocked (by omega)
      rw [putNbtMultiTag, List.append_assoc]
      refine Fails.bind_after (reads_byte tagId) ?_
      have sized : Fails (readSized endianess (getNbtMultiTag endianess fuel tagId))
          (putNbtIntTag endianess (Int32.ofNat data.length) ++ putElements endianess data) := by
        refine Fails.bind_after (reads_nbtIntTag endianess _) ?_
        rwa [size_exact fits]
      exact sized.bind
  | .compound entries, fuel + 1, wellFormed, blocked, enough => by
      simp only [putNbtMultiTag, List.length_append, putNbtByteTag_length] at enough
      intro rest
      have loop := entries_fail fuel
        ((putNbtMultiTag endianess (.compound entries) ++ rest).length)
        wellFormed.2 blocked (by omega)
        (by simp only [putNbtMultiTag, List.length_append, putNbtByteTag_length]; omega)
      exact loop.functor NbtMulti.compound rest
  | .unwritten _, _ + 1, wellFormed, _, _ => wellFormed.elim
  | .byte _, _ + 1, _, blocked, _ => absurd (List.forall_mem_nil _) blocked
  | .short _, _ + 1, _, blocked, _ => absurd (List.forall_mem_nil _) blocked
  | .int _, _ + 1, _, blocked, _ => absurd (List.forall_mem_nil _) blocked
  | .long _, _ + 1, _, blocked, _ => absurd (List.forall_mem_nil _) blocked
  | .float _, _ + 1, _, blocked, _ => absurd (List.forall_mem_nil _) blocked
  | .double _, _ + 1, _, blocked, _ => absurd (List.forall_mem_nil _) blocked
  | .byteArray _, _ + 1, _, blocked, _ => absurd (List.forall_mem_nil _) blocked
  | .intArray _, _ + 1, _, blocked, _ => absurd (List.forall_mem_nil _) blocked
  | .longArray _, _ + 1, _, blocked, _ => absurd (List.forall_mem_nil _) blocked

theorem elements_fail {endianess : Endianess} {tagId : Int8} (fuel : Nat) :
    ∀ {data : List NbtMulti}, WellFormedElements endianess tagId data →
      ¬AllAllocatable endianess (elementTexts data) →
      (putElements endianess data).length < fuel →
      Fails (readCount (getNbtMultiTag endianess fuel tagId) data.length)
        (putElements endianess data)
  | [], _, blocked, _ => absurd (List.forall_mem_nil _) blocked
  | value :: data, wellFormed, blocked, enough => by
      obtain ⟨rfl, valueFits, dataFits⟩ := wellFormed
      simp only [putElements, List.length_append] at enough
      by_cases valueRoom : AllAllocatable endianess (texts value)
      · have dataBlocked : ¬AllAllocatable endianess (elementTexts data) := fun holds =>
          blocked (allAllocatable_append.mpr ⟨valueRoom, holds⟩)
        have tail := elements_fail fuel dataFits dataBlocked (by omega)
        exact .bind_after (reads_nbtMultiTag fuel valueFits valueRoom (by omega)) tail.bind
      · exact ((nbtMultiTag_fails fuel valueFits valueRoom (by omega)).append _).bind

theorem entries_fail {endianess : Endianess} (fuel : Nat) :
    ∀ {entries : List (List UInt8 × NbtMulti)} (turns : Nat),
      WellFormedEntries endianess entries → ¬AllAllocatable endianess (entryTexts entries) →
      (putEntries endianess entries).length < fuel →
      (putEntries endianess entries).length < turns →
      Fails (getEntries endianess (getNbtMultiTag endianess fuel) turns)
        (putEntries endianess entries ++ putNbtByteTag endTag)
  | _, 0, _, _, _, room => absurd room (Nat.not_lt_zero _)
  | [], _ + 1, _, blocked, _, _ => absurd (List.forall_mem_nil _) blocked
  | (name, data) :: entries, turns + 1, wellFormed, blocked, enough, room => by
      obtain ⟨nameFits, dataFits, entriesFit⟩ := wellFormed
      have other := tagId_ne_end dataFits
      simp only [putEntries, if_neg other, List.length_append, putNbtByteTag_length] at enough room
      intro rest
      simp only [putEntries, if_neg other, List.append_assoc]
      rw [getEntries_entry turns other]
      -- The first name, data or later entry that cannot be allocated ends the read.
      by_cases nameRoom : Allocatable endianess name
      · have first := reads_nbtStringTag endianess nameFits nameRoom
        by_cases dataRoom : AllAllocatable endianess (texts data)
        · have second := reads_nbtMultiTag fuel dataFits dataRoom (by omega)
          have entriesBlocked : ¬AllAllocatable endianess (entryTexts entries) := fun holds =>
            blocked (List.forall_mem_cons.mpr
              ⟨nameRoom, allAllocatable_append.mpr ⟨dataRoom, holds⟩⟩)
          have third := entries_fail fuel turns entriesFit entriesBlocked
            (by omega) (by omega)
          simpa only [List.append_assoc] using getEntry_fails_others first second third rest
        · have failure := nbtMultiTag_fails fuel dataFits dataRoom (by omega)
          simpa only [List.append_assoc] using
            (getEntry_fails_data first failure).append (putEntries endianess entries ++ _) rest
      · exact getEntry_fails_name (nbtStringTag_fails endianess nameFits nameRoom) _

end

/-! ## Named tags -/

structure WellFormedNamed (endianess : Endianess) (tag : NbtNamed) : Prop where
  name : TextFits endianess tag.name
  data : WellFormed endianess tag.data

def namedTexts (tag : NbtNamed) : List (List UInt8) := tag.name :: texts tag.data

section Named

variable {endianess : Endianess} {tag : NbtNamed}

theorem getNamedWithin_tag (other : tag.data.tagId ≠ endTag) (fuel : Nat) (bytes : List UInt8) :
    getNamedWithin endianess fuel (putNbtByteTag tag.data.tagId ++ bytes) =
      (do
        let name ← getNbtStringTag endianess
        let data ← getNbtMultiTag endianess fuel tag.data.tagId
        pure { name, data } : Reader NbtNamed) bytes := by
  have read : getNbtByteTag (putNbtByteTag tag.data.tagId ++ bytes) =
      some (tag.data.tagId, bytes) := reads_byte tag.data.tagId bytes
  rw [getNamedWithin, bind_apply, read, Option.bind_some, if_pos other]

theorem putNbtNamedTag_eq (wellFormed : WellFormedNamed endianess tag) :
    putNbtNamedTag endianess tag = putNbtByteTag tag.data.tagId ++
      (putNbtStringTag endianess tag.name ++ putNbtMultiTag endianess tag.data) := by
  rw [putNbtNamedTag, if_pos (tagId_ne_end wellFormed.data)]

theorem reads_nbtNamedTag (wellFormed : WellFormedNamed endianess tag)
    (allocatable : AllAllocatable endianess (namedTexts tag)) :
    Reads (getNbtNamedTag endianess) (putNbtNamedTag endianess tag) tag := by
  obtain ⟨nameRoom, dataRoom⟩ := List.forall_mem_cons.mp allocatable
  have other := tagId_ne_end wellFormed.data
  intro rest
  rw [putNbtNamedTag_eq wellFormed, getNbtNamedTag, List.append_assoc,
    getNamedWithin_tag other]
  have second := reads_nbtMultiTag
    ((putNbtByteTag tag.data.tagId ++ ((putNbtStringTag endianess tag.name ++
      putNbtMultiTag endianess tag.data) ++ rest)).length)
    wellFormed.data dataRoom (by simp only [List.length_append, putNbtByteTag_length]; omega)
  exact (reads_nbtStringTag endianess wellFormed.name nameRoom).bind
    (second.map rfl) rest

theorem nbtNamedTag_fails (wellFormed : WellFormedNamed endianess tag)
    (blocked : ¬AllAllocatable endianess (namedTexts tag)) :
    Fails (getNbtNamedTag endianess) (putNbtNamedTag endianess tag) := by
  have other := tagId_ne_end wellFormed.data
  intro rest
  rw [putNbtNamedTag_eq wellFormed, getNbtNamedTag, List.append_assoc,
    getNamedWithin_tag other]
  by_cases nameRoom : Allocatable endianess tag.name
  · have dataBlocked : ¬AllAllocatable endianess (texts tag.data) := fun holds =>
      blocked (List.forall_mem_cons.mpr ⟨nameRoom, holds⟩)
    have second := nbtMultiTag_fails
      ((putNbtByteTag tag.data.tagId ++ ((putNbtStringTag endianess tag.name ++
        putNbtMultiTag endianess tag.data) ++ rest)).length)
      wellFormed.data dataBlocked (by simp only [List.length_append, putNbtByteTag_length]; omega)
    exact Fails.bind_after (reads_nbtStringTag endianess wellFormed.name nameRoom) second.bind rest
  · exact ((nbtStringTag_fails endianess wellFormed.name nameRoom).append _).bind rest

end Named

/-- A tree comes back, whatever follows it, unless it holds the one string
that the getter has no room for. -/
theorem nbtNamedTag_roundTrip_iff (endianess : Endianess) (tag : NbtNamed)
    (wellFormed : WellFormedNamed endianess tag) :
    (∀ rest, getNbtNamedTag endianess (putNbtNamedTag endianess tag ++ rest) = some (tag, rest)) ↔
      AllAllocatable endianess (namedTexts tag) := by
  constructor
  · intro returned
    by_contra blocked
    have failure := nbtNamedTag_fails wellFormed blocked []
    rw [returned []] at failure
    cases failure
  · exact reads_nbtNamedTag wellFormed

/-- A compound with a list of compounds and a string. -/
def nestedTag : NbtNamed :=
  ⟨[0x61], .compound [([0x62], .list 10 [.compound [([], .long (-1))], .compound []]),
    ([0x63], .string [0x64, 0x65])]⟩

theorem nbtNamedTag_roundTrip_iff_nested :
    (∀ rest, getNbtNamedTag .network (putNbtNamedTag .network nestedTag ++ rest) =
        some (nestedTag, rest)) ↔
      AllAllocatable .network (namedTexts nestedTag) :=
  nbtNamedTag_roundTrip_iff .network nestedTag
    ⟨⟨by decide, show 1 < 2 ^ 32 by decide⟩,
      show 2 < 2 ^ 31 by decide,
      ⟨by decide, show 1 < 2 ^ 32 by decide⟩,
      ⟨by decide, by decide, show 2 < 2 ^ 31 by decide,
        ⟨rfl, ⟨show 1 < 2 ^ 31 by decide, ⟨by decide, show 0 < 2 ^ 32 by decide⟩, trivial, trivial⟩,
          rfl, ⟨show 0 < 2 ^ 31 by decide, trivial⟩, trivial⟩⟩,
      ⟨by decide, show 1 < 2 ^ 32 by decide⟩, ⟨by decide, show 2 < 2 ^ 32 by decide⟩, trivial⟩

/-- The longest string that the length field of the network order holds. -/
def longestString : NbtNamed := ⟨[], .string (List.replicate (2 ^ 32 - 1) 0x41)⟩

theorem longestString_lost :
    WellFormedNamed .network longestString ∧
      getNbtNamedTag .network (putNbtNamedTag .network longestString) = none := by
  have length : (List.replicate (2 ^ 32 - 1) (0x41 : UInt8)).length = 2 ^ 32 - 1 :=
    List.length_replicate
  have wellFormed : WellFormedNamed .network longestString := by
    refine ⟨⟨List.not_mem_nil, show 0 < 2 ^ 32 by decide⟩, ?_, ?_⟩
    · intro member
      exact absurd (List.eq_of_mem_replicate member) (by decide)
    · rw [FitsLength, length]
      decide
  refine ⟨wellFormed, ?_⟩
  have blocked : ¬AllAllocatable .network (namedTexts longestString) := fun holds =>
    holds _ (List.mem_cons_of_mem _ (List.mem_singleton.mpr rfl)) rfl length
  simpa using nbtNamedTag_fails wellFormed blocked []

end PodrumNbt.RoundTrip
