import PodrumFormal.Misc.JsonParses

/-!
# The entries of an object

An object counts its keys.  Where it may close behind a key or a colon, the
last key has no member, and a loop up to the count reads one that was not
written.
-/

set_option autoImplicit false

namespace PodrumMisc.JsonObjects

open CString Json JsonGrammar JsonStrings JsonParses

/-! ## The release -/

mutual

/-- The switch over the type of an entry. -/
def destroyMember : JsonMulti → Except Fault Unit
  | .object keys members => destroyJsonObject keys members
  | .array members => destroyJsonArray members
  | .string _ => .ok ()
  | .number _ => .ok ()
  | .bool _ => .ok ()
  | .null => .ok ()

def destroyJsonArray : List JsonMulti → Except Fault Unit
  | [] => .ok ()
  | member :: members => do
      destroyMember member
      destroyJsonArray members

/-- The loop goes up to the number of keys. -/
def destroyJsonObject : List (List UInt8) → List JsonMulti → Except Fault Unit
  | [], _ => .ok ()
  | _ :: _, [] => .error .unwritten
  | _ :: keys, member :: members => do
      destroyMember member
      destroyJsonObject keys members

end

/-! ## Objects at any depth -/

inductive Within (value : JsonMulti) : JsonMulti → Prop
  | here : Within value value
  | object {keys : List (List UInt8)} {members : List JsonMulti} {member : JsonMulti}
      (inside : Within value member) (among : member ∈ members) :
      Within value (.object keys members)
  | array {members : List JsonMulti} {member : JsonMulti} (inside : Within value member)
      (among : member ∈ members) : Within value (.array members)

/-- Every object in the value has as many members as keys. -/
def Filled (value : JsonMulti) : Prop :=
  ∀ keys members, Within (.object keys members) value → members.length = keys.length

/-- What the lookups and the release need of a value. -/
structure EntriesWritten (value : JsonMulti) : Prop where
  filled : Filled value
  lookups : ∀ keys members, Within (.object keys members) value →
    ∀ key, ∃ root, memberAt key keys members = .ok root
  released : destroyMember value = .ok ()

theorem Filled.object {keys : List (List UInt8)} {members : List JsonMulti}
    (filled : Filled (.object keys members)) :
    members.length = keys.length ∧ ∀ member ∈ members, Filled member :=
  ⟨filled keys members .here, fun _ among keys members inside =>
    filled keys members (.object inside among)⟩

theorem Filled.array {members : List JsonMulti} (filled : Filled (.array members)) :
    ∀ member ∈ members, Filled member :=
  fun _ among keys members inside => filled keys members (.array inside among)

theorem filled_object {keys : List (List UInt8)} {members : List JsonMulti}
    (same : members.length = keys.length) (each : ∀ member ∈ members, Filled member) :
    Filled (.object keys members) := by
  intro otherKeys others inside
  cases inside with
  | here => exact same
  | object inside among => exact each _ among otherKeys others inside

theorem filled_array {members : List JsonMulti} (each : ∀ member ∈ members, Filled member) :
    Filled (.array members) := by
  intro keys others inside
  cases inside with
  | array inside among => exact each _ among keys others inside

theorem memberAt_written (key : List UInt8) {keys : List (List UInt8)} {members : List JsonMulti}
    (same : members.length = keys.length) : ∃ root, memberAt key keys members = .ok root := by
  induction keys generalizing members with
  | nil => exact ⟨none, rfl⟩
  | cons name keys ih =>
      cases members with
      | nil => cases same
      | cons member members =>
          rw [memberAt]
          split
          · exact ⟨some member, rfl⟩
          · exact ih (Nat.succ.inj same)

mutual

theorem destroyMember_filled : ∀ {value : JsonMulti}, Filled value → destroyMember value = .ok ()
  | .object _ _, filled => destroyJsonObject_filled filled.object.1 filled.object.2
  | .array _, filled => destroyJsonArray_filled filled.array
  | .string _, _ => rfl
  | .number _, _ => rfl
  | .bool _, _ => rfl
  | .null, _ => rfl

theorem destroyJsonArray_filled : ∀ {members : List JsonMulti},
    (∀ member ∈ members, Filled member) → destroyJsonArray members = .ok ()
  | [], _ => rfl
  | member :: members, filled => by
      obtain ⟨first, others⟩ := List.forall_mem_cons.mp filled
      rw [destroyJsonArray, destroyMember_filled first]
      exact destroyJsonArray_filled others

theorem destroyJsonObject_filled : ∀ {members : List JsonMulti} {keys : List (List UInt8)},
    members.length = keys.length → (∀ member ∈ members, Filled member) →
    destroyJsonObject keys members = .ok ()
  | _, [], _, _ => by rw [destroyJsonObject]
  | member :: members, _ :: keys, same, filled => by
      obtain ⟨first, others⟩ := List.forall_mem_cons.mp filled
      rw [destroyJsonObject, destroyMember_filled first]
      exact destroyJsonObject_filled (Nat.succ.inj same) others

end

theorem entriesWritten_iff {value : JsonMulti} : EntriesWritten value ↔ Filled value := by
  constructor
  · intro written
    exact written.filled
  · intro filled
    exact
      { filled
        lookups := fun keys members inside key => memberAt_written key (filled keys members inside)
        released := destroyMember_filled filled }

/-! ## Texts whose objects close in front of a key or behind a member -/

/-- The last key has no member yet. -/
def awaits : Expect → Bool
  | .key => false
  | .colon => true
  | .member => true
  | .seporator => false

mutual

inductive KeyedMember : List UInt8 → List UInt8 → Prop
  | scalar {text after : List UInt8} {member : JsonMulti} (holds : Scalar text member after) :
      KeyedMember text after
  | object {rest after : List UInt8} (loop : KeyedObject .key rest after) :
      KeyedMember ('\x7b'.toUInt8 :: rest) after
  | array {rest after : List UInt8} (loop : KeyedArray true rest after) :
      KeyedMember ('['.toUInt8 :: rest) after

inductive KeyedArray : Bool → List UInt8 → List UInt8 → Prop
  | close {expectMember : Bool} {after : List UInt8} :
      KeyedArray expectMember (']'.toUInt8 :: after) after
  | space {expectMember : Bool} {rest after : List UInt8} {char : UInt8}
      (space : isSpace char = true) (others : KeyedArray expectMember rest after) :
      KeyedArray expectMember (char :: rest) after
  | member {text middle after : List UInt8} (head : KeyedMember text middle)
      (others : KeyedArray false middle after) : KeyedArray true text after
  | seporator {rest after : List UInt8} (others : KeyedArray true rest after) :
      KeyedArray false (','.toUInt8 :: rest) after

inductive KeyedObject : Expect → List UInt8 → List UInt8 → Prop
  | close {expect : Expect} {after : List UInt8} (complete : awaits expect = false) :
      KeyedObject expect ('\x7d'.toUInt8 :: after) after
  | space {expect : Expect} {rest after : List UInt8} {char : UInt8}
      (space : isSpace char = true) (others : KeyedObject expect rest after) :
      KeyedObject expect (char :: rest) after
  | key {text key middle after : List UInt8} (head : StringText text key middle)
      (others : KeyedObject .colon middle after) : KeyedObject .key text after
  | colon {rest after : List UInt8} (others : KeyedObject .member rest after) :
      KeyedObject .colon (':'.toUInt8 :: rest) after
  | member {text middle after : List UInt8} (head : KeyedMember text middle)
      (others : KeyedObject .seporator middle after) : KeyedObject .member text after
  | seporator {rest after : List UInt8} (others : KeyedObject .key rest after) :
      KeyedObject .seporator (','.toUInt8 :: rest) after

end

inductive KeyedRoot : List UInt8 → List UInt8 → Prop
  | space {char : UInt8} {rest after : List UInt8} (space : isSpace char = true)
      (others : KeyedRoot rest after) : KeyedRoot (char :: rest) after
  | object {rest after : List UInt8} (loop : KeyedObject .key rest after) :
      KeyedRoot ('\x7b'.toUInt8 :: rest) after
  | array {rest after : List UInt8} (loop : KeyedArray true rest after) :
      KeyedRoot ('['.toUInt8 :: rest) after

/-! ## Filled values come from such texts -/

/-- What a loop has read is part of what it gives. -/
theorem filled_of_array {expectMember : Bool} {members : List JsonMulti} {text after : List UInt8}
    {array : JsonMulti} : ArrayRest expectMember members text array after → Filled array →
      ∀ member ∈ members, Filled member
  | .close, filled => filled.array
  | .space _ others, filled => filled_of_array others filled
  | .member _ others, filled => fun member among =>
      filled_of_array others filled member (List.mem_append_left _ among)
  | .seporator others, filled => filled_of_array others filled

theorem filled_of_object {expect : Expect} {keys : List (List UInt8)} {members : List JsonMulti}
    {text after : List UInt8} {object : JsonMulti} :
    ObjectRest expect keys members text object after → Filled object →
      ∀ member ∈ members, Filled member
  | .close, filled => filled.object.2
  | .space _ others, filled => filled_of_object others filled
  | .key _ others, filled => filled_of_object others filled
  | .colon others, filled => filled_of_object others filled
  | .member _ others, filled => fun member among =>
      filled_of_object others filled member (List.mem_append_left _ among)
  | .seporator others, filled => filled_of_object others filled

/-- The keys and members of a loop in front of what it expects. -/
def Counted (expect : Expect) (keys : List (List UInt8)) (members : List JsonMulti) : Prop :=
  keys.length = members.length + (awaits expect).toNat

theorem counted_nil : Counted .key [] [] := rfl

theorem counted_key {keys : List (List UInt8)} {members : List JsonMulti}
    (counted : Counted .key keys members) (key : List UInt8) :
    Counted .colon (keys ++ [key]) members := by
  rw [Counted, List.length_append, counted]
  rfl

theorem counted_member {keys : List (List UInt8)} {members : List JsonMulti}
    (counted : Counted .member keys members) (member : JsonMulti) :
    Counted .seporator keys (members ++ [member]) := by
  rw [Counted, List.length_append, counted]
  rfl

mutual

theorem keyed_of_member {text after : List UInt8} {member : JsonMulti} :
    Member text member after → Filled member → KeyedMember text after
  | .scalar holds, _ => .scalar holds
  | .object loop, filled => .object (keyed_of_object loop counted_nil filled)
  | .array loop, filled => .array (keyed_of_array loop filled)

theorem keyed_of_array {expectMember : Bool} {members : List JsonMulti}
    {text after : List UInt8} {array : JsonMulti} :
    ArrayRest expectMember members text array after → Filled array →
      KeyedArray expectMember text after
  | .close, _ => .close
  | .space space others, filled => .space space (keyed_of_array others filled)
  | .member head others, filled =>
      have first := filled_of_array others filled _ List.mem_concat_self
      .member (keyed_of_member head first) (keyed_of_array others filled)
  | .seporator others, filled => .seporator (keyed_of_array others filled)

theorem keyed_of_object {expect : Expect} {keys : List (List UInt8)} {members : List JsonMulti}
    {text after : List UInt8} {object : JsonMulti} :
    ObjectRest expect keys members text object after → Counted expect keys members →
      Filled object → KeyedObject expect text after
  | .close, counted, filled => by
      refine .close ?_
      have same := filled.object.1
      rw [Counted, same] at counted
      cases awaited : awaits expect with
      | false => rfl
      | true =>
          rw [awaited] at counted
          exact absurd counted (Nat.ne_of_lt (Nat.lt_succ_self _))
  | .space space others, counted, filled => .space space (keyed_of_object others counted filled)
  | .key head others, counted, filled =>
      .key head (keyed_of_object others (counted_key counted _) filled)
  | .colon others, counted, filled => .colon (keyed_of_object others counted filled)
  | .member head others, counted, filled =>
      have first := filled_of_object others filled _ List.mem_concat_self
      .member (keyed_of_member head first)
        (keyed_of_object others (counted_member counted _) filled)
  | .seporator others, counted, filled => .seporator (keyed_of_object others counted filled)

end

/-! ## Such texts give filled values -/

theorem filled_scalar {text after : List UInt8} {member : JsonMulti}
    (holds : Scalar text member after) : Filled member := by
  intro keys members inside
  cases holds <;> cases inside

theorem filled_snoc {members : List JsonMulti} {member : JsonMulti}
    (each : ∀ other ∈ members, Filled other) (last : Filled member) :
    ∀ other ∈ members ++ [member], Filled other := by
  intro other among
  rcases List.mem_append.mp among with before | here
  · exact each other before
  · exact List.mem_singleton.mp here ▸ last

mutual

theorem member_of_keyed {text after : List UInt8} :
    KeyedMember text after → ∃ member, Member text member after ∧ Filled member
  | .scalar holds => ⟨_, .scalar holds, filled_scalar holds⟩
  | .object loop =>
      have ⟨object, rest, filled⟩ := object_of_keyed loop counted_nil (List.forall_mem_nil _)
      ⟨object, .object rest, filled⟩
  | .array loop =>
      have ⟨array, rest, filled⟩ := array_of_keyed loop (List.forall_mem_nil _)
      ⟨array, .array rest, filled⟩

theorem array_of_keyed {expectMember : Bool} {text after : List UInt8}
    {members : List JsonMulti} :
    KeyedArray expectMember text after → (∀ member ∈ members, Filled member) →
      ∃ array, ArrayRest expectMember members text array after ∧ Filled array
  | .close, each => ⟨_, .close, filled_array each⟩
  | .space space others, each =>
      have ⟨array, rest, filled⟩ := array_of_keyed others each
      ⟨array, .space space rest, filled⟩
  | .member head others, each =>
      have ⟨_, first, single⟩ := member_of_keyed head
      have ⟨array, rest, filled⟩ := array_of_keyed others (filled_snoc each single)
      ⟨array, .member first rest, filled⟩
  | .seporator others, each =>
      have ⟨array, rest, filled⟩ := array_of_keyed others each
      ⟨array, .seporator rest, filled⟩

theorem object_of_keyed {expect : Expect} {text after : List UInt8} {keys : List (List UInt8)}
    {members : List JsonMulti} :
    KeyedObject expect text after → Counted expect keys members →
      (∀ member ∈ members, Filled member) →
      ∃ object, ObjectRest expect keys members text object after ∧ Filled object
  | .close complete, counted, each => by
      rw [Counted, complete] at counted
      exact ⟨_, .close, filled_object counted.symm each⟩
  | .space space others, counted, each =>
      have ⟨object, rest, filled⟩ := object_of_keyed others counted each
      ⟨object, .space space rest, filled⟩
  | @KeyedObject.key _ key _ _ head others, counted, each =>
      have ⟨object, rest, filled⟩ := object_of_keyed others (counted_key counted key) each
      ⟨object, .key head rest, filled⟩
  | .colon others, counted, each =>
      have ⟨object, rest, filled⟩ := object_of_keyed others counted each
      ⟨object, .colon rest, filled⟩
  | .member head others, counted, each =>
      have ⟨member, first, single⟩ := member_of_keyed head
      have ⟨object, rest, filled⟩ :=
        object_of_keyed others (counted_member counted member) (filled_snoc each single)
      ⟨object, .member first rest, filled⟩
  | .seporator others, counted, each =>
      have ⟨object, rest, filled⟩ := object_of_keyed others counted each
      ⟨object, .seporator rest, filled⟩

end

theorem root_of_keyed {text after : List UInt8} (keyed : KeyedRoot text after) :
    ∃ value, RootText text (some value) after ∧ Filled value := by
  induction keyed with
  | space space _ ih =>
      obtain ⟨value, others, filled⟩ := ih
      exact ⟨value, .space space others, filled⟩
  | object loop =>
      obtain ⟨object, rest, filled⟩ := object_of_keyed loop counted_nil (List.forall_mem_nil _)
      exact ⟨object, .object rest, filled⟩
  | array loop =>
      obtain ⟨array, rest, filled⟩ := array_of_keyed loop (List.forall_mem_nil _)
      exact ⟨array, .array rest, filled⟩

theorem keyed_of_root {text after : List UInt8} {root : JsonRoot}
    (holds : RootText text root after) :
    ∀ value, root = some value → Filled value → KeyedRoot text after := by
  induction holds with
  | empty => intro value same _; cases same
  | space space _ ih =>
      intro value same filled
      exact .space space (ih value same filled)
  | object loop =>
      rintro _ ⟨⟩ filled
      exact .object (keyed_of_object loop counted_nil filled)
  | array loop =>
      rintro _ ⟨⟩ filled
      exact .array (keyed_of_array loop filled)
  | other _ _ _ => intro value same _; cases same

/-! ## The parser -/

/-- The entries that an object's count promises are written exactly where no
object closes behind a key or a colon. -/
theorem parseJsonRoot_entries_iff (text : List UInt8) (value : JsonMulti) (next : JsonInput)
    (parsed : parseJsonRoot (cString text ++ [0]) = .ok (some value, next)) :
    EntriesWritten value ↔ ∃ after, KeyedRoot (cString text) after := by
  obtain ⟨last, holds, -⟩ := parseJsonRoot_iff.mp parsed
  rw [entriesWritten_iff]
  constructor
  · intro filled
    exact ⟨last, keyed_of_root holds value rfl filled⟩
  · rintro ⟨after, keyed⟩
    obtain ⟨other, read, filled⟩ := root_of_keyed keyed
    have again := parseJsonRoot_iff.mpr ⟨after, read, rfl⟩
    have same := congrArg Prod.fst (Except.ok.inj (parsed.symm.trans again))
    exact (Option.some.inj same) ▸ filled

theorem parseJsonRoot_entries_iff_pair :
    EntriesWritten (.object [bytes "a"] [.null]) ↔
      ∃ after, KeyedRoot (cString (bytes "\x7b\"a\":null\x7d")) after :=
  parseJsonRoot_entries_iff (bytes "\x7b\"a\":null\x7d") _ ⟨10, 10, [0]⟩ rfl

/-- An object that closes behind its key. -/
theorem lonelyKey_unwritten :
    ∃ value next, parseJsonRoot (cString (bytes "\x7b\"a\"\x7d") ++ [0]) = .ok (some value, next) ∧
      getJsonObjectValue (bytes "a") (some value) = .error .unwritten ∧
      destroyMember value = .error .unwritten ∧ ¬Filled value := by
  refine ⟨.object [bytes "a"] [], ⟨5, 5, [0]⟩, rfl, rfl, rfl, ?_⟩
  intro filled
  exact absurd filled.object.1 (by decide)

end PodrumMisc.JsonObjects
