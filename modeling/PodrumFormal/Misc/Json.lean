import Mathlib.Algebra.Group.Int.Defs
import Mathlib.Algebra.Group.Nat.Defs
import PodrumFormal.Misc.CString

/-!
# JSON

The values, the lookups and the parser.  A parser works on the bytes from its
offset on; `length` is what `strlen` says of the whole text, which the offset
may pass.  Releases of memory are not part of the model.
-/

set_option autoImplicit false

namespace PodrumMisc.Json

open CString

/-! ## Values -/

/-- A float keeps its text, which `atof` turns into bits. -/
inductive JsonNumber
  | int (value : Int)
  | float (text : List UInt8)
  deriving DecidableEq, Repr

/-- An entry with its type.  An object may have a key more than it has
members. -/
inductive JsonMulti
  | object (keys : List (List UInt8)) (members : List JsonMulti)
  | array (members : List JsonMulti)
  | string (text : List UInt8)
  | number (value : JsonNumber)
  | bool (value : Bool)
  | null
  deriving Repr

/-- `none` is `JSON_EMPTY`, whose entry is not written. -/
abbrev JsonRoot := Option JsonMulti

def memberAt (key : List UInt8) : List (List UInt8) → List JsonMulti → Except Fault JsonRoot
  | [], _ => .ok none
  | name :: keys, members =>
      if cString name = key then
        match members with
        | member :: _ => .ok (some member)
        | [] => .error .unwritten
      else memberAt key keys members.tail

/-- The lookup in the object of a root; the root's type is not asked for. -/
def getJsonObjectValue (key : List UInt8) : JsonRoot → Except Fault JsonRoot
  | some (.object keys members) => memberAt key keys members
  | some _ => .error .wrongMember
  | none => .error .unwritten

def jsonArray : JsonRoot → Except Fault (List JsonMulti)
  | some (.array members) => .ok members
  | some _ => .error .wrongMember
  | none => .error .unwritten

def jsonString : JsonRoot → Except Fault (List UInt8)
  | some (.string text) => .ok text
  | some _ => .error .wrongMember
  | none => .error .unwritten

/-- `number.int_number`, which for a float is its bits. -/
def intNumber (floatBits : List UInt8 → Int) : JsonRoot → Except Fault Int
  | some (.number (.int value)) => .ok value
  | some (.number (.float text)) => .ok (floatBits text)
  | some _ => .error .wrongMember
  | none => .error .unwritten

/-! ## The input -/

structure JsonInput where
  length : Nat
  offset : Nat
  rest : List UInt8
  deriving DecidableEq, Repr

namespace JsonInput

/-- `strlen` finds the terminator or leaves the readable bytes. -/
def ofBytes (json : List UInt8) : Except Fault JsonInput :=
  if 0 ∈ json then .ok ⟨(cString json).length, 0, json⟩ else .error .outOfBounds

/-- `json[offset]`. -/
def peek (input : JsonInput) : Except Fault UInt8 := orFault .outOfBounds input.rest.head?

/-- `++offset`. -/
def advance (input : JsonInput) : JsonInput :=
  { input with offset := input.offset + 1, rest := input.rest.tail }

def skip (count : Nat) (input : JsonInput) : JsonInput :=
  { input with offset := input.offset + count, rest := input.rest.drop count }

/-- `json[offset++]`. -/
def next (input : JsonInput) : Except Fault (UInt8 × JsonInput) := do
  let byte ← input.peek
  return (byte, input.advance)

end JsonInput

/-- Comparisons joined by `&&`: the first that fails ends the reading. -/
def startsWith : List UInt8 → List UInt8 → Except Fault Bool
  | [], _ => .ok true
  | _ :: _, [] => .error .outOfBounds
  | char :: word, byte :: rest => if byte = char then startsWith word rest else .ok false

def isSpace (char : UInt8) : Bool :=
  char = ' '.toUInt8 || char = '\n'.toUInt8 || char = '\t'.toUInt8 || char = '\r'.toUInt8

def isDigit (char : UInt8) : Bool := '0'.toUInt8 ≤ char && char ≤ '9'.toUInt8

/-! ## Strings -/

/-- `none` is the error code `0xff`. -/
def hextobin (hex : UInt8) : Option UInt32 :=
  if isDigit hex then some (hex - '0'.toUInt8).toUInt32
  else if 'A'.toUInt8 ≤ hex ∧ hex ≤ 'F'.toUInt8 then some (hex - 'A'.toUInt8 + 10).toUInt32
  else if 'a'.toUInt8 ≤ hex ∧ hex ≤ 'f'.toUInt8 then some (hex - 'a'.toUInt8 + 10).toUInt32
  else none

/-- Four hexadecimal digits, all of them read before any is judged. -/
def hexCode (input : JsonInput) : Except Fault (UInt32 × JsonInput) := do
  let (first, input) ← input.next
  let (second, input) ← input.next
  let (third, input) ← input.next
  let (fourth, input) ← input.next
  match hextobin first, hextobin second, hextobin third, hextobin fourth with
  | some p0, some p1, some p2, some p3 =>
      return ((((p0 <<< 4) ||| p1) <<< 8) ||| ((p2 <<< 4) ||| p3), input)
  | _, _, _, _ => throw .exit

/-- The look for a second half: the offset stays behind each comparison made. -/
def pairMark (high : UInt32) (input : JsonInput) : Except Fault (Bool × JsonInput) := do
  if 0xd800 ≤ high ∧ high ≤ 0xdbff then
    let (backslash, input) ← input.next
    if backslash = '\\'.toUInt8 then
      let (letter, input) ← input.next
      return (letter = 'u'.toUInt8, input)
    else return (false, input)
  else return (false, input)

def pairedCode (code : UInt32) (input : JsonInput) : Except Fault (UInt32 × JsonInput) := do
  if input.offset + 5 < input.length then
    let (marked, input) ← pairMark code input
    if marked then
      let (low, input) ← hexCode input
      if 0xdc00 ≤ low ∧ low ≤ 0xdfff then
        return ((0x10000 : UInt32) + (((code - 0xd800) <<< 10) ||| (low - 0xdc00)), input)
      else return (code, input)
    else return (code, input)
  else return (code, input)

def continuation (code shift : UInt32) : UInt8 := (((code >>> shift) &&& 0x3F) ||| 0x80).toUInt8

def utf8 (code : UInt32) : Except Fault (List UInt8) :=
  if code ≤ 0x7F then .ok [code.toUInt8]
  else if code ≤ 0x07FF then
    .ok [(((code >>> 6) &&& 0x1F) ||| 0xC0).toUInt8, continuation code 0]
  else if code ≤ 0xFFFF then
    .ok [(((code >>> 12) &&& 0x0F) ||| 0xE0).toUInt8, continuation code 6, continuation code 0]
  else if code ≤ 0x10FFFF then
    .ok [(((code >>> 18) &&& 0x07) ||| 0xF0).toUInt8, continuation code 12, continuation code 6,
      continuation code 0]
  else .error .exit

/-- The branch `case 'u'`, from the letter on. -/
def parseUnicode (input : JsonInput) : Except Fault (List UInt8 × JsonInput) := do
  let input := input.advance
  if input.offset + 3 < input.length then
    let (code, input) ← hexCode input
    let (code, input) ← pairedCode code input
    let encoded ← utf8 code
    return (encoded, input)
  else throw .exit

/-- The character behind a backslash. -/
def escaped (char : UInt8) : Option UInt8 :=
  if char = 'n'.toUInt8 then some 10
  else if char = '\\'.toUInt8 then some '\\'.toUInt8
  else if char = '/'.toUInt8 then some '/'.toUInt8
  else if char = 'b'.toUInt8 then some 8
  else if char = 'r'.toUInt8 then some 13
  else if char = 't'.toUInt8 then some 9
  else if char = 'f'.toUInt8 then some 12
  else none

/-- The characters a string may not hold as they are: 7 to 13 and `?`. -/
def isForbidden (char : UInt8) : Bool := (7 ≤ char && char ≤ 13) || char = '?'.toUInt8

/-- The loop ends at any quote, one behind a backslash included, and gives the
bytes it appends from here on.  Each round passes a byte, so the fuel is the
number of bytes left. -/
def parseJsonStringLoop :
    Nat → Bool → JsonInput → Except Fault (List UInt8 × JsonInput)
  | 0, _, _ => throw .outOfBounds
  | fuel + 1, isEscCode, input => do
      let char ← input.peek
      if char = '"'.toUInt8 then return ([], input.advance)
      else if isEscCode then
        if char = 'u'.toUInt8 then
          let (encoded, input) ← parseUnicode input
          let (out, input) ← parseJsonStringLoop fuel false input
          return (encoded ++ out, input)
        else
          let plain ← orFault .exit (escaped char)
          let (out, input) ← parseJsonStringLoop fuel false input.advance
          return (plain :: out, input)
      else if isForbidden char then throw .exit
      else if char = '\\'.toUInt8 then parseJsonStringLoop fuel true input.advance
      else
        let (out, input) ← parseJsonStringLoop fuel false input.advance
        return (char :: out, input)

/-- `none` is `NULL`, with the offset where it was. -/
def parseJsonString (input : JsonInput) : Except Fault (Option (List UInt8) × JsonInput) := do
  let char ← input.peek
  if char = '"'.toUInt8 then
    let input := input.advance
    let (text, input) ← parseJsonStringLoop (input.rest.length + 1) false input
    return (some text, input)
  else return (none, input)

/-! ## Words and numbers -/

/-- `none` is the code 2. -/
def parseJsonBool (input : JsonInput) : Except Fault (Option Bool × JsonInput) := do
  let isTrue ←
    if input.offset + 3 < input.length then startsWith (bytes "true") input.rest else pure false
  if isTrue then return (some true, input.skip 4)
  else
    let isFalse ←
      if input.offset + 4 < input.length then startsWith (bytes "false") input.rest else pure false
    if isFalse then return (some false, input.skip 5) else return (none, input)

/-- `strlen(json) - offset` has no sign here: past the terminator it is huge. -/
def parseJsonNull (input : JsonInput) : Except Fault (Bool × JsonInput) := do
  let isNull ←
    if input.length < input.offset ∨ input.offset + 3 < input.length then
      startsWith (bytes "null") input.rest
    else pure false
  if isNull then return (true, input.skip 4) else return (false, input)

/-- The saturating conversion of the C library. -/
def atoll (text : List UInt8) : Int :=
  let value (digits : List UInt8) : Nat :=
    digits.foldl (fun total digit => total * 10 + (digit - '0'.toUInt8).toNat) 0
  match text with
  | [] => 0
  | first :: digits =>
      if first = '-'.toUInt8 then max (-2 ^ 63) (-(value digits : Int))
      else min (2 ^ 63 - 1) (value (first :: digits))

def endsNumber (char : UInt8) : Bool :=
  char = ' '.toUInt8 || char = ','.toUInt8 || char = ']'.toUInt8 || char = '}'.toUInt8 ||
    char = '\n'.toUInt8 || char = '\r'.toUInt8

/-- The rounds after the first character; `once` says that a point was read. -/
def parseJsonNumberLoop :
    Nat → Bool → Bool → List UInt8 → JsonInput → Except Fault (JsonNumber × JsonInput)
  | 0, _, _, _, _ => throw .outOfBounds
  | fuel + 1, expectDigit, once, srNumber, input => do
      if input.offset < input.length then
        let char ← input.peek
        if isDigit char then
          parseJsonNumberLoop fuel false once (srNumber ++ [char]) input.advance
        else if expectDigit then throw .exit
        else if char = '.'.toUInt8 ∧ ¬once then
          parseJsonNumberLoop fuel true true (srNumber ++ [char]) input.advance
        else if endsNumber char then
          return (if once then .float srNumber else .int (atoll srNumber), input)
        else throw .exit
      else throw .exit

/-- `none` is `JSON_NUMBER_NAN`, with the offset where it was. -/
def parseJsonNumber (input : JsonInput) : Except Fault (Option JsonNumber × JsonInput) := do
  if input.offset < input.length then
    let char ← input.peek
    if isDigit char ∨ char = '-'.toUInt8 then
      let (number, input) ←
        parseJsonNumberLoop (input.rest.length + 1) (char = '-'.toUInt8) false [char]
          input.advance
      return (some number, input)
    else return (none, input)
  else throw .exit

/-! ## Objects and arrays -/

/-- What is tried before an object or an array. -/
def parseScalar (input : JsonInput) : Except Fault (JsonRoot × JsonInput) := do
  let (string, input) ← parseJsonString input
  match string with
  | some text => return (some (.string text), input)
  | none =>
      let (isNull, input) ← parseJsonNull input
      if isNull then return (some .null, input)
      else
        let (bool, input) ← parseJsonBool input
        match bool with
        | some value => return (some (.bool value), input)
        | none =>
            let (number, input) ← parseJsonNumber input
            return (number.map .number, input)

/-- The flag of the object loop that is 1. -/
inductive Expect
  | key
  | colon
  | member
  | seporator
  deriving DecidableEq, Repr

mutual

/-- The same attempts stand in both loops; a member that is none of them ends
the process. -/
def parseMember : Nat → JsonInput → Except Fault (JsonMulti × JsonInput)
  | 0, _ => throw .outOfFuel
  | fuel + 1, input => do
      let (scalar, input) ← parseScalar input
      match scalar with
      | some member => return (member, input)
      | none =>
          let char ← input.peek
          if char = '\x7b'.toUInt8 then parseJsonObjectLoop fuel .key [] [] input.advance
          else if char = '['.toUInt8 then parseJsonArrayLoop fuel true [] input.advance
          else throw .exit

def parseJsonArrayLoop :
    Nat → Bool → List JsonMulti → JsonInput → Except Fault (JsonMulti × JsonInput)
  | 0, _, _, _ => throw .outOfFuel
  | fuel + 1, expectMember, members, input => do
      let char ← input.peek
      if char = ']'.toUInt8 then return (.array members, input.advance)
      else if isSpace char then parseJsonArrayLoop fuel expectMember members input.advance
      else if expectMember then
        let (member, input) ← parseMember fuel input
        parseJsonArrayLoop fuel false (members ++ [member]) input
      else if char = ','.toUInt8 then parseJsonArrayLoop fuel true members input.advance
      else throw .exit

def parseJsonObjectLoop :
    Nat → Expect → List (List UInt8) → List JsonMulti → JsonInput →
      Except Fault (JsonMulti × JsonInput)
  | 0, _, _, _, _ => throw .outOfFuel
  | fuel + 1, expect, keys, members, input => do
      let char ← input.peek
      if char = '\x7d'.toUInt8 then return (.object keys members, input.advance)
      else if isSpace char then parseJsonObjectLoop fuel expect keys members input.advance
      else
        match expect with
        | .key =>
            let (key, input) ← parseJsonString input
            let key ← orFault .exit key
            parseJsonObjectLoop fuel .colon (keys ++ [key]) members input
        | .colon =>
            if char = ':'.toUInt8 then
              parseJsonObjectLoop fuel .member keys members input.advance
            else throw .exit
        | .member =>
            let (member, input) ← parseMember fuel input
            parseJsonObjectLoop fuel .seporator keys (members ++ [member]) input
        | .seporator =>
            if char = ','.toUInt8 then parseJsonObjectLoop fuel .key keys members input.advance
            else throw .exit

end

/-- Between two rounds at most one call is made that passes no byte. -/
def parseFuel (input : JsonInput) : Nat := 3 * input.rest.length + 3

def parseJsonRootLoop : Nat → JsonInput → Except Fault (JsonRoot × JsonInput)
  | 0, _ => throw .outOfFuel
  | fuel + 1, input => do
      if input.offset < input.length then
        let char ← input.peek
        if isSpace char then parseJsonRootLoop fuel input.advance
        else if char = '\x7b'.toUInt8 then
          let (member, input) ← parseJsonObjectLoop (parseFuel input) .key [] [] input.advance
          return (some member, input)
        else if char = '['.toUInt8 then
          let (member, input) ← parseJsonArrayLoop (parseFuel input) true [] input.advance
          return (some member, input)
        else return (none, input)
      else return (none, input)

def parseJsonRoot (json : List UInt8) : Except Fault (JsonRoot × JsonInput) := do
  let input ← JsonInput.ofBytes json
  parseJsonRootLoop (json.length + 1) input

end PodrumMisc.Json
