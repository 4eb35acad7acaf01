import PodrumFormal.Misc.CString

/-!
# Base64

The two decoders that the login handler calls on keys and signatures, and the
pair that `jwt_decode` uses.
-/

set_option autoImplicit false

namespace PodrumMisc.Base64

open CString

def base64Table : List UInt8 :=
  bytes "ABCDEFGHIJKLMNOPQRSTUVWXYZabcdefghijklmnopqrstuvwxyz0123456789+/"

def base64UrlTable : List UInt8 :=
  bytes "ABCDEFGHIJKLMNOPQRSTUVWXYZabcdefghijklmnopqrstuvwxyz0123456789-_"

def padding : UInt8 := '='.toUInt8

/-! ## Keys and signatures -/

/-- `dtable[char]`. -/
def dtable (table : List UInt8) (char : UInt8) : UInt8 :=
  if char = padding then 0
  else match table.idxOf? char with
    | some index => index.toUInt8
    | none => 0x80

/-- The first pass, which sizes the output. -/
def validCount (table src : List UInt8) : Nat := src.countP fun char => dtable table char ≠ 0x80

/-- `out` holds every byte written, `outLen` is the length reported; trimmed
padding leaves bytes after it. -/
structure Decoded where
  out : List UInt8
  outLen : Nat
  deriving DecidableEq, Repr

def Decoded.bytes (decoded : Decoded) : List UInt8 := decoded.out.take decoded.outLen

def block (first second third fourth : UInt8) : List UInt8 :=
  [(first <<< 2) ||| (second >>> 4), (second <<< 4) ||| (third >>> 2), (third <<< 6) ||| fourth]

def charBase64DecodeLoop :
    List UInt8 → List UInt8 → Nat → List UInt8 → Option Decoded
  | [], _, _, out => some ⟨out, out.length⟩
  | char :: src, pending, pad, out =>
      let tmp := dtable base64Table char
      if tmp = 0x80 then charBase64DecodeLoop src pending pad out
      else
        let pad := if char = padding then pad + 1 else pad
        match pending with
        | [first, second, third] =>
            let out := out ++ block first second third tmp
            if pad = 0 then charBase64DecodeLoop src [] pad out
            else if pad ≤ 2 then some ⟨out, out.length - pad⟩
            else none
        | _ => charBase64DecodeLoop src (pending ++ [tmp]) pad out

/-- `none` is `NULL`, with the length left unwritten. -/
def charBase64Decode (src : List UInt8) : Option Decoded :=
  let count := validCount base64Table src
  if count = 0 ∨ count % 4 ≠ 0 then none
  else charBase64DecodeLoop src [] 0 []

/-- The second pass skips nothing and counts no padding. -/
def charBase64UrlDecodeLoop : List UInt8 → List UInt8
  | first :: second :: third :: fourth :: src =>
      block (dtable base64UrlTable first) (dtable base64UrlTable second)
        (dtable base64UrlTable third) (dtable base64UrlTable fourth) ++
      charBase64UrlDecodeLoop src
  | _ => []

def charBase64UrlDecode (src : List UInt8) : Except Fault (Option Decoded) :=
  let count := validCount base64UrlTable src
  if count = 0 ∨ count % 4 ≠ 0 then .ok none
  else
    let out := charBase64UrlDecodeLoop src
    if out.length ≤ count / 4 * 3 then .ok (some ⟨out, out.length⟩)
    else .error .outOfBounds

/-! ## Parts of a token -/

def tableIndex (char : UInt8) : UInt32 :=
  match base64Table.idxOf? char with
  | some index => index.toUInt32
  | none => 0

/-- One round of the loop of `base64_decode`: an absent character and a `=`
both count as padding, which is carried from round to round. -/
def base64DecodeRound (c1 c2 : UInt8) (c3 c4 : Option UInt8) (pad : Nat) :
    Option (List UInt8 × Nat) :=
  let chars := [some c1, some c2, c3, c4]
  let pad := pad + chars.countP fun char => char.all (· = padding)
  if 2 < pad then none
  else
    let index (char : Option UInt8) : UInt32 := char.elim 0 tableIndex
    let bitArray :=
      (tableIndex c1 <<< 18) ||| (tableIndex c2 <<< 12) ||| (index c3 <<< 6) ||| index c4
    some ((bitArray >>> 16).toUInt8 ::
      (if pad < 2 then [(bitArray >>> 8).toUInt8] else []) ++
      (if pad < 1 then [bitArray.toUInt8] else []), pad)

def base64DecodeLoop : List UInt8 → Nat → List UInt8
  | c1 :: c2 :: c3 :: c4 :: src, pad =>
      match base64DecodeRound c1 c2 (some c3) (some c4) pad with
      | some (out, pad) => out ++ base64DecodeLoop src pad
      | none => []
  | [c1, c2, c3], pad => ((base64DecodeRound c1 c2 (some c3) none pad).map Prod.fst).getD []
  | [c1, c2], pad => ((base64DecodeRound c1 c2 none none pad).map Prod.fst).getD []
  | _, _ => []

def base64Decode (base64String : List UInt8) : List UInt8 := base64DecodeLoop base64String 0

def base64UrlDecode (base64String : List UInt8) : List UInt8 :=
  base64Decode <| base64String.map fun char =>
    if char = '-'.toUInt8 then '+'.toUInt8
    else if char = '_'.toUInt8 then '/'.toUInt8
    else char

end PodrumMisc.Base64
