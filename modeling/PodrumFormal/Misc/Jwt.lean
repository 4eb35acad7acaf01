import PodrumFormal.Misc.Base64
import PodrumFormal.Misc.Json

/-!
# Tokens

A token is cut at its dots, and its first two parts are decoded and parsed.
The decoded bytes have no terminator of their own: the parser reads on into
the memory behind them.
-/

set_option autoImplicit false

namespace PodrumMisc.Jwt

open CString Base64 Json

structure JwtData where
  header : JsonRoot
  payload : JsonRoot
  signature : Option (List UInt8)
  rawHeader : List UInt8
  rawPayload : List UInt8

def decodePart (beyond : List UInt8 → List UInt8) (part : List UInt8) :
    Except Fault JsonRoot := do
  let buffer := base64UrlDecode part
  let (root, _) ← parseJsonRoot (buffer ++ beyond buffer)
  return root

/-- A missing signature is `NULL` in the result; a missing header or payload
is read through `NULL` here. -/
def jwtDecode (beyond : List UInt8 → List UInt8) (token : List UInt8) :
    Except Fault JwtData := do
  let (rawHeader, token) := strtok '.'.toUInt8 (cString token)
  let (rawPayload, token) := strtok '.'.toUInt8 token
  let (signature, _) := strtok '.'.toUInt8 token
  let rawHeader ← orFault .outOfBounds rawHeader
  let header ← decodePart beyond rawHeader
  let rawPayload ← orFault .outOfBounds rawPayload
  let payload ← decodePart beyond rawPayload
  return { header, payload, signature, rawHeader, rawPayload }

end PodrumMisc.Jwt
