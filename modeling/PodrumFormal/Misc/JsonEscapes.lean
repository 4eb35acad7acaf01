import Mathlib.Algebra.Group.Nat.Defs
import PodrumFormal.Lib.BitFields
import PodrumFormal.Misc.JsonStrings

/-!
# Texts of code escapes

Every list of characters, each spelled as `\uXXXX` or as a pair of surrogate
halves with digits of either case: the string parser gives its UTF-8 bytes.
-/

set_option autoImplicit false

namespace PodrumMisc.JsonEscapes

open BitFields CString Json JsonGrammar JsonStrings

/-! ## The spelling -/

end PodrumMisc.JsonEscapes
