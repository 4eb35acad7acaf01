import PodrumFormal.Lib.ByteWriter

/-!
# Arrays behind their size

A record of a size and the entries that it counts.  The size is written first,
in whatever form, and says how many turns the loops of both directions make.
-/

set_option autoImplicit false

namespace CountedArray

open ByteReader ByteWriter

variable {σ α : Type}

structure Counted (σ α : Type) where
  size : σ
  entries : List α
  deriving DecidableEq

/-- There is an entry for each turn of the loops, and no other. -/
structure Counted.Full (turns : σ → Nat) (holds : α → Prop) (array : Counted σ α) : Prop where
  length : array.entries.length = turns array.size
  each : ∀ entry ∈ array.entries, holds entry

def putCounted (putSize : σ → List UInt8) (turns : σ → Nat) (putEntry : α → Option (List UInt8))
    (array : Counted σ α) : Option (List UInt8) :=
  joined [some (putSize array.size), putCount putEntry (array.entries.take (turns array.size))]

def getCounted (getSize : Reader σ) (turns : σ → Nat) (getEntry : Reader α) :
    Reader (Counted σ α) := do
  let size ← getSize
  let entries ← readCount getEntry (turns size)
  pure { size, entries }

theorem returns_counted {putSize : σ → List UInt8} {getSize : Reader σ} {turns : σ → Nat}
    {putEntry : α → Option (List UInt8)} {getEntry : Reader α} {holds : α → Prop}
    {array : Counted σ α} (sizes : ∀ size, Reads getSize (putSize size) size)
    (entries : ∀ entry, holds entry → Returns (putEntry entry) getEntry entry)
    (full : array.Full turns holds) :
    Returns (putCounted putSize turns putEntry array) (getCounted getSize turns getEntry) array := by
  have loop : Returns (putCount putEntry (array.entries.take (turns array.size)))
      (readCount getEntry (turns array.size)) array.entries := by
    rw [← full.length, List.take_length]
    exact Returns.count fun entry member => entries entry (full.each entry member)
  exact .cons (.fixed (sizes array.size)) (.cons loop (.nil _))

end CountedArray
