/-! A class of characters, given by ranges of code points. -/

namespace Sha3.Text

/-- The characters whose code point lies in one of the ranges, ends included. -/
structure CharClass where
  ranges : List (Nat × Nat)

/-- Whether a character is in the class. -/
def CharClass.has (k : CharClass) (c : Char) : Bool :=
  k.ranges.any fun r => r.1 ≤ c.toNat && c.toNat ≤ r.2

end Sha3.Text
