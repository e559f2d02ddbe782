import Sha3.Text.CharClass

/-! Blanks: the characters with the Unicode property White_Space. -/

namespace Sha3.Text

/-- White_Space. -/
def blanks : CharClass where
  ranges :=
  [(0x9, 0xD), (0x20, 0x20), (0x85, 0x85), (0xA0, 0xA0), (0x1680, 0x1680), (0x2000, 0x200A),
   (0x2028, 0x2029), (0x202F, 0x202F), (0x205F, 0x205F), (0x3000, 0x3000)]

/-- Whether a character is a blank. -/
def isBlank (c : Char) : Bool := blanks.has c

end Sha3.Text
