import Sha3.Text.DefaultIgnorable
import Sha3.Text.GraphemeExtend
import Sha3.Text.NonGraphic

/-! Quoted text: how a string from outside is shown inside a message, on one line and with every
    character told apart.

        a"b\c     →  "a\"b\\c"
        tab       →  "\t"
        U+200B    →  "\u{200b}"

    The quote and the backslash take a backslash, NUL, tab, return and newline have a letter each,
    and a character that a reader cannot make out by itself is written by its code point in
    hexadecimal: one that is not graphic, that shows nothing, or that extends the one before it. All
    else stands for itself, so no two strings are shown alike. The classes are those of Unicode
    17.0. -/

namespace Sha3.Text

/-- The halfwidth sound marks. They extend the letter before them, but stand in a cell of their own
    and can be read there. -/
def soundMarks : CharClass where
  ranges := [(0xFF9E, 0xFF9F)]

/-- Whether a character is written by its code point. -/
def isHidden (c : Char) : Bool :=
  nonGraphic.has c || defaultIgnorable.has c || (graphemeExtend.has c && !soundMarks.has c)

/-- A character by its code point. -/
def codePoint (c : Char) : List Char :=
  ['\\', 'u', '{'] ++ Nat.toDigits 16 c.toNat ++ ['}']

/-- A character as it stands between the quotes. -/
def escape (c : Char) : List Char :=
  if c = '"' then ['\\', '"']
  else if c = '\\' then ['\\', '\\']
  else if c = '\x00' then ['\\', '0']
  else if c = '\t' then ['\\', 't']
  else if c = '\r' then ['\\', 'r']
  else if c = '\n' then ['\\', 'n']
  else if isHidden c then codePoint c
  else [c]

/-- A string between quotes. -/
def quote (s : String) : String :=
  String.ofList ('"' :: s.toList.flatMap escape ++ ['"'])

end Sha3.Text
