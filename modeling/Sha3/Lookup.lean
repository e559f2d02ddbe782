import Sha3.Error
import Sha3.Text.Blank
import Sha3.Variant

/-! Finding a variant by its name or by the length of its digest in bits.

    A name may have blanks around it, its letters in either case, and an underscore for the hyphen:

        "  sha3_256 "  →  trim  →  "sha3_256"  →  canonical  →  "SHA3-256"

    A name that is none of the four is refused as it was given. -/

namespace Sha3

/-- Drops the blanks at both ends. -/
def trim (s : List Char) : List Char :=
  ((s.dropWhile Text.isBlank).reverse.dropWhile Text.isBlank).reverse

/-- A name as the standard writes it: no blanks around it, ASCII letters large, hyphens for
    underscores. -/
def canonical (s : List Char) : List Char :=
  (trim s).map fun c => if c = '_' then '-' else c.toUpper

/-- The variant with a given name. -/
def Variant.ofName (s : String) : Except Error Variant :=
  match all.find? fun v => v.name.toList = canonical s.toList with
  | some v => .ok v
  | none => .error (.unknownVariant s)

/-- The variant with a digest of `bits` bits. -/
def Variant.ofDigestBits (bits : Nat) : Except Error Variant :=
  match all.find? fun v => v.digestLength * 8 = bits with
  | some v => .ok v
  | none => .error (.unsupportedDigestBits bits)

/-- What a caller names a variant by. -/
inductive Selector where
  | name (s : String)
  | digestBits (bits : Nat)

/-- The variant that a selector names. -/
def Selector.variant : Selector → Except Error Variant
  | .name s => Variant.ofName s
  | .digestBits bits => Variant.ofDigestBits bits

end Sha3
