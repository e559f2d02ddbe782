import Sha3.Text.Blank
import Sha3.Variant

/-! The spellings of a name: what a text looks like that names the hash with a digest of some bits.

        blanks   s   h   a   3   -   256   blanks
                 S   H   A       _

    Each letter is large or small on its own account. Blanks stand at the ends and nowhere else. -/

namespace Sha3

/-- Text with nothing in it but blanks. -/
def Blanks (s : List Char) : Prop :=
  ∀ c ∈ s, Text.isBlank c

/-- The texts that name the hash with a digest of `bits` bits. -/
inductive Spelling (bits : Nat) : List Char → Prop where
  | intro {before after : List Char} {s h a hyphen : Char} :
    Blanks before → s ∈ ['s', 'S'] → h ∈ ['h', 'H'] → a ∈ ['a', 'A'] → hyphen ∈ ['-', '_'] →
      Blanks after →
      Spelling bits (before ++ [s, h, a, '3', hyphen] ++ Nat.toDigits 10 bits ++ after)

/-- The spellings of the name of a variant. -/
def Variant.SpelledBy (v : Variant) (s : List Char) : Prop :=
  Spelling (v.digestLength * 8) s

end Sha3
