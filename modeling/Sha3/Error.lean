import Sha3.Text.Quoted

/-! What a caller can get wrong: the name or the digest length of a variant, and the length handed
    to the padding. `message` is for a reader, `debug` shows the value itself. -/

namespace Sha3

inductive Error where
  | unknownVariant (name : String)
  | unsupportedDigestBits (bits : Nat)
  | padSize (pad rate : Nat)
  deriving DecidableEq

namespace Error

/-- The text for a reader. -/
def message : Error → String
  | .unknownVariant name => "unknown SHA-3 algorithm name: " ++ Text.quote name
  | .unsupportedDigestBits bits => "unsupported SHA-3 digest length: " ++ bits.repr ++ " bits"
  | .padSize pad rate => "incorrect pad size " ++ pad.repr ++ " for rate " ++ rate.repr

/-- The value as it is built. -/
def debug : Error → String
  | .unknownVariant name => "UnknownVariant(" ++ Text.quote name ++ ")"
  | .unsupportedDigestBits bits => "UnsupportedDigestBits(" ++ bits.repr ++ ")"
  | .padSize pad rate => "PadSize \x7b pad: " ++ pad.repr ++ ", rate: " ++ rate.repr ++ " \x7d"

end Error

end Sha3
