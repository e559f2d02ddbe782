import Sha3.Error
import Sha3.Variant

/-! What an observer of a sponge is told. -/

namespace Sha3

inductive Event where
  | initialised (v : Variant)
  | reset (v : Variant)
  | finalizing (v : Variant) (validLength : Nat)
  | paddingViolated (v : Variant) (e : Error)
  deriving DecidableEq

/-- An event as one line of a log. -/
def Event.line : Event → String
  | .initialised v => "TRACE sponge initialised variant=" ++ v.name
  | .reset v => "TRACE sponge reset variant=" ++ v.name
  | .finalizing v n => "TRACE finalizing sponge variant=" ++ v.name ++ " valid_len=" ++ n.repr
  | .paddingViolated v e =>
    "ERROR padding invariant violated variant=" ++ v.name ++ " err=" ++ e.message

end Sha3
