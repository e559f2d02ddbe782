import Sha3.Error
import Sha3.Variant

/-! Why a call fails. An error answers a request that cannot be met; an output buffer of the wrong
    length is refused before anything happens; a fault is a call whose arguments break what the
    sponge asks of its callers. -/

namespace Sha3

inductive Fault where
  | absorbLength (v : Variant) (got : Nat)
  | padLength (v : Variant) (got : Nat)
  | validLength (v : Variant) (got : Nat)
  | digestLength (v : Variant) (got : Nat)
  | padding (e : Error)
  deriving DecidableEq

/-- The text of a comparison that should have held. -/
def mismatch (what : String) (got expected : Nat) : String :=
  "assertion `left == right` failed: " ++ what ++ "\n  left: " ++ got.repr
    ++ "\n right: " ++ expected.repr

def Fault.message : Fault → String
  | .absorbLength v got =>
    mismatch (v.name ++ " absorbs " ++ v.rate.repr ++ "-byte blocks") got v.rate
  | .padLength v got =>
    mismatch (v.name ++ " pads " ++ v.rate.repr ++ "-byte blocks") got v.rate
  | .validLength v got =>
    got.repr ++ " valid bytes exceed the " ++ v.rate.repr ++ "-byte rate of " ++ v.name
  | .digestLength v got =>
    mismatch (v.name ++ " yields " ++ v.digestLength.repr ++ " bytes") got v.digestLength
  | .padding e => "internal consistency failure: " ++ e.message

inductive Failure where
  | error (e : Error)
  | outputLength
  | fault (f : Fault)
  deriving DecidableEq

def Failure.message : Failure → String
  | .error e => e.message
  | .outputLength => "invalid buffer length"
  | .fault f => f.message

end Sha3
