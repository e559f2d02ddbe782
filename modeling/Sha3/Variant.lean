import Sha3.Keccak.State

/-! The four hash functions of SHA-3. A variant is told by the length of its digest; the capacity is
    twice that length, and the rate is the rest of the state:

        |<-------------- 200 bytes -------------->|
        |     rate: mixed with input    | capacity|

    `Params` lists the sizes that a streaming hasher is built with. They are written out once more
    there, and `blockSize_params` and `outputSize_params` say that they agree with the variant. -/

namespace Sha3

inductive Variant where | sha3_224 | sha3_256 | sha3_384 | sha3_512
  deriving DecidableEq

namespace Variant

/-- Every variant, by increasing digest length. -/
def all : List Variant := [.sha3_224, .sha3_256, .sha3_384, .sha3_512]

/-- Bytes of output. -/
def digestLength : Variant → Nat
  | .sha3_224 => 28
  | .sha3_256 => 32
  | .sha3_384 => 48
  | .sha3_512 => 64

/-- Bytes of state that input never touches. -/
def capacity (v : Variant) : Nat := 2 * v.digestLength

/-- Bytes of state that a block is mixed into. -/
def rate (v : Variant) : Nat := Keccak.stateBytes - v.capacity

/-- The bits `01` that mark a hash, the lowest first, and the first bit of the padding. -/
def suffix (_ : Variant) : UInt8 := 0x06

/-- The name in the standard. -/
def name : Variant → String
  | .sha3_224 => "SHA3-224"
  | .sha3_256 => "SHA3-256"
  | .sha3_384 => "SHA3-384"
  | .sha3_512 => "SHA3-512"

/-- The name as an identifier, for diagnostics. -/
def debugName : Variant → String
  | .sha3_224 => "Sha3_224"
  | .sha3_256 => "Sha3_256"
  | .sha3_384 => "Sha3_384"
  | .sha3_512 => "Sha3_512"

theorem mem_all (v : Variant) : v ∈ all := by cases v <;> decide

theorem rate_pos (v : Variant) : 0 < v.rate := by cases v <;> decide

theorem rate_le (v : Variant) : v.rate ≤ 200 := by cases v <;> decide

theorem digestLength_le_rate (v : Variant) : v.digestLength ≤ v.rate := by cases v <;> decide

end Variant

/-- The sizes that a streaming hasher of one variant is built with. -/
structure Params where
  variant : Variant
  blockSize : Nat
  outputSize : Nat
  debugName : String

/-- The sizes for each variant. -/
def Variant.params : Variant → Params
  | .sha3_224 => ⟨.sha3_224, 144, 28, "Sha3_224Params"⟩
  | .sha3_256 => ⟨.sha3_256, 136, 32, "Sha3_256Params"⟩
  | .sha3_384 => ⟨.sha3_384, 104, 48, "Sha3_384Params"⟩
  | .sha3_512 => ⟨.sha3_512, 72, 64, "Sha3_512Params"⟩

namespace Variant

theorem variant_params (v : Variant) : v.params.variant = v := by cases v <;> rfl

theorem blockSize_params (v : Variant) : v.params.blockSize = v.rate := by cases v <;> rfl

theorem outputSize_params (v : Variant) : v.params.outputSize = v.digestLength := by
  cases v <;> rfl

end Variant

end Sha3
