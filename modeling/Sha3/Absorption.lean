import Sha3.Bytes
import Sha3.Keccak.Layout
import Sha3.Keccak.Permutation

/-! What a block does to the state: it is added to the front, and the state is permuted. -/

namespace Sha3

/-- The state with nothing in it. -/
def zeroState : Keccak.StateBytes := .replicate 200 0

/-- The state with a block added to its front. -/
def mixed (s : Keccak.StateBytes) (block : Bytes) : Keccak.StateBytes :=
  .ofFn fun i => s.get i ^^^ block.getD i.val 0

/-- The state after a block. -/
def absorbed (s : Keccak.StateBytes) (block : Bytes) : Keccak.StateBytes :=
  Keccak.store (Keccak.permute (Keccak.load (mixed s block) (.replicate 25 0))) zeroState

/-- The state after some blocks, from the first. -/
def stateAfter (blocks : List Bytes) : Keccak.StateBytes :=
  blocks.foldl absorbed zeroState

theorem stateAfter_append (blocks more : List Bytes) :
    stateAfter (blocks ++ more) = more.foldl absorbed (stateAfter blocks) :=
  List.foldl_append

theorem stateAfter_concat (blocks : List Bytes) (b : Bytes) :
    stateAfter (blocks ++ [b]) = absorbed (stateAfter blocks) b := by
  rw [stateAfter_append, List.foldl_cons, List.foldl_nil]

end Sha3
