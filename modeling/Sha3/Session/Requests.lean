import Sha3.Session.BlockHashers
import Sha3.Session.Hashers

/-! What hashing and the hashers ask of a sponge. They work on it by three requests alone:

        absorb block               a full block
        finalize block n output    a last block with `n` bytes of message, and room for the digest
        reset

    A request fits a variant if its sizes are those of the variant and there is room for padding in
    its last block. A sponge faults on any other, or takes a last block that is full for two. -/

namespace Sha3

namespace Sponge

inductive Request where
  | absorb (block : Bytes)
  | finalize (block : Bytes) (validLength : Nat) (output : Bytes)
  | reset

namespace Request

/-- The request as a call. -/
def call : Request → Call Sponge Unit
  | .absorb block => Sponge.absorb block
  | .finalize block n output => framed block output (Frame.finalize n)
  | .reset => Sponge.reset

/-- The sizes are those of the variant, and the last block is not full. -/
def Fits (v : Variant) : Request → Prop
  | .absorb block => block.length = v.rate
  | .finalize block n output =>
    block.length = v.rate ∧ n < v.rate ∧ output.length = v.digestLength
  | .reset => True

/-- Requests for the full blocks of `n` bytes. -/
def ofBlocks (n : Nat) (m : Bytes) : List Request :=
  (split n m).1.map .absorb

/-- The request for a digest, with the rest of a message in a block of `n` bytes. -/
def ofRest (n : Nat) (rest output : Bytes) : Request :=
  .finalize (zeroFill n rest) rest.length output

/-- Requests for the blocks of a message and for its digest. -/
def ofMessage (n : Nat) (m output : Bytes) : List Request :=
  ofBlocks n m ++ [ofRest n (split n m).2 output]

end Request

/-- Makes requests, one after the other. -/
def ask (requests : List Request) : Call Sponge Unit :=
  Call.each Request.call requests

/-- All of the requests fit, and meeting them takes the sponge `s` to `t` and tells `log`. -/
structure Serves (s : Sponge) (requests : List Request) (t : Sponge) (log : List Event) :
    Prop where
  fits : ∀ r ∈ requests, r.Fits s.variant
  variant : t.variant = s.variant
  served : ∀ l, ask requests ⟨s, l⟩ = .ok () ⟨t, l ++ log⟩

end Sponge

open Sponge (Request)

/-- Room for a digest. -/
def Params.output (p : Params) : Bytes :=
  List.replicate p.outputSize 0

/-- What a streaming hasher asks of its sponge. -/
def Hasher.requests (h : Hasher) : Op → List Request
  | .look | .debug | .outputSize => []
  | .reset => [.reset]
  | .update piece | .write piece => Request.ofBlocks h.inner.params.blockSize (h.pending ++ piece)
  | .finalize => [.ofRest h.inner.params.blockSize h.pending h.inner.params.output]
  | .finalizeReset =>
    [.ofRest h.inner.params.blockSize h.pending h.inner.params.output, .reset]
  | .finalizeOver output =>
    if output.length = h.outputSize then
      [.ofRest h.inner.params.blockSize h.pending output, .reset]
    else []

/-- What a hasher of blocks asks. -/
def BlockHasher.requests (h : BlockHasher) : Op → List Request
  | .look | .variant | .debug | .algorithmName => []
  | .reset => [.reset]
  | .update data => Request.ofBlocks h.params.blockSize data
  | .finalize m | .digestAfter m => Request.ofMessage h.params.blockSize m h.params.output

/-- The sponge that is asked: the hasher's own, or that of a copy. -/
def BlockHasher.asked (h : BlockHasher) : Op → Sponge
  | .digestAfter _ => h.sponge.copy
  | _ => h.sponge

/-- The hasher after its requests have left the sponge `t`. -/
def BlockHasher.left (h : BlockHasher) (t : Sponge) : Op → BlockHasher
  | .digestAfter _ => h
  | _ => ⟨t⟩

end Sha3
