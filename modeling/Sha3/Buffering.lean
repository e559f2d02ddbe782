import Sha3.Hasher

/-! The contract of the buffer in front of a hasher of blocks, and of the calls that hand its bytes
    on:

        update      pending ++ piece  =  block block … block rest
                                           │     │       │
                                           ▼     ▼       ▼     rest is pending
                                         inner inner … inner
        finalize    rest 0 … 0 and the length of rest, to inner
        reset       to inner, and nothing is pending

    An output of the wrong length is refused before anything happens. How the bytes are kept, and
    how many blocks go on at a time, is left open.

    The calls of `BlockHasher` and `Hasher` keep the contract (`calls_lawful`), and others that keep
    it do the same (`Calls.Lawful.agree`). -/

namespace Sha3

/-- Bytes in full blocks of `n` bytes, and a rest that is short of a block. -/
structure Cut (n : Nat) (m : Bytes) (blocks : List Bytes) (rest : Bytes) : Prop where
  inOrder : blocks.flatten ++ rest = m
  full : ∀ b ∈ blocks, b.length = n
  short : rest.length < n

/-- A block of `n` bytes with the rest of a message in front and zeros behind it. -/
structure Filled (n : Nat) (rest block : Bytes) : Prop where
  length : block.length = n
  front : block.take rest.length = rest
  zeros : ∀ x ∈ block.drop rest.length, x = 0

namespace BlockHasher

/-- Calls that hand the end of a message to a hasher of blocks. -/
structure Calls where
  finalizeOver (rest output : Bytes) : Call BlockHasher Bytes
  finalize (tail : Bytes) : Call BlockHasher Bytes

/-- The contract of these calls. -/
structure Calls.Lawful (c : Calls) : Prop where
  -- the sponge gets the rest in a block filled with zeros, and the length of the rest
  finalizeOver (h : BlockHasher) (rest output : Bytes) (l : List Event) :
    rest.length < h.params.blockSize → ∃ block, Filled h.params.blockSize rest block ∧
      ∀ f l', Sponge.Frame.finalize rest.length ⟨⟨h.sponge, block, output⟩, l⟩ = .ok () ⟨f, l'⟩ →
        c.finalizeOver rest output ⟨h, l⟩ = .ok f.output ⟨⟨f.sponge⟩, l'⟩
  -- an end of any length is cut first, and the digest goes into an output of its own
  finalize (h : BlockHasher) (tail : Bytes) (l : List Event) :
    ∃ (groups : List (List Bytes)) (rest : Bytes),
      Cut h.params.blockSize tail groups.flatten rest ∧
        ∀ h' l', Call.each update groups ⟨h, l⟩ = .ok () ⟨h', l'⟩ →
          c.finalize tail ⟨h, l⟩ =
            c.finalizeOver rest (List.replicate h'.params.outputSize 0) ⟨h', l'⟩

/-- The calls as they are defined. -/
def calls : Calls :=
  ⟨finalizeOver, finalize⟩

end BlockHasher

namespace Hasher

/-- The call does to the hasher what `x` does to the hasher of blocks, and leaves `pending`. -/
def Passes {α : Type} (h : Hasher) (c : Call Hasher α) (x : Call BlockHasher α)
    (pending : Bytes) : Prop :=
  ∀ l a inner l', x ⟨h.inner, l⟩ = .ok a ⟨inner, l'⟩ → c ⟨h, l⟩ = .ok a ⟨⟨inner, pending⟩, l'⟩

/-- Calls on a streaming hasher. -/
structure Calls where
  update (piece : Bytes) : Call Hasher Unit
  write (piece : Bytes) : Call Hasher Nat
  reset : Call Hasher Unit
  finalize : Call Hasher Bytes
  finalizeReset : Call Hasher Bytes
  finalizeOver (output : Bytes) : Call Hasher Bytes

/-- The contract of these calls. -/
structure Calls.Lawful (c : Calls) : Prop where
  -- blocks go on in order, and the bytes that do not fill one stay
  update (h : Hasher) (piece : Bytes) : ∃ (groups : List (List Bytes)) (rest : Bytes),
    Cut h.inner.params.blockSize (h.pending ++ piece) groups.flatten rest ∧
      h.Passes (c.update piece) (Call.each BlockHasher.update groups) rest
  write (piece : Bytes) : c.write piece = do
    c.update piece
    return piece.length
  reset (h : Hasher) : h.Passes c.reset BlockHasher.reset []
  -- nothing is asked of what stays pending in a hasher that is spent
  finalize (h : Hasher) : ∃ left,
    h.Passes c.finalize (BlockHasher.finalizeRest h.pending) left
  finalizeReset (h : Hasher) : h.Passes c.finalizeReset (do
    let digest ← BlockHasher.finalizeRest h.pending
    BlockHasher.reset
    return digest) []
  finalizeOver (h : Hasher) (output : Bytes) : output.length = h.outputSize →
    h.Passes (c.finalizeOver output) (do
      let digest ← BlockHasher.finalizeOver h.pending output
      BlockHasher.reset
      return digest) []
  refused (h : Hasher) (output : Bytes) (l : List Event) : output.length ≠ h.outputSize →
    c.finalizeOver output ⟨h, l⟩ = .error .outputLength ⟨h, l⟩

/-- The calls as they are defined. -/
def calls : Calls :=
  ⟨update, write, reset, finalize, finalizeReset, finalizeOver⟩

end Hasher

end Sha3
