import Sha3.BlockHasher

/-! A streaming hasher: a hasher of whole blocks and the bytes that do not fill a block yet. Bytes
    come in pieces of any size, and a block is absorbed as soon as it is full:

        pending ++ piece  =  block block … block rest
                               │     │       │
                               ▼     ▼       ▼     rest is pending
                             inner inner … inner

    So the pending bytes are always fewer than a block. What is asked of the buffer and of these
    calls is their contract, `Calls.Lawful` in `Buffering`. -/

namespace Sha3

structure Hasher where
  inner : BlockHasher
  pending : Bytes

namespace Hasher

/-- A streaming hasher around a hasher of blocks. -/
def around (inner : BlockHasher) : Hasher :=
  ⟨inner, []⟩

/-- Makes a hasher. -/
def create {τ : Type} (v : Variant) : Call τ Hasher := do
  return around (← BlockHasher.create v)

/-- The same state and pending bytes in a hasher of its own. -/
def copy (h : Hasher) : Hasher :=
  { h with inner := h.inner.copy }

/-- Runs a call on the hasher of blocks. -/
def onInner {α : Type} (c : Call BlockHasher α) : Call Hasher α :=
  Call.inside Hasher.inner (fun inner h => { h with inner := inner }) c

theorem onInner_ok {α : Type} {c : Call BlockHasher α} {h : Hasher} {l l' : List Event} {a : α}
    {inner : BlockHasher} (hc : c ⟨h.inner, l⟩ = .ok a ⟨inner, l'⟩) :
    onInner c ⟨h, l⟩ = .ok a ⟨{ h with inner := inner }, l'⟩ := by
  rw [onInner, Call.inside_ok (o := ⟨h, l⟩) hc]

/-- Bytes of digest. -/
def outputSize (h : Hasher) : Nat :=
  h.inner.params.outputSize

/-- Feeds a piece of the message. -/
def update (piece : Bytes) : Call Hasher Unit := do
  let h ← Call.current
  let (blocks, rest) := split h.inner.params.blockSize (h.pending ++ piece)
  onInner (BlockHasher.update blocks)
  Call.change fun h => { h with pending := rest }

/-- Feeds a piece of the message and answers its length. -/
def write (piece : Bytes) : Call Hasher Nat := do
  update piece
  return piece.length

/-- Clears the hasher for the next message. -/
def reset : Call Hasher Unit := do
  onInner BlockHasher.reset
  Call.change fun h => { h with pending := [] }

/-- Answers the digest. The hasher is spent. -/
def finalize : Call Hasher Bytes := do
  let h ← Call.current
  onInner (BlockHasher.finalizeRest h.pending)

/-- Answers the digest and clears the hasher. -/
def finalizeReset : Call Hasher Bytes := do
  let digest ← finalize
  reset
  return digest

/-- Writes the digest over the caller's output and clears the hasher. An output of the wrong length
    is refused before anything happens. -/
def finalizeOver (output : Bytes) : Call Hasher Bytes := do
  let h ← Call.current
  if output.length = h.outputSize then
    let digest ← onInner (BlockHasher.finalizeOver h.pending output)
    reset
    return digest
  else
    throw .outputLength

/-- The hasher on one line. -/
def debug (h : Hasher) : String :=
  h.inner.algorithmName ++ " \x7b .. \x7d"

end Hasher

/-- Hashes a whole message through a streaming hasher. -/
def digest {τ : Type} (v : Variant) (message : Bytes) : Call τ Bytes := do
  let h ← Hasher.create v
  Call.aside h do
    Hasher.update message
    Hasher.finalize

/-- Hashes a message fed in pieces of the given sizes and then the rest. Answers also the hasher as
    it stood before the rest was fed. -/
def digestInPieces {τ : Type} (v : Variant) (message : Bytes) (sizes : List Nat) :
    Call τ (Bytes × Hasher) := do
  let h ← Hasher.create v
  let (pieces, rest) := cutAt sizes message
  Call.aside h do
    Call.each Hasher.update pieces
    let middle ← Call.current
    Hasher.update rest
    return (← Hasher.finalize, middle)

/-- Feeds data to a streaming hasher around a copy of the blocks hasher, and answers its digest. -/
def BlockHasher.digestAfter {τ : Type} (h : BlockHasher) (data : Bytes) : Call τ Bytes :=
  Call.aside (Hasher.around h.copy) do
    Hasher.update data
    Hasher.finalize

end Sha3
