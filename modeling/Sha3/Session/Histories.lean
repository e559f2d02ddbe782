import Sha3.Message
import Sha3.Session.BlockHashers
import Sha3.Session.Hashers
import Sha3.Session.Sponges

/-! Histories: what each kind of object has been given since it was made or last cleared, and
    sessions that keep the history alone.

        object             history
        streaming hasher   the message so far
        hasher of blocks   the bytes of all blocks absorbed, padding included
        sponge             the blocks absorbed, padded ones included

    A session of histories answers every step from the history, and digests by `digestOf`. Nothing
    in it remembers how the bytes came. -/

namespace Sha3

/-- What an object of one variant has been given. -/
structure History (α : Type) where
  variant : Variant
  given : α

/-- The digest of a message, told to the observer as a finalization. -/
def finalizing (v : Variant) (message : Bytes) : List Event :=
  [.finalizing v (message.length % v.rate)]

/-! ### Streaming hashers -/

namespace Hasher

abbrev Past := History Bytes

/-- The digest of a message in place of an output of the caller's. -/
def Past.finalizeOver (p : Past) (output : Bytes) : Outcome Past Reply :=
  if output.length = p.variant.digestLength then
    ⟨some { p with given := [] }, .output (digestOf p.variant p.given), none,
      finalizing p.variant p.given ++ [.reset p.variant]⟩
  else
    ⟨some p, .output output, some .outputLength, []⟩

def Past.perform (p : Past) : Op → Outcome Past Reply
  | .look => .ofLook p .done
  | .debug => .ofLook p (.debug (p.variant.name ++ " \x7b .. \x7d"))
  | .outputSize => .ofLook p (.outputSize p.variant.digestLength)
  | .reset => ⟨some { p with given := [] }, .done, none, [.reset p.variant]⟩
  | .update piece => ⟨some { p with given := p.given ++ piece }, .done, none, []⟩
  | .write piece =>
    ⟨some { p with given := p.given ++ piece }, .written (some piece.length), none, []⟩
  | .finalize =>
    ⟨none, .digest (some (digestOf p.variant p.given)), none, finalizing p.variant p.given⟩
  | .finalizeReset =>
    ⟨some { p with given := [] }, .digest (some (digestOf p.variant p.given)), none,
      finalizing p.variant p.given ++ [.reset p.variant]⟩
  | .finalizeOver output => p.finalizeOver output

/-- Messages so far, as objects of a session. -/
def Past.kind : Kind Past Bytes Op Reply where
  create v start := do
    Call.tell (.initialised v)
    return ⟨v, start⟩
  copy := id
  perform op p := some (p.perform op)

end Hasher

/-! ### Hashers of blocks -/

namespace BlockHasher

abbrev Past := History Bytes

/-- Finalizing adds the end of the message and its padding to the bytes absorbed. -/
def Past.finalize (p : Past) (tail : Bytes) : Outcome Past Reply :=
  ⟨some { p with given := p.given ++ (blocksOf p.variant tail).flatten },
    .digest (some (digestOf p.variant (p.given ++ tail))), none, finalizing p.variant tail⟩

def Past.perform (p : Past) : Op → Option (Outcome Past Reply)
  | .look => some (.ofLook p .done)
  | .variant => some (.ofLook p (.variant p.variant))
  | .debug =>
    let s := Sponge.fresh p.variant
    some (.ofLook p (.debug (BlockHasher.mk s).debug s.debug))
  | .algorithmName => some (.ofLook p (.algorithmName p.variant.name))
  | .reset => some ⟨some { p with given := [] }, .done, none, [.reset p.variant]⟩
  | .update data =>
    if data.length % p.variant.rate = 0 then
      some ⟨some { p with given := p.given ++ data }, .done, none, []⟩
    else none
  | .finalize tail => some (p.finalize tail)
  | .digestAfter data =>
    some ⟨some p, .digest (some (digestOf p.variant (p.given ++ data))), none,
      finalizing p.variant data⟩

/-- The bytes absorbed so far, as objects of a session. -/
def Past.kind : Kind Past Unit Op Reply where
  create v _ := do
    Call.tell (.initialised v)
    return ⟨v, []⟩
  copy := id
  perform op p := p.perform op

end BlockHasher

/-! ### Sponges -/

namespace Sponge

abbrev Past := History (List Bytes)

/-- The blocks that a finalization absorbs. -/
def finalBlocks (v : Variant) (block : Bytes) (validLength : Nat) : List Bytes :=
  if validLength = v.rate then [block, paddedBytes 0 v.suffix block]
  else [paddedBytes validLength v.suffix block]

/-- What a caller of a finalization owes, in the order of the checks. -/
def refusal (v : Variant) (block : Bytes) (validLength outputLength : Nat) : Option Fault :=
  if block.length ≠ v.rate then some (.padLength v block.length)
  else if v.rate < validLength then some (.validLength v validLength)
  else if outputLength ≠ v.digestLength then some (.digestLength v outputLength)
  else none

/-- The history after a finalization, the digest, and the caller's block as it is left. -/
def Past.finalized (p : Past) (block : Bytes) (validLength : Nat) : Past × Bytes × Bytes :=
  let blocks := finalBlocks p.variant block validLength
  ({ p with given := p.given ++ blocks },
    digestOf p.variant (p.given.flatten ++ block.take validLength), blocks.getLastD block)

def Past.perform (p : Past) : Op → Outcome Past Reply
  | .look => .ofLook p .done
  | .variant => .ofLook p (.variant p.variant)
  | .debug => .ofLook p (.debug (fresh p.variant).debug (fresh p.variant).debugLines)
  | .reset => ⟨some { p with given := [] }, .done, none, [.reset p.variant]⟩
  | .zeroize => ⟨some { p with given := [] }, .done, none, []⟩
  | .absorb block =>
    if block.length = p.variant.rate then
      ⟨some { p with given := p.given ++ [block] }, .done, none, []⟩
    else
      ⟨some p, .done, some (.fault (.absorbLength p.variant block.length)), []⟩
  | .extract block n =>
    match refusal p.variant block n p.variant.digestLength with
    | some f => ⟨some p, .extracted none block, some (.fault f), []⟩
    | none =>
      let (after, digest, left) := p.finalized block n
      ⟨some after, .extracted (some digest) left, none, [.finalizing p.variant n]⟩
  | .finalize block n output =>
    match refusal p.variant block n output.length with
    | some f => ⟨some p, .finalized none block output, some (.fault f), []⟩
    | none =>
      let (after, digest, left) := p.finalized block n
      ⟨some after, .finalized (some digest) left digest, none, [.finalizing p.variant n]⟩

/-- The blocks absorbed so far, as objects of a session. -/
def Past.kind : Kind Past Unit Op Reply where
  create v _ := do
    Call.tell (.initialised v)
    return ⟨v, []⟩
  copy := id
  perform op p := some (p.perform op)

end Sponge

end Sha3
