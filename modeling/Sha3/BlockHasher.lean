import Sha3.Sponge

/-! A hasher of whole blocks: a sponge together with the sizes its variant is built with. It keeps
    no partial block; whoever feeds it holds the rest of the message and hands it over at the end,
    by the contract `Calls.Lawful` in `Buffering`. -/

namespace Sha3

structure BlockHasher where
  sponge : Sponge

namespace BlockHasher

/-- The sizes the hasher is built with. -/
def params (h : BlockHasher) : Params := h.sponge.variant.params

theorem blockSize_eq (h : BlockHasher) : h.params.blockSize = h.sponge.variant.rate := by
  rw [params, Variant.blockSize_params]

theorem outputSize_eq (h : BlockHasher) : h.params.outputSize = h.sponge.variant.digestLength := by
  rw [params, Variant.outputSize_params]

/-- Makes a hasher. -/
def create {τ : Type} (v : Variant) : Call τ BlockHasher := do
  return ⟨← Sponge.create v.params.variant⟩

/-- The same state in a hasher of its own. -/
def copy (h : BlockHasher) : BlockHasher :=
  ⟨h.sponge.copy⟩

/-- Runs a call on the sponge. -/
def onSponge {α : Type} (c : Call Sponge α) : Call BlockHasher α :=
  Call.inside BlockHasher.sponge (fun s _ => ⟨s⟩) c

theorem onSponge_ok {α : Type} {c : Call Sponge α} {h : BlockHasher} {l l' : List Event} {a : α}
    {s : Sponge} (hc : c ⟨h.sponge, l⟩ = .ok a ⟨s, l'⟩) :
    onSponge c ⟨h, l⟩ = .ok a ⟨⟨s⟩, l'⟩ := by
  rw [onSponge, Call.inside_ok (o := ⟨h, l⟩) hc]

/-- Clears the hasher for the next message. -/
def reset : Call BlockHasher Unit :=
  onSponge Sponge.reset

/-- Absorbs blocks, from the first. -/
def update (blocks : List Bytes) : Call BlockHasher Unit :=
  Call.each (fun b => onSponge (Sponge.absorb b)) blocks

/-- Finalizes with the rest of the message, which is shorter than a block, over an output of the
    caller's. -/
def finalizeOver (rest output : Bytes) : Call BlockHasher Bytes := do
  let size := (← Call.current).params.blockSize
  onSponge (Sponge.framed (zeroFill size rest) output do
    Sponge.Frame.finalize rest.length
    return (← Call.current).output)

/-- Finalizes with the rest of the message into an output of its own. -/
def finalizeRest (rest : Bytes) : Call BlockHasher Bytes := do
  let size := (← Call.current).params.outputSize
  finalizeOver rest (List.replicate size 0)

/-- Finalizes with the end of the message, of any length. -/
def finalize (tail : Bytes) : Call BlockHasher Bytes := do
  let (blocks, rest) := split (← Call.current).params.blockSize tail
  update blocks
  finalizeRest rest

/-- The name of the algorithm. -/
def algorithmName (h : BlockHasher) : String :=
  h.params.variant.name

/-- The hasher on one line. -/
def debug (h : BlockHasher) : String :=
  "Sha3Core<" ++ h.params.variant.name ++ "> \x7b ... \x7d"

end BlockHasher

end Sha3
