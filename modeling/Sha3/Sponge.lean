import Sha3.Absorption
import Sha3.Call
import Sha3.Padding

/-! A sponge bound to one variant. It takes whole blocks only: a block is mixed into the rate of the
    state, and the state is permuted. At the end the last block is padded, mixed in like the others,
    and the digest is read off the front of the state:

        state ──mix block──▶ ──permute──▶ … ──mix padded block──▶ ──permute──▶ digest

    The sponge keeps the lanes of its last permutation as scratch; a copy starts with its own.

    The `_apply` lemmas say what each call comes to, when its arguments fit and when they do not. -/

namespace Sha3

structure Sponge where
  variant : Variant
  bytes : Keccak.StateBytes
  scratch : Keccak.Lanes

namespace Sponge

/-- A sponge with nothing in it. -/
def fresh (v : Variant) : Sponge :=
  ⟨v, zeroState, .replicate 25 0⟩

/-- Makes a sponge. -/
def create {τ : Type} (v : Variant) : Call τ Sponge := do
  Call.tell (.initialised v)
  return fresh v

theorem create_apply {τ : Type} (v : Variant) (o : Observed τ) :
    create v o = .ok (fresh v) ⟨o.object, o.log ++ [.initialised v]⟩ := by
  rw [create]
  exact (Call.bind_ok (Call.tell_apply _ _)).trans rfl

/-- The same state with scratch of its own. -/
def copy (s : Sponge) : Sponge :=
  { s with scratch := .replicate 25 0 }

/-- The same variant with nothing in it. -/
def cleared (s : Sponge) : Sponge :=
  fresh s.variant

/-- Clears the sponge for the next message. -/
def reset : Call Sponge Unit := do
  Call.tell (.reset (← Call.current).variant)
  Call.change cleared

/-- Clears the sponge and tells nobody. -/
def zeroize : Call Sponge Unit :=
  Call.change cleared

theorem reset_apply (s : Sponge) (l : List Event) :
    reset ⟨s, l⟩ = .ok () ⟨s.cleared, l ++ [.reset s.variant]⟩ := by
  rw [reset, Call.current_bind]
  refine (Call.bind_ok (Call.tell_apply _ _)).trans ?_
  rw [Call.change_apply]

/-- The first bytes of the state, as many as the digest has. -/
def digest (s : Sponge) : Bytes :=
  s.bytes.toList.take s.variant.digestLength

/-! ### Absorbing -/

/-- Adds a block to the front of the state. -/
def mix (s : Sponge) (block : Bytes) : Sponge :=
  { s with bytes := mixed s.bytes block }

/-- Permutes the state, through the scratch lanes. -/
def permute (s : Sponge) : Sponge :=
  let lanes := Keccak.permute (Keccak.load s.bytes s.scratch)
  { s with bytes := Keccak.store lanes s.bytes, scratch := lanes }

/-- Absorbs one block, which must be as long as the rate. -/
def absorb (block : Bytes) : Call Sponge Unit := do
  let v := (← Call.current).variant
  Call.demand (block.length = v.rate) (.absorbLength v block.length)
  Call.change fun s => (s.mix block).permute

theorem variant_mix (s : Sponge) (block : Bytes) : (s.mix block).variant = s.variant := by
  unfold mix
  rfl

theorem variant_permute (s : Sponge) : s.permute.variant = s.variant := by
  unfold permute
  rfl

/-- The scratch plays no part in what becomes of the bytes. -/
theorem bytes_permute_mix (s : Sponge) (block : Bytes) :
    (s.mix block).permute.bytes = absorbed s.bytes block := by
  simp only [permute, mix, absorbed, Keccak.store_eq, Keccak.load_eq]

theorem absorb_apply {block : Bytes} {s : Sponge} (h : block.length = s.variant.rate)
    (l : List Event) : absorb block ⟨s, l⟩ = .ok () ⟨(s.mix block).permute, l⟩ := by
  rw [absorb, Call.current_bind]
  exact (Call.bind_ok (Call.demand_of h _ _)).trans rfl

theorem absorb_apply_of_ne {block : Bytes} {s : Sponge} (h : block.length ≠ s.variant.rate)
    (l : List Event) :
    absorb block ⟨s, l⟩ = .error (.fault (.absorbLength s.variant block.length)) ⟨s, l⟩ := by
  rw [absorb, Call.current_bind]
  exact Call.bind_error (Call.demand_of_not h _ _)

/-- The sponge after some blocks, from the first. -/
def absorbAll (s : Sponge) (blocks : List Bytes) : Sponge :=
  blocks.foldl (fun s b => (s.mix b).permute) s

theorem absorbAll_cons (s : Sponge) (b : Bytes) (blocks : List Bytes) :
    s.absorbAll (b :: blocks) = (s.mix b).permute.absorbAll blocks := by
  simp only [absorbAll, List.foldl_cons]

theorem absorbAll_append (s : Sponge) (blocks more : List Bytes) :
    s.absorbAll (blocks ++ more) = (s.absorbAll blocks).absorbAll more :=
  List.foldl_append

theorem variant_absorbAll (s : Sponge) (blocks : List Bytes) :
    (s.absorbAll blocks).variant = s.variant := by
  induction blocks generalizing s with
  | nil => rfl
  | cons b blocks ih => rw [absorbAll_cons, ih, variant_permute, variant_mix]

theorem bytes_absorbAll (s : Sponge) (blocks : List Bytes) :
    (s.absorbAll blocks).bytes = blocks.foldl absorbed s.bytes := by
  induction blocks generalizing s with
  | nil => rfl
  | cons b blocks ih => rw [absorbAll_cons, ih, bytes_permute_mix, List.foldl_cons]

theorem bytes_absorbAll_fresh (v : Variant) (blocks : List Bytes) :
    ((fresh v).absorbAll blocks).bytes = stateAfter blocks :=
  bytes_absorbAll (fresh v) blocks

/-- Blocks that fit are absorbed one after the other. -/
theorem each_absorb : ∀ (blocks : List Bytes) (s : Sponge) (l : List Event),
    (∀ b ∈ blocks, b.length = s.variant.rate) →
      Call.each absorb blocks ⟨s, l⟩ = .ok () ⟨s.absorbAll blocks, l⟩
  | [], _, _, _ => rfl
  | b :: blocks, s, l, h => by
    rw [Call.each_cons (absorb_apply (h b List.mem_cons_self) l), absorbAll_cons]
    refine each_absorb blocks (s.mix b).permute l fun c hc => ?_
    rw [variant_permute, variant_mix]
    exact h c (List.mem_cons_of_mem b hc)

/-! ### Finalizing -/

/-- A finalization in progress: the sponge, the caller's last block, and the caller's output. -/
structure Frame where
  sponge : Sponge
  block : Bytes
  output : Bytes

namespace Frame

/-- Runs a call on the sponge of the frame. -/
def onSponge {α : Type} (c : Call Sponge α) : Call Frame α :=
  Call.inside Frame.sponge (fun s f => { f with sponge := s }) c

/-- Pads the block in place after `len` bytes. A block without room is a violation, which is told
    before the call faults. -/
def padBlock (len : Nat) : Call Frame Unit := do
  let f ← Call.current
  match padBytes len f.sponge.variant.suffix f.block with
  | .ok _ b => Call.change fun f => { f with block := b }
  | .error e b =>
    Call.change fun f => { f with block := b }
    Call.tell (.paddingViolated f.sponge.variant e)
    throw (.fault (.padding e))

/-- Absorbs the block. -/
def absorbBlock : Call Frame Unit := do
  onSponge (absorb (← Call.current).block)

/-- Pads the block after its `validLength` bytes of message, absorbs it and writes the digest over
    the output. A block that is all message is absorbed first, and a block of padding follows it. -/
def finalize (validLength : Nat) : Call Frame Unit := do
  let f ← Call.current
  let v := f.sponge.variant
  Call.demand (f.block.length = v.rate) (.padLength v f.block.length)
  Call.demand (validLength ≤ v.rate) (.validLength v validLength)
  Call.demand (f.output.length = v.digestLength) (.digestLength v f.output.length)
  Call.tell (.finalizing v validLength)
  if validLength = v.rate then
    absorbBlock
    padBlock 0
  else
    padBlock validLength
  absorbBlock
  Call.change fun f => { f with output := f.sponge.digest }

/-- Finalizes into an output of its own and answers it. -/
def extract (validLength : Nat) : Call Frame Bytes := do
  Call.change fun f => { f with output := List.replicate f.sponge.variant.digestLength 0 }
  finalize validLength
  return (← Call.current).output

theorem padBlock_apply {len : Nat} {f : Frame} (h : len < f.block.length) (l : List Event) :
    padBlock len ⟨f, l⟩ =
      .ok () ⟨{ f with block := paddedBytes len f.sponge.variant.suffix f.block }, l⟩ := by
  simp only [padBlock, Call.current_bind, padBytes_of_lt h, Call.change_apply]

/-- A block without room is left as it was, and the violation is told. -/
theorem padBlock_apply_of_le {len : Nat} {f : Frame} (h : f.block.length ≤ len) (l : List Event) :
    let e := Error.padSize 0 f.block.length
    padBlock len ⟨f, l⟩ =
      .error (.fault (.padding e)) ⟨f, l ++ [.paddingViolated f.sponge.variant e]⟩ := by
  intro e
  simp only [padBlock, Call.current_bind, padBytes_of_le h]
  refine (Call.bind_ok (Call.change_apply _ _)).trans ?_
  exact (Call.bind_ok (Call.tell_apply _ _)).trans rfl

theorem absorbBlock_apply {f : Frame} (h : f.block.length = f.sponge.variant.rate)
    (l : List Event) :
    absorbBlock ⟨f, l⟩ = .ok () ⟨{ f with sponge := (f.sponge.mix f.block).permute }, l⟩ := by
  rw [absorbBlock, Call.current_bind]
  exact Call.inside_ok (o := ⟨f, l⟩) (absorb_apply h l)

/-- The frame after its block, valid up to `n`, is padded and absorbed. -/
def after (n : Nat) (f : Frame) : Frame :=
  let block := paddedBytes n f.sponge.variant.suffix f.block
  let s := (f.sponge.mix block).permute
  ⟨s, block, s.digest⟩

theorem finalize_apply {n : Nat} {f : Frame} (hb : f.block.length = f.sponge.variant.rate)
    (hn : n < f.sponge.variant.rate) (ho : f.output.length = f.sponge.variant.digestLength)
    (l : List Event) :
    finalize n ⟨f, l⟩ = .ok () ⟨f.after n, l ++ [.finalizing f.sponge.variant n]⟩ := by
  rw [finalize, Call.current_bind]
  refine (Call.bind_ok (Call.demand_of hb _ _)).trans ?_
  refine (Call.bind_ok (Call.demand_of (Nat.le_of_lt hn) _ _)).trans ?_
  refine (Call.bind_ok (Call.demand_of ho _ _)).trans ?_
  refine (Call.bind_ok (Call.tell_apply _ _)).trans ?_
  simp only [Nat.ne_of_lt hn, ↓reduceIte]
  refine (Call.bind_ok (padBlock_apply (by rw [hb]; exact hn) _)).trans ?_
  refine (Call.bind_ok (absorbBlock_apply ?_ _)).trans rfl
  simp only [length_paddedBytes]
  exact hb

theorem extract_apply {n : Nat} {f : Frame} (hb : f.block.length = f.sponge.variant.rate)
    (hn : n < f.sponge.variant.rate) (l : List Event) :
    extract n ⟨f, l⟩ =
      .ok (f.after n).output ⟨f.after n, l ++ [.finalizing f.sponge.variant n]⟩ := by
  refine (Call.bind_ok (Call.change_apply _ _)).trans ?_
  refine (Call.bind_ok (finalize_apply ?_ ?_ ?_ _)).trans rfl
  · exact hb
  · exact hn
  · exact List.length_replicate

end Frame

/-- Runs a finalization on the sponge with the given block and output, which are dropped after it.
    -/
def framed {α : Type} (block output : Bytes) (c : Call Frame α) : Call Sponge α :=
  Call.inside (fun s => ⟨s, block, output⟩) (fun f _ => f.sponge) c

theorem framed_ok {α : Type} {c : Call Frame α} {s : Sponge} {block output : Bytes}
    {l l' : List Event} {a : α} {f : Frame} (hc : c ⟨⟨s, block, output⟩, l⟩ = .ok a ⟨f, l'⟩) :
    framed block output c ⟨s, l⟩ = .ok a ⟨f.sponge, l'⟩ := by
  rw [framed, Call.inside_ok (o := ⟨s, l⟩) hc]

/-! ### Text -/

/-- The sponge on one line; its state stays hidden. -/
def debug (s : Sponge) : String :=
  "Sha3Engine \x7b variant: " ++ s.variant.debugName ++ ", .. \x7d"

/-- The sponge on lines of its own. -/
def debugLines (s : Sponge) : String :=
  "Sha3Engine \x7b\n    variant: " ++ s.variant.debugName ++ ",\n    ..\n\x7d"

end Sponge

/-- Hashes a whole message: absorbs its full blocks and finalizes with the rest, filled with zeros.
    -/
def hash {τ : Type} (v : Variant) (message : Bytes) : Call τ Bytes := do
  let s ← Sponge.create v
  let (blocks, rest) := split v.rate message
  Call.aside s do
    Call.each Sponge.absorb blocks
    Sponge.framed (zeroFill v.rate rest) [] (Sponge.Frame.extract rest.length)

end Sha3
