import Sha3.Proofs.Buffering
import Sha3.Proofs.Finalization

/-! What the calls on a hasher of whole blocks come to. Its sizes are those of its variant, so every
    block it hands to the sponge fits and no finalization is refused:

        update blocks       sponge.absorbAll blocks
        finalizeOver rest   sponge.absorbAll (blocksOf rest), and the digest
        finalize tail       sponge.absorbAll (blocksOf tail), and the digest

    The two finalizations come to that because they keep their contract, so any others that keep it
    come to the same (`Calls.Lawful.agree`). -/

namespace Sha3.BlockHasher

theorem create_apply {τ : Type} (v : Variant) (o : Observed τ) :
    create v o = .ok ⟨Sponge.fresh v⟩ ⟨o.object, o.log ++ [.initialised v]⟩ := by
  rw [create, Variant.variant_params]
  exact (Call.bind_ok (Sponge.create_apply v o)).trans rfl

/-- Blocks that fit are absorbed one after the other. -/
theorem update_apply : ∀ (blocks : List Bytes) (h : BlockHasher) (l : List Event),
    (∀ b ∈ blocks, b.length = h.sponge.variant.rate) →
      update blocks ⟨h, l⟩ = .ok () ⟨⟨h.sponge.absorbAll blocks⟩, l⟩
  | [], _, _, _ => rfl
  | b :: blocks, h, l, hb => by
    obtain ⟨hfit, hrest⟩ := List.forall_mem_cons.1 hb
    have ha := onSponge_ok (Sponge.absorb_apply hfit l)
    rw [← Sponge.variant_mix h.sponge b, ← Sponge.variant_permute] at hrest
    rw [Sponge.absorbAll_cons]
    refine (Call.each_cons (f := fun b => onSponge (Sponge.absorb b)) ha).trans ?_
    exact update_apply blocks ⟨(h.sponge.mix b).permute⟩ l hrest

theorem reset_apply (h : BlockHasher) (l : List Event) :
    reset ⟨h, l⟩ = .ok () ⟨⟨h.sponge.cleared⟩, l ++ [.reset h.sponge.variant]⟩ :=
  onSponge_ok (Sponge.reset_apply h.sponge l)

/-! ### Lawful calls -/

namespace Calls.Lawful

variable {c d : Calls}

/-- The rest of a message is padded and absorbed, and the digest is answered. -/
theorem finalizeOver_apply (hc : c.Lawful) {h : BlockHasher} {rest output : Bytes}
    (hr : rest.length < h.sponge.variant.rate)
    (ho : output.length = h.sponge.variant.digestLength) (l : List Event) :
    c.finalizeOver rest output ⟨h, l⟩ =
      .ok (h.sponge.absorbAll (blocksOf h.sponge.variant rest)).digest
        ⟨⟨h.sponge.absorbAll (blocksOf h.sponge.variant rest)⟩,
          l ++ [.finalizing h.sponge.variant rest.length]⟩ := by
  obtain ⟨block, hb, hf⟩ := hc.finalizeOver h rest output l (by rwa [blockSize_eq])
  rw [blockSize_eq] at hb
  let f : Sponge.Frame := ⟨h.sponge, block, output⟩
  have hfin := Sponge.Frame.finalize_of_accepted (f := f)
    (Sponge.refusal_eq_none_iff.2 ⟨hb.length, Nat.le_of_lt hr, ho⟩) l
  have hd : (f.closed rest.length).output = (f.closed rest.length).sponge.digest := by
    rw [Sponge.Frame.closed]
  rw [← Sponge.Frame.closed_zeroFill h.sponge hr output, ← hb.eq_zeroFill, ← hd]
  exact hf _ _ hfin

/-- The end of a message, of any length, is absorbed and the digest is answered. -/
theorem finalize_apply (hc : c.Lawful) (h : BlockHasher) (tail : Bytes) (l : List Event) :
    let s := h.sponge.absorbAll (blocksOf h.sponge.variant tail)
    c.finalize tail ⟨h, l⟩ =
      .ok s.digest ⟨⟨s⟩, l ++ finalizing h.sponge.variant tail⟩ := by
  intro s
  obtain ⟨groups, rest, hcut, hf⟩ := hc.finalize h tail l
  rw [blockSize_eq] at hcut
  let t := h.sponge.absorbAll groups.flatten
  have hu : Call.each update groups ⟨h, l⟩ = .ok () ⟨⟨t⟩, l⟩ := by
    rw [each_update]
    exact update_apply _ h l hcut.full
  have hv : t.variant = h.sponge.variant := Sponge.variant_absorbAll _ _
  have hs : t.absorbAll (blocksOf t.variant rest) = s := by
    rw [hv, ← Sponge.absorbAll_append, ← hcut.blocksOf_eq]
  have hl : rest.length = tail.length % h.sponge.variant.rate := by
    rw [← length_snd_split, hcut.split_eq]
  have hr : rest.length < t.variant.rate := by
    rw [hv]
    exact hcut.short
  have ho : (List.replicate (BlockHasher.mk t).params.outputSize (0 : UInt8)).length =
      t.variant.digestLength := by
    rw [List.length_replicate, outputSize_eq]
  have hfin := hc.finalizeOver_apply (h := ⟨t⟩) hr ho l
  rw [hs, hv, hl] at hfin
  exact (hf _ _ hu).trans hfin

/-- Two lawful sets of calls do the same, as far as a hasher of blocks can be asked. -/
theorem agree (hc : c.Lawful) (hd : d.Lawful) (h : BlockHasher) (l : List Event) :
    (∀ rest output, rest.length < h.sponge.variant.rate →
      output.length = h.sponge.variant.digestLength →
      c.finalizeOver rest output ⟨h, l⟩ = d.finalizeOver rest output ⟨h, l⟩) ∧
    ∀ tail, c.finalize tail ⟨h, l⟩ = d.finalize tail ⟨h, l⟩ := by
  refine ⟨?_, ?_⟩
  · intro rest output hr ho
    rw [hc.finalizeOver_apply hr ho, hd.finalizeOver_apply hr ho]
  · intro tail
    rw [hc.finalize_apply, hd.finalize_apply]

end Calls.Lawful

/-- An output of its own has room for the digest. -/
theorem finalizeRest_apply {h : BlockHasher} {rest : Bytes}
    (hr : rest.length < h.sponge.variant.rate) (l : List Event) :
    finalizeRest rest ⟨h, l⟩ =
      .ok (h.sponge.absorbAll (blocksOf h.sponge.variant rest)).digest
        ⟨⟨h.sponge.absorbAll (blocksOf h.sponge.variant rest)⟩,
          l ++ [.finalizing h.sponge.variant rest.length]⟩ := by
  have ho : (List.replicate h.params.outputSize (0 : UInt8)).length =
      h.sponge.variant.digestLength := by
    rw [List.length_replicate, outputSize_eq]
  rw [finalizeRest, Call.current_bind]
  exact calls_lawful.finalizeOver_apply hr ho l

theorem finalize_apply (h : BlockHasher) (tail : Bytes) (l : List Event) :
    let s := h.sponge.absorbAll (blocksOf h.sponge.variant tail)
    finalize tail ⟨h, l⟩ =
      .ok s.digest ⟨⟨s⟩, l ++ finalizing h.sponge.variant tail⟩ :=
  calls_lawful.finalize_apply h tail l

end Sha3.BlockHasher
