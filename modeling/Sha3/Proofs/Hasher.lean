import Sha3.Proofs.BlockHasher

/-! What the calls on a streaming hasher come to. Its bytes are pending until they fill a block, and
    the last of them are padded at the end:

        update piece     sponge.absorbAll blocks, and the rest is pending
        reset            a hasher that has just been made
        finalize         sponge.absorbAll (blocksOf pending), and the digest
        finalizeReset    the digest, and a hasher that has just been made
        finalizeOver     the same, or a refusal

    This is said of any calls that keep the contract, so two sets of them agree
    (`Calls.Lawful.agree`). Those that are defined are one such set (`calls_lawful`). -/

namespace Sha3.Hasher

theorem create_apply {τ : Type} (v : Variant) (o : Observed τ) :
    create v o = .ok (around ⟨Sponge.fresh v⟩) ⟨o.object, o.log ++ [.initialised v]⟩ := by
  rw [create]
  exact (Call.bind_ok (BlockHasher.create_apply v o)).trans rfl

/-- The sponge after the end of the message. -/
def closed (h : Hasher) : Sponge :=
  h.inner.sponge.absorbAll (blocksOf h.inner.sponge.variant h.pending)

theorem variant_closed (h : Hasher) : h.closed.variant = h.inner.sponge.variant :=
  Sponge.variant_absorbAll _ _

/-- A digest answered by the hasher of blocks, and then a reset of it. -/
theorem then_reset {h : Hasher} {x : Call BlockHasher Bytes} {l l' : List Event}
    (hx : x ⟨h.inner, l⟩ = .ok h.closed.digest ⟨⟨h.closed⟩, l'⟩) :
    (do let digest ← x; BlockHasher.reset; return digest) ⟨h.inner, l⟩ =
      .ok h.closed.digest
        ⟨⟨Sponge.fresh h.inner.sponge.variant⟩, l' ++ [.reset h.inner.sponge.variant]⟩ := by
  have hr := BlockHasher.reset_apply ⟨h.closed⟩ l'
  rw [Sponge.cleared, variant_closed] at hr
  exact (Call.bind_ok hx).trans ((Call.bind_ok hr).trans rfl)

namespace Calls.Lawful

variable {c d : Calls} {h : Hasher}

theorem update_apply (hc : c.Lawful) (h : Hasher) (piece : Bytes) (l : List Event) :
    let s := split h.inner.sponge.variant.rate (h.pending ++ piece)
    c.update piece ⟨h, l⟩ = .ok () ⟨⟨⟨h.inner.sponge.absorbAll s.1⟩, s.2⟩, l⟩ := by
  obtain ⟨groups, rest, hcut, hp⟩ := hc.update h piece
  rw [BlockHasher.blockSize_eq] at hcut
  have hu := BlockHasher.update_apply _ h.inner l hcut.full
  rw [← BlockHasher.each_update] at hu
  rw [hcut.split_eq]
  exact hp _ _ _ _ hu

theorem write_apply (hc : c.Lawful) (h : Hasher) (piece : Bytes) (l : List Event) :
    let s := split h.inner.sponge.variant.rate (h.pending ++ piece)
    c.write piece ⟨h, l⟩ = .ok piece.length ⟨⟨⟨h.inner.sponge.absorbAll s.1⟩, s.2⟩, l⟩ := by
  rw [hc.write]
  exact (Call.bind_ok (hc.update_apply h piece l)).trans rfl

theorem reset_apply (hc : c.Lawful) (h : Hasher) (l : List Event) :
    c.reset ⟨h, l⟩ =
      .ok () ⟨around ⟨h.inner.sponge.cleared⟩, l ++ [.reset h.inner.sponge.variant]⟩ :=
  hc.reset h _ _ _ _ (BlockHasher.reset_apply h.inner l)

/-- The bytes that are pending are padded and absorbed, and the digest is answered. -/
theorem finalize_apply (hc : c.Lawful) (hs : h.pending.length < h.inner.sponge.variant.rate)
    (l : List Event) : ∃ left, c.finalize ⟨h, l⟩ = .ok h.closed.digest
      ⟨⟨⟨h.closed⟩, left⟩, l ++ [.finalizing h.inner.sponge.variant h.pending.length]⟩ := by
  obtain ⟨left, hp⟩ := hc.finalize h
  refine ⟨left, hp _ _ _ _ ?_⟩
  exact BlockHasher.finalizeRest_apply hs l

/-- After a digest the hasher is as one that has just been made. -/
theorem finalizeReset_apply (hc : c.Lawful)
    (hs : h.pending.length < h.inner.sponge.variant.rate) (l : List Event) :
    c.finalizeReset ⟨h, l⟩ = .ok h.closed.digest
      ⟨around ⟨Sponge.fresh h.inner.sponge.variant⟩,
        l ++ [.finalizing h.inner.sponge.variant h.pending.length]
          ++ [.reset h.inner.sponge.variant]⟩ :=
  hc.finalizeReset h _ _ _ _ (then_reset (BlockHasher.finalizeRest_apply hs l))

theorem finalizeOver_apply (hc : c.Lawful)
    (hs : h.pending.length < h.inner.sponge.variant.rate) {output : Bytes}
    (ho : output.length = h.outputSize) (l : List Event) :
    c.finalizeOver output ⟨h, l⟩ = .ok h.closed.digest
      ⟨around ⟨Sponge.fresh h.inner.sponge.variant⟩,
        l ++ [.finalizing h.inner.sponge.variant h.pending.length]
          ++ [.reset h.inner.sponge.variant]⟩ := by
  have hd : output.length = h.inner.sponge.variant.digestLength := by
    rw [ho, outputSize, BlockHasher.outputSize_eq]
  have hf := BlockHasher.calls_lawful.finalizeOver_apply hs hd l
  exact hc.finalizeOver h output ho _ _ _ _ (then_reset hf)

/-- Two lawful sets of calls do the same to a hasher that is short of a block. -/
theorem agree (hc : c.Lawful) (hd : d.Lawful)
    (hs : h.pending.length < h.inner.sponge.variant.rate) (l : List Event) :
    (∀ piece, c.update piece ⟨h, l⟩ = d.update piece ⟨h, l⟩) ∧
    (∀ piece, c.write piece ⟨h, l⟩ = d.write piece ⟨h, l⟩) ∧
    c.reset ⟨h, l⟩ = d.reset ⟨h, l⟩ ∧
    (∃ digest inner left left' l', c.finalize ⟨h, l⟩ = .ok digest ⟨⟨inner, left⟩, l'⟩ ∧
      d.finalize ⟨h, l⟩ = .ok digest ⟨⟨inner, left'⟩, l'⟩) ∧
    c.finalizeReset ⟨h, l⟩ = d.finalizeReset ⟨h, l⟩ ∧
    ∀ output, c.finalizeOver output ⟨h, l⟩ = d.finalizeOver output ⟨h, l⟩ := by
  have hu : ∀ piece, c.update piece ⟨h, l⟩ = d.update piece ⟨h, l⟩ := by
    intro piece
    rw [hc.update_apply, hd.update_apply]
  refine ⟨hu, ?write, ?reset, ?finalize, ?finalizeReset, ?finalizeOver⟩
  case write =>
    intro piece
    rw [hc.write_apply, hd.write_apply]
  case reset => rw [hc.reset_apply, hd.reset_apply]
  case finalize =>
    obtain ⟨left, hf⟩ := hc.finalize_apply hs l
    obtain ⟨left', hf'⟩ := hd.finalize_apply hs l
    exact ⟨_, _, left, left', _, hf, hf'⟩
  case finalizeReset => rw [hc.finalizeReset_apply hs, hd.finalizeReset_apply hs]
  case finalizeOver =>
    intro output
    by_cases ho : output.length = h.outputSize
    · rw [hc.finalizeOver_apply hs ho, hd.finalizeOver_apply hs ho]
    · rw [hc.refused h output l ho, hd.refused h output l ho]

end Calls.Lawful

end Sha3.Hasher
