import Sha3.Proofs.Finalization
import Sha3.Proofs.Session.Refinement

/-! A sponge is the blocks it has absorbed. Whatever is done to it, in any order and with arguments
    that fit or do not, its bytes are those behind its blocks:

        made, reset, zeroized   no blocks
        absorb                  … ++ [block]
        finalization            … ++ final blocks
        any call refused        as before

    So a session of sponges is answered like one of their histories, where the digest of a
    finalization is that of all the bytes before it. -/

namespace Sha3.Sponge

/-- The sponge that has absorbed the blocks of its history. -/
structure Holds (s : Sponge) (p : Past) : Prop where
  variant : s.variant = p.variant
  full : ∀ b ∈ p.given, b.length = p.variant.rate
  bytes : s.bytes = stateAfter p.given

theorem holds_fresh (v : Variant) : Holds (fresh v) ⟨v, []⟩ :=
  ⟨rfl, fun _ h => absurd h List.not_mem_nil, rfl⟩

theorem Holds.copy {s : Sponge} {p : Past} (h : Holds s p) : Holds s.copy p :=
  ⟨h.variant, h.full, h.bytes⟩

theorem Holds.cleared {s : Sponge} {p : Past} (h : Holds s p) :
    Holds s.cleared { p with given := [] } := by
  rw [Sponge.cleared, h.variant]
  exact holds_fresh p.variant

/-- Blocks that fit, absorbed. -/
theorem Holds.absorbAll {s : Sponge} {p : Past} (h : Holds s p) (blocks : List Bytes)
    (hb : ∀ b ∈ blocks, b.length = p.variant.rate) :
    Holds (s.absorbAll blocks) { p with given := p.given ++ blocks } where
  variant := by rw [variant_absorbAll, h.variant]
  full := by
    rintro b hm
    rcases List.mem_append.1 hm with hm | hm
    · exact h.full b hm
    · exact hb b hm
  bytes := by rw [bytes_absorbAll, h.bytes, stateAfter_append]

/-- A finalization that is accepted. -/
theorem Holds.finalized {s : Sponge} {p : Past} (h : Holds s p) {block : Bytes} {n : Nat}
    (hb : block.length = p.variant.rate) (hn : n ≤ p.variant.rate) :
    Holds (s.finalized block n).1 (p.finalized block n).1 ∧
      (s.finalized block n).2 = (p.finalized block n).2 := by
  have hf := finalBlocks_eq hb hn
  have hfull : ∀ b ∈ finalBlocks p.variant block n, b.length = p.variant.rate := by
    rintro b hm
    rw [hf] at hm
    exact length_of_mem_blocksOf hm
  have hs : ∀ b ∈ p.given, b.length = s.variant.rate := by
    rw [h.variant]
    exact h.full
  have hd := digest_absorbAll h.bytes hs (block.take n)
  rw [h.variant, ← hf] at hd
  simp only [Sponge.finalized, Past.finalized, h.variant, hd]
  exact ⟨h.absorbAll _ hfull, trivial⟩

/-! ### Calls -/

theorem alike_reset {s : Sponge} {p : Past} (h : Holds s p) :
    Outcome.Alike Holds (s.perform .reset) (p.perform .reset) := by
  rw [perform, Past.perform, Outcome.ofCall, reset_apply, h.variant]
  exact ⟨.some h.cleared, rfl, rfl, rfl⟩

/-- The text of a sponge shows its variant and nothing else. -/
theorem debug_of_variant {s t : Sponge} (h : s.variant = t.variant) :
    s.debug = t.debug ∧ s.debugLines = t.debugLines := by
  unfold debug debugLines
  rw [h]
  exact ⟨rfl, rfl⟩

theorem alike_debug {s : Sponge} {p : Past} (h : Holds s p) :
    Outcome.Alike Holds (s.perform .debug) (p.perform .debug) := by
  have hv : s.variant = (fresh p.variant).variant := h.variant
  obtain ⟨hd, hl⟩ := debug_of_variant hv
  rw [perform, Past.perform, hd, hl]
  exact .ofLook h _

theorem alike_absorb {s : Sponge} {p : Past} (h : Holds s p) (block : Bytes) :
    Outcome.Alike Holds (s.perform (.absorb block)) (p.perform (.absorb block)) := by
  have hv := h.variant
  rw [perform, Past.perform, Outcome.ofCall]
  rcases eq_or_ne block.length p.variant.rate with hb | hb
  · rw [absorb_apply (by rw [hv]; exact hb), if_pos hb]
    have ha := h.absorbAll [block] (by simpa using hb)
    exact ⟨.some ha, rfl, rfl, rfl⟩
  · rw [absorb_apply_of_ne (by rw [hv]; exact hb), if_neg hb, hv]
    exact ⟨.some h, rfl, rfl, rfl⟩

/-- Finalizations by related objects are refused alike, and they are alike if those that are
    accepted leave related objects and the same to the caller. -/
theorem alike_finalization {σ τ : Type} {R : σ → τ → Prop} {x : σ} {y : τ} (hxy : R x y)
    {v : Variant} {block : Bytes} {n room : Nat} {closed : σ × Bytes × Bytes}
    {closed' : τ × Bytes × Bytes}
    (h : refusal v block n room = none → R closed.1 closed'.1 ∧ closed.2 = closed'.2)
    (reply : Option Bytes → Bytes → Reply) :
    Outcome.Alike R (finalization x v block n room closed reply)
      (finalization y v block n room closed' reply) := by
  rw [finalization, finalization]
  cases hr : refusal v block n room with
  | some e => exact ⟨.some hxy, rfl, rfl, rfl⟩
  | none =>
    obtain ⟨hc, he⟩ := h hr
    rw [he]
    exact ⟨.some hc, rfl, rfl, rfl⟩

/-- Whatever room for the digest there is, and whatever the reply shows. -/
theorem Holds.finalization {s : Sponge} {p : Past} (h : Holds s p) (block : Bytes) (n room : Nat)
    (reply : Option Bytes → Bytes → Reply) :
    Outcome.Alike Holds
      (Sponge.finalization s p.variant block n room (s.finalized block n) reply)
      (Sponge.finalization p p.variant block n room (p.finalized block n) reply) := by
  refine alike_finalization h ?_ reply
  intro hr
  obtain ⟨hb, hn, -⟩ := refusal_eq_none_iff.1 hr
  exact h.finalized hb hn

theorem alike_perform {s : Sponge} {p : Past} (h : Holds s p) :
    ∀ op, Outcome.Alike Holds (s.perform op) (p.perform op)
  | .look => .ofLook h _
  | .variant => by
    rw [perform, Past.perform, h.variant]
    exact .ofLook h _
  | .debug => alike_debug h
  | .reset => alike_reset h
  | .zeroize => by
    rw [perform, Past.perform]
    exact ⟨.some h.cleared, rfl, rfl, rfl⟩
  | .absorb block => alike_absorb h block
  | .extract block n => by
    rw [perform_extract, Past.perform_extract, h.variant]
    exact h.finalization block n _ _
  | .finalize block n output => by
    rw [perform_finalize, Past.perform_finalize, h.variant]
    exact h.finalization block n _ _

theorem Past.variant_finalization (p : Past) (block : Bytes) (n room : Nat)
    (reply : Option Bytes → Bytes → Reply) :
    (finalization p p.variant block n room (p.finalized block n) reply).object.map (·.variant) =
      some p.variant := by
  rw [finalization]
  cases refusal p.variant block n room with
  | some e => rfl
  | none => rfl

/-- No call ends a history or changes its variant. -/
theorem variant_perform (p : Past) :
    ∀ op, (p.perform op).object.map (·.variant) = some p.variant
  | .look | .variant | .debug | .reset | .zeroize => rfl
  | .absorb block => by
    rw [Past.perform]
    split
    · rfl
    · rfl
  | .extract block n => by
    rw [Past.perform_extract]
    exact p.variant_finalization block n _ _
  | .finalize block n output => by
    rw [Past.perform_finalize]
    exact p.variant_finalization block n _ _

/-- Sponges are made, copied and called like their histories. -/
theorem kind_refines : kind.Refines Holds Past.kind where
  create v _ := .ok (holds_fresh v)
  copy h := h.copy
  perform h op := .some (alike_perform h op)

/-- Every session of sponges is answered like the session of their histories, and every sponge in it
    holds its history, of the variant it was made with. The digests of the histories are those of
    hashing. -/
theorem run_alike_blocks (steps : List (Step Unit Op)) :
    Option.Rel (fun r p => List.Forall₂ (Answer.Alike Holds) r.1 p.1 ∧ r.2.Alike Holds p.2)
      (kind.run [] steps) (Past.kind.run [] steps) ∧
    (∀ (p : Past) (op : Op), (p.perform op).object.map (·.variant) = some p.variant) ∧
    ∀ v m, hash v m ⟨(), []⟩ = .ok (digestOf v m) ⟨(), .initialised v :: finalizing v m⟩ :=
  ⟨kind_refines.run steps .nil, variant_perform, fun v m => hash_apply v m _⟩

end Sha3.Sponge
