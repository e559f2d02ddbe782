import Sha3.Proofs.Session.BlockHashers
import Sha3.Session.Requests

/-! Every request that hashing and the hashers make fits, and is met. A hasher works on its sponge
    by its requests alone: they tell what its operation tells, and leave the sponge that it leaves.

        hasher ──operation──▶ hasher
          │ sponge              │ sponge
        sponge ──requests───▶ sponge -/

namespace Sha3

open Sponge (Request)

namespace Sponge

theorem ask_append (rs rs' : List Request) : ask (rs ++ rs') = (do ask rs; ask rs') :=
  Call.each_append Request.call rs rs'

namespace Serves

theorem nil (s : Sponge) : s.Serves [] s [] where
  fits := by simp
  variant := rfl
  served l := by
    rw [List.append_nil]
    rfl

theorem append {s t u : Sponge} {rs rs' : List Request} {l l' : List Event} (h : s.Serves rs t l)
    (h' : t.Serves rs' u l') : s.Serves (rs ++ rs') u (l ++ l') where
  fits := by
    intro r hr
    rcases List.mem_append.1 hr with hr | hr
    · exact h.fits r hr
    · rw [← h.variant]
      exact h'.fits r hr
  variant := h'.variant.trans h.variant
  served l₀ := by
    rw [ask_append, ← List.append_assoc]
    exact (Call.bind_ok (h.served l₀)).trans (h'.served (l₀ ++ l))

/-- One request, met. -/
theorem singleton {s t : Sponge} {r : Request} {log : List Event} (hr : r.Fits s.variant)
    (hv : t.variant = s.variant) (h : ∀ l, r.call ⟨s, l⟩ = .ok () ⟨t, l ++ log⟩) :
    s.Serves [r] t log where
  fits := by simpa using hr
  variant := hv
  served l := (Call.each_cons (h l)).trans rfl

end Serves

theorem serves_reset (s : Sponge) : s.Serves [.reset] s.cleared [.reset s.variant] :=
  .singleton trivial rfl (reset_apply s)

/-- Blocks that fit are absorbed. -/
theorem serves_absorb {blocks : List Bytes} {s : Sponge}
    (h : ∀ b ∈ blocks, b.length = s.variant.rate) :
    s.Serves (blocks.map .absorb) (s.absorbAll blocks) [] := by
  induction blocks generalizing s with
  | nil => exact .nil s
  | cons b blocks ih =>
    obtain ⟨hb, ht⟩ := List.forall_mem_cons.1 h
    have hv : (s.mix b).permute.variant = s.variant := by rw [variant_permute, variant_mix]
    have h1 : s.Serves [.absorb b] (s.mix b).permute [] := by
      refine .singleton hb hv ?_
      intro l
      rw [List.append_nil]
      exact absorb_apply hb l
    rw [← hv] at ht
    rw [List.map_cons, absorbAll_cons]
    exact h1.append (ih ht)

theorem serves_ofBlocks (s : Sponge) (m : Bytes) :
    s.Serves (Request.ofBlocks s.variant.rate m) (s.absorbAll (split s.variant.rate m).1) [] := by
  apply serves_absorb
  intro b hb
  exact length_of_mem_split hb

/-- The rest of a message is padded and absorbed. -/
theorem serves_ofRest {s : Sponge} {rest output : Bytes} (hr : rest.length < s.variant.rate)
    (ho : output.length = s.variant.digestLength) :
    s.Serves [Request.ofRest s.variant.rate rest output] (s.absorbAll (blocksOf s.variant rest))
      [.finalizing s.variant rest.length] := by
  have hz : (zeroFill s.variant.rate rest).length = s.variant.rate :=
    length_zeroFill (Nat.le_of_lt hr)
  refine .singleton ⟨hz, hr, ho⟩ (variant_absorbAll _ _) ?_
  intro l
  have hf := Frame.finalize_of_accepted (f := ⟨s, zeroFill s.variant.rate rest, output⟩)
    (refusal_eq_none_iff.2 ⟨hz, Nat.le_of_lt hr, ho⟩) l
  rw [← Frame.closed_zeroFill s hr output]
  exact framed_ok hf

theorem serves_ofMessage (s : Sponge) (m : Bytes) {output : Bytes}
    (ho : output.length = s.variant.digestLength) :
    s.Serves (Request.ofMessage s.variant.rate m output) (s.absorbAll (blocksOf s.variant m))
      (finalizing s.variant m) := by
  have h := serves_ofBlocks s m
  have hv := h.variant
  have hr := length_rest_lt s.variant m
  rw [← hv] at ho hr
  have h' := serves_ofRest hr ho
  have hb := (cut_split s.variant.rate_pos m).blocksOf_eq
  rw [hv, length_snd_split, ← absorbAll_append, ← hb] at h'
  exact h.append h'

end Sponge

/-- The output of a variant has room for its digest. -/
theorem length_output (v : Variant) : v.params.output.length = v.digestLength := by
  rw [Params.output, List.length_replicate, Variant.outputSize_params]

/-- Hashing answers the digest of the sponge that has absorbed the blocks of the message. -/
theorem hash_eq_digest (v : Variant) (m : Bytes) : hash v m ⟨(), []⟩ =
    .ok ((Sponge.fresh v).absorbAll (blocksOf v m)).digest
      ⟨(), .initialised v :: finalizing v m⟩ := by
  rw [hash_apply, Sponge.digest_absorbAll_fresh]
  rfl

namespace BlockHasher

theorem length_output (h : BlockHasher) :
    h.params.output.length = h.sponge.variant.digestLength := by
  rw [params, Sha3.length_output]

end BlockHasher

namespace Hasher

/-- The rest of the message is short of a block, so a digest can be asked for. -/
theorem Holds.serves_ofRest {h : Hasher} {p : Past} (hh : Holds h p) {output : Bytes}
    (ho : output.length = p.variant.digestLength) :
    h.inner.sponge.Serves [Request.ofRest h.inner.params.blockSize h.pending output]
      (h.inner.sponge.absorbAll (blocksOf p.variant h.pending)) (finalizing p.variant p.given) := by
  have hl : h.pending.length = p.given.length % p.variant.rate := by
    rw [hh.pending_eq, length_snd_split]
  rw [BlockHasher.blockSize_eq, finalizing, ← hl, ← hh.variant]
  apply Sponge.serves_ofRest
  · rw [hh.variant]
    exact hh.short
  · rw [hh.variant]
    exact ho

/-- A digest and then a reset. The sponge is as new. -/
theorem Holds.serves_ofRest_reset {h : Hasher} {p : Past} (hh : Holds h p) {output : Bytes}
    (ho : output.length = p.variant.digestLength) :
    h.inner.sponge.Serves [Request.ofRest h.inner.params.blockSize h.pending output, .reset]
      (Sponge.fresh p.variant) (finalizing p.variant p.given ++ [.reset p.variant]) := by
  have h₁ := hh.serves_ofRest ho
  have h₂ := Sponge.serves_reset (h.inner.sponge.absorbAll (blocksOf p.variant h.pending))
  rw [Sponge.cleared, h₁.variant, hh.variant] at h₂
  exact h₁.append h₂

/-- A piece of the message fills blocks, which the sponge absorbs. -/
theorem serves_update (h : Hasher) (piece : Bytes) : ∃ t pending,
    h.inner.sponge.Serves (Request.ofBlocks h.inner.params.blockSize (h.pending ++ piece)) t [] ∧
      update piece ⟨h, []⟩ = .ok () ⟨⟨⟨t⟩, pending⟩, []⟩ := by
  rw [BlockHasher.blockSize_eq]
  exact ⟨_, _, Sponge.serves_ofBlocks _ _, calls_lawful.update_apply h piece []⟩

/-- The beginning of a message, fed to a hasher that has just been made, too. -/
theorem createWith_serves (v : Variant) (start : Bytes) : ∃ t pending,
    (Sponge.fresh v).Serves (Request.ofBlocks v.rate start) t [] ∧
      createWith v start ⟨(), []⟩ = .ok ⟨⟨t⟩, pending⟩ ⟨(), [.initialised v]⟩ := by
  refine ⟨_, (split v.rate start).2, Sponge.serves_ofBlocks (Sponge.fresh v) start, ?_⟩
  exact createWith_apply
    (calls_lawful.update_apply (around ⟨Sponge.fresh v⟩) start [.initialised v])

/-- Every operation makes its requests, all of them fit, and they do to the sponge what the
    operation does. -/
theorem Holds.serves {h : Hasher} {p : Past} (hh : Holds h p) (op : Op) :
    ∃ t, h.inner.sponge.Serves (h.requests op) t (h.perform op).log ∧
      ∀ h', (h.perform op).object = some h' → h'.inner.sponge = t := by
  have ha := alike_perform hh op
  have hcleared : ∀ h', (p.perform op).object = some { p with given := [] } →
      (h.perform op).object = some h' → h'.inner.sponge = Sponge.fresh p.variant := by
    intro h' hp hh'
    have ho := ha.object
    rw [hp, hh'] at ho
    cases ho with
    | some hn => rw [hn.asNew rfl]; rfl
  have ho : h.inner.params.output.length = p.variant.digestLength := by
    rw [BlockHasher.length_output, hh.variant]
  rw [ha.log]
  cases op with
  | look | debug | outputSize =>
    refine ⟨h.inner.sponge, .nil _, ?_⟩
    rintro h' ⟨⟩
    rfl
  | reset =>
    have hs := Sponge.serves_reset h.inner.sponge
    rw [Sponge.cleared, hh.variant] at hs
    exact ⟨_, hs, fun h' => hcleared h' rfl⟩
  | update piece =>
    obtain ⟨t, pending, hs, hu⟩ := serves_update h piece
    refine ⟨t, hs, ?_⟩
    rw [perform, Outcome.ofCall, hu]
    rintro h' ⟨⟩
    rfl
  | write piece =>
    obtain ⟨t, pending, hs, hu⟩ := serves_update h piece
    have hw : Hasher.write piece ⟨h, []⟩ = .ok piece.length ⟨⟨⟨t⟩, pending⟩, []⟩ :=
      (Call.bind_ok hu).trans rfl
    refine ⟨t, hs, ?_⟩
    rw [perform, Outcome.ofCall, hw]
    rintro h' ⟨⟩
    rfl
  | finalize =>
    refine ⟨_, hh.serves_ofRest ho, ?_⟩
    rintro h' ⟨⟩
  | finalizeReset => exact ⟨_, hh.serves_ofRest_reset ho, fun h' => hcleared h' rfl⟩
  | finalizeOver output =>
    rw [requests, outputSize_eq hh, Past.perform, Past.finalizeOver]
    rw [Past.perform, Past.finalizeOver] at hcleared
    by_cases hd : output.length = p.variant.digestLength
    · rw [if_pos hd, if_pos hd]
      rw [if_pos hd] at hcleared
      exact ⟨_, hh.serves_ofRest_reset hd, fun h' => hcleared h' rfl⟩
    · rw [if_neg hd, if_neg hd]
      refine ⟨h.inner.sponge, .nil _, ?_⟩
      have hr : Hasher.finalizeOver output ⟨h, []⟩ = _ :=
        calls_lawful.refused h output [] (by rwa [outputSize_eq hh])
      rw [perform, Outcome.ofCall, hr]
      rintro h' ⟨⟩
      rfl

end Hasher

namespace BlockHasher

/-- Every operation makes its requests, all of them fit, and they do to the sponge that is asked
    what the operation does. -/
theorem Holds.serves {h : BlockHasher} {p : Past} (hh : Holds h p) {op : Op}
    {r : Outcome BlockHasher Reply} (hr : h.perform op = some r) :
    ∃ t, (h.asked op).Serves (h.requests op) t r.log ∧ r.object = some (h.left t op) := by
  cases op with
  | look | variant | debug | algorithmName =>
    cases hr
    exact ⟨h.sponge, .nil _, rfl⟩
  | reset =>
    rw [perform, Outcome.ofCall, reset_apply] at hr
    cases hr
    exact ⟨_, Sponge.serves_reset h.sponge, rfl⟩
  | update data =>
    have hs := Sponge.serves_ofBlocks h.sponge data
    have hfit : ∀ b ∈ (split h.sponge.variant.rate data).1, b.length = h.sponge.variant.rate := by
      intro b hb
      exact length_of_mem_split hb
    have hu := update_apply _ h [] hfit
    rw [perform, blockSize_eq] at hr
    rw [requests, blockSize_eq]
    rcases hd : split h.sponge.variant.rate data with ⟨blocks, _ | ⟨b, rest⟩⟩
    · rw [hd] at hu hs hr
      simp only [Outcome.ofCall, hu] at hr
      cases hr
      exact ⟨_, hs, rfl⟩
    · rw [hd] at hr
      cases hr
  | finalize m =>
    have hs := Sponge.serves_ofMessage h.sponge m h.length_output
    rw [perform, Outcome.ofCall, finalize_apply] at hr
    cases hr
    rw [requests, blockSize_eq]
    exact ⟨_, hs, rfl⟩
  | digestAfter m =>
    have hs := Sponge.serves_ofMessage h.sponge.copy m h.length_output
    rw [perform, Outcome.ofCall, hh.digestAfter, ← hh.variant] at hr
    cases hr
    rw [requests, blockSize_eq]
    exact ⟨_, hs, rfl⟩

end BlockHasher

end Sha3
