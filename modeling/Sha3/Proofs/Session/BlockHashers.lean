import Sha3.Proofs.Session.Hashers
import Sha3.Proofs.Session.Sponges

/-! A hasher of blocks is the bytes it has absorbed, the padding of earlier digests among them:

        made, reset    no bytes
        update         … ++ data
        finalize       … ++ tail ++ padding
        digestAfter    as before

    The digest of a tail is that of all the bytes and the tail, whether the hasher takes the tail
    itself or a streaming hasher around a copy does. So a session of hashers is answered like one of
    their bytes, and the bytes do not remember how the blocks were grouped. -/

namespace Sha3.BlockHasher

/-- The hasher behind some bytes: they divide into blocks, and those are absorbed. -/
structure Holds (h : BlockHasher) (p : Past) : Prop where
  variant : h.sponge.variant = p.variant
  whole : p.given.length % p.variant.rate = 0
  bytes : h.sponge.bytes = stateAfter (fullBlocks p.variant.rate p.given)

theorem holds_fresh (v : Variant) : Holds ⟨Sponge.fresh v⟩ ⟨v, []⟩ where
  variant := rfl
  whole := Nat.zero_mod _
  bytes := by simp [Sponge.fresh, fullBlocks, stateAfter]

theorem Holds.copy {h : BlockHasher} {p : Past} (hh : Holds h p) : Holds h.copy p :=
  ⟨hh.variant, hh.whole, hh.bytes⟩

theorem Holds.cleared {h : BlockHasher} {p : Past} (hh : Holds h p) :
    Holds ⟨h.sponge.cleared⟩ { p with given := [] } := by
  rw [Sponge.cleared, hh.variant]
  exact holds_fresh p.variant

/-- Blocks that fit, absorbed. -/
theorem Holds.absorbAll {h : BlockHasher} {p : Past} (hh : Holds h p) {blocks : List Bytes}
    (hb : ∀ b ∈ blocks, b.length = p.variant.rate) :
    Holds ⟨h.sponge.absorbAll blocks⟩ { p with given := p.given ++ blocks.flatten } := by
  have hall : ∀ b ∈ fullBlocks p.variant.rate p.given ++ blocks, b.length = p.variant.rate := by
    intro b hm
    rcases List.mem_append.1 hm with hm | hm
    · exact length_of_mem_fullBlocks hm
    · exact hb b hm
  have hg : p.given ++ blocks.flatten = (fullBlocks p.variant.rate p.given ++ blocks).flatten := by
    rw [List.flatten_append, flatten_fullBlocks hh.whole]
  refine ⟨?_, ?_, ?_⟩
  · rw [Sponge.variant_absorbAll]
    exact hh.variant
  · dsimp only
    rw [hg, length_flatten hall, Nat.mul_mod_left]
  · dsimp only
    rw [hg, fullBlocks_flatten p.variant.rate_pos hall, Sponge.bytes_absorbAll, hh.bytes,
      stateAfter_append]

/-- The digest behind the bytes absorbed and some more. -/
theorem Holds.digest {h : BlockHasher} {p : Past} (hh : Holds h p) (m : Bytes) :
    (h.sponge.absorbAll (blocksOf p.variant m)).digest = digestOf p.variant (p.given ++ m) := by
  have hb : ∀ b ∈ fullBlocks p.variant.rate p.given, b.length = h.sponge.variant.rate := by
    intro b hm
    rw [hh.variant]
    exact length_of_mem_fullBlocks hm
  have hd := Sponge.digest_absorbAll hh.bytes hb m
  rwa [hh.variant, flatten_fullBlocks hh.whole] at hd

/-- A streaming hasher around a copy has the bytes absorbed as its message. -/
theorem Holds.around {h : BlockHasher} {p : Past} (hh : Holds h p) :
    Hasher.Holds (Hasher.around h.copy) p where
  variant := hh.variant
  bytes := hh.bytes
  pending := by simp [Hasher.around, hh.whole]
  short := p.variant.rate_pos
  asNew hn := by
    have hb := hh.bytes
    rw [hn] at hb
    rw [← hh.variant]
    simp only [Hasher.around, BlockHasher.copy, Sponge.copy, Sponge.fresh, hb]
    simp [fullBlocks, stateAfter]

/-- The digest of the end of the message is answered, and its blocks are absorbed. -/
theorem Holds.finalize {h : BlockHasher} {p : Past} (hh : Holds h p) (tail : Bytes)
    (l : List Event) : ∃ h', BlockHasher.finalize tail ⟨h, l⟩ =
        .ok (digestOf p.variant (p.given ++ tail)) ⟨h', l ++ finalizing p.variant tail⟩ ∧
      Holds h' { p with given := p.given ++ (blocksOf p.variant tail).flatten } := by
  have hfit : ∀ b ∈ blocksOf p.variant tail, b.length = p.variant.rate := by
    intro b hb
    exact length_of_mem_blocksOf hb
  refine ⟨_, ?_, hh.absorbAll hfit⟩
  rw [finalize_apply, hh.variant, hh.digest]

/-- The same digest is answered on the side. -/
theorem Holds.digestAfter {h : BlockHasher} {p : Past} (hh : Holds h p) (data : Bytes) {τ : Type}
    (o : Observed τ) : h.digestAfter data o = .ok (digestOf p.variant (p.given ++ data))
      ⟨o.object, o.log ++ finalizing p.variant data⟩ := by
  obtain ⟨h', hf⟩ := hh.around.update_finalize data o.log
  have hl : (p.given ++ data).length % p.variant.rate = data.length % p.variant.rate := by
    rw [List.length_append, Nat.add_mod, hh.whole, Nat.zero_add, Nat.mod_mod]
  rw [finalizing, hl] at hf
  exact Call.aside_ok hf

/-! ### Sessions -/

theorem alike_reset {h : BlockHasher} {p : Past} (hh : Holds h p) :
    Option.Rel (Outcome.Alike Holds) (h.perform .reset) (p.perform .reset) := by
  rw [perform, Past.perform, Outcome.ofCall, reset_apply, hh.variant]
  exact .some ⟨.some hh.cleared, rfl, rfl, rfl⟩

theorem alike_update {h : BlockHasher} {p : Past} (hh : Holds h p) (data : Bytes) :
    Option.Rel (Outcome.Alike Holds) (h.perform (.update data)) (p.perform (.update data)) := by
  have hv : h.params.blockSize = p.variant.rate := by
    rw [params, Variant.blockSize_params, hh.variant]
  rw [perform, Past.perform, hv]
  by_cases hd : data.length % p.variant.rate = 0
  · have hfit : ∀ b ∈ fullBlocks p.variant.rate data, b.length = p.variant.rate := by
      intro b hb
      exact length_of_mem_fullBlocks hb
    have ha := hh.absorbAll hfit
    have hu := update_apply (fullBlocks p.variant.rate data) h [] (by rw [hh.variant]; exact hfit)
    rw [flatten_fullBlocks hd] at ha
    rw [split_of_mod_eq_zero hd, if_pos hd]
    dsimp only
    rw [Outcome.ofCall, hu]
    exact .some ⟨.some ha, rfl, rfl, rfl⟩
  · rw [if_neg hd]
    -- the rest is not empty, so neither of the two takes the data
    rw [← length_snd_split] at hd
    generalize split p.variant.rate data = s at hd ⊢
    obtain ⟨blocks, _ | ⟨b, rest⟩⟩ := s
    · exact absurd rfl hd
    · exact .none

theorem alike_finalize {h : BlockHasher} {p : Past} (hh : Holds h p) (tail : Bytes) :
    Option.Rel (Outcome.Alike Holds) (h.perform (.finalize tail)) (p.perform (.finalize tail)) := by
  obtain ⟨h', hf, hh'⟩ := hh.finalize tail []
  rw [perform, Past.perform, Past.finalize, Outcome.ofCall, hf]
  exact .some ⟨.some hh', rfl, rfl, rfl⟩

theorem alike_digestAfter {h : BlockHasher} {p : Past} (hh : Holds h p) (data : Bytes) :
    Option.Rel (Outcome.Alike Holds) (h.perform (.digestAfter data))
      (p.perform (.digestAfter data)) := by
  rw [perform, Past.perform, Outcome.ofCall, hh.digestAfter]
  exact .some ⟨.some hh, rfl, rfl, rfl⟩

theorem alike_perform {h : BlockHasher} {p : Past} (hh : Holds h p) :
    ∀ op, Option.Rel (Outcome.Alike Holds) (h.perform op) (p.perform op)
  | .look => .some (.ofLook hh _)
  | .variant => by
    rw [perform, Past.perform, hh.variant]
    exact .some (.ofLook hh _)
  | .debug => by
    have hv : h.sponge.variant = (Sponge.fresh p.variant).variant := hh.variant
    obtain ⟨hs, -⟩ := Sponge.debug_of_variant hv
    have hd : h.debug = (BlockHasher.mk (Sponge.fresh p.variant)).debug := by
      rw [debug, debug, params, params, hv]
    rw [perform, Past.perform, hs, hd]
    exact .some (.ofLook hh _)
  | .algorithmName => by
    rw [perform, Past.perform, algorithmName, params, Variant.variant_params, hh.variant]
    exact .some (.ofLook hh _)
  | .reset => alike_reset hh
  | .update data => alike_update hh data
  | .finalize tail => alike_finalize hh tail
  | .digestAfter data => alike_digestAfter hh data

/-- Hashers of blocks are made, copied and called like the bytes they have absorbed. -/
theorem kind_refines : kind.Refines Holds Past.kind where
  create v _ := by
    have hc : kind.create v () ⟨(), []⟩ = .ok ⟨Sponge.fresh v⟩ ⟨(), [.initialised v]⟩ :=
      create_apply v _
    rw [hc]
    exact .ok (holds_fresh v)
  copy hh := hh.copy
  perform hh op := alike_perform hh op

/-- Every session of hashers of blocks is answered like the session of their bytes, and every hasher
    in it holds its bytes. A hasher answers the digest of its bytes and a tail, and one around a
    copy answers the same and leaves it alone; however blocks are grouped, the same is done. The
    digests are those of hashing. -/
theorem run_alike_bytes (steps : List (Step Unit Op)) :
    Option.Rel (fun r p => List.Forall₂ (Answer.Alike Holds) r.1 p.1 ∧ r.2.Alike Holds p.2)
      (kind.run [] steps) (Past.kind.run [] steps) ∧
    (∀ h p, Holds h p → ∀ tail l,
      (∃ h', finalize tail ⟨h, l⟩ = .ok (digestOf p.variant (p.given ++ tail))
          ⟨h', l ++ finalizing p.variant tail⟩ ∧
        Holds h' { p with given := p.given ++ (blocksOf p.variant tail).flatten }) ∧
      h.digestAfter tail ⟨h, l⟩ = .ok (digestOf p.variant (p.given ++ tail))
        ⟨h, l ++ finalizing p.variant tail⟩) ∧
    (∀ groups, Call.each update groups = update groups.flatten) ∧
    ∀ v m, hash v m ⟨(), []⟩ = .ok (digestOf v m) ⟨(), .initialised v :: finalizing v m⟩ := by
  refine ⟨kind_refines.run steps .nil, ?_, each_update, fun v m => hash_apply v m _⟩
  intro h p hh tail l
  exact ⟨hh.finalize tail l, hh.digestAfter tail _⟩

end Sha3.BlockHasher
