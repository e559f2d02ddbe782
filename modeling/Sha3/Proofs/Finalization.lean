import Sha3.Proofs.Blocks
import Sha3.Session.Histories

/-! What a finalization comes to, for any arguments. It is refused before anything happens, or it
    absorbs its final blocks and answers the digest:

        block, valid length, output  ──refusal──▶  fault, all as it was
                    │ none
                    ▼
        absorbAll (finalBlocks …)  ──▶  digest in the output, the last of the blocks in the block

    The final blocks are those of the message that the block holds (`finalBlocks_eq`). So behind
    blocks that were absorbed before, the digest is that of all the bytes (`digest_absorbAll`).

    In a session the two finalizations have one outcome, `finalization`, and differ in their replies
    (`perform_extract`, `perform_finalize`). -/

namespace Sha3.Sponge

/-! ### The digest -/

/-- Absorbing the blocks of `m` behind whole blocks gives the digest of all the bytes. -/
theorem digest_absorbAll {s : Sponge} {blocks : List Bytes} (hs : s.bytes = stateAfter blocks)
    (h : ∀ b ∈ blocks, b.length = s.variant.rate) (m : Bytes) :
    (s.absorbAll (blocksOf s.variant m)).digest = digestOf s.variant (blocks.flatten ++ m) := by
  rw [digest, bytes_absorbAll, variant_absorbAll, hs, ← stateAfter_append,
    ← blocksOf_flatten_append h]
  rfl

/-- The digest of a message is that of the sponge which has absorbed its blocks. -/
theorem digest_absorbAll_fresh (v : Variant) (m : Bytes) :
    ((fresh v).absorbAll (blocksOf v m)).digest = digestOf v m := by
  have h : ∀ b ∈ ([] : List Bytes), b.length = (fresh v).variant.rate := by simp
  exact digest_absorbAll rfl h m

/-- The empty message has one block, which is all padding whatever stood in it. -/
theorem blocksOf_nil {v : Variant} {block : Bytes} (h : block.length = v.rate) :
    blocksOf v [] = [paddedBytes 0 v.suffix block] := by
  have h0 : 0 < block.length := h ▸ v.rate_pos
  rw [blocksOf_eq, split_of_lt (m := []) v.rate_pos, paddedBytes_eq h0, h]
  rfl

/-- A finalization absorbs the blocks of its valid bytes. -/
theorem finalBlocks_eq {v : Variant} {block : Bytes} {n : Nat} (hb : block.length = v.rate)
    (hn : n ≤ v.rate) : finalBlocks v block n = blocksOf v (block.take n) := by
  rw [finalBlocks]
  rcases Nat.eq_or_lt_of_le hn with h | hlt
  · have hfull : ∀ b ∈ [block], b.length = v.rate := by
      rintro b hm
      rw [List.mem_singleton.1 hm, hb]
    have happ := blocksOf_flatten_append hfull []
    rw [List.flatten_singleton, List.append_nil, blocksOf_nil hb] at happ
    rw [if_pos h, h, ← hb, List.take_length, happ]
    rfl
  · have hl : (block.take n).length = n := List.length_take_of_le (by omega)
    rw [if_neg (Nat.ne_of_lt hlt), paddedBytes_eq (by omega), blocksOf_eq, split_of_lt (by omega),
      hl, hb]
    rfl

/-! ### Acceptance and refusal -/

/-- The checks come in order: a fault tells that those before it were passed, and no fault that all
    of them were. -/
theorem refusal_cases (v : Variant) (block : Bytes) (n m : Nat) :
    (refusal v block n m = some (.padLength v block.length) ∧ block.length ≠ v.rate) ∨
    (refusal v block n m = some (.validLength v n) ∧ block.length = v.rate ∧ v.rate < n) ∨
    (refusal v block n m = some (.digestLength v m) ∧ block.length = v.rate ∧ n ≤ v.rate ∧
      m ≠ v.digestLength) ∨
    (refusal v block n m = none ∧ block.length = v.rate ∧ n ≤ v.rate ∧ m = v.digestLength) := by
  rcases Decidable.em (block.length = v.rate) with hb | hb
  · rcases Nat.lt_or_ge v.rate n with hn | hn
    · exact .inr (.inl ⟨by simp [refusal, hb, hn], hb, hn⟩)
    · have hn' : ¬v.rate < n := Nat.not_lt.2 hn
      rcases Decidable.em (m = v.digestLength) with hm | hm
      · exact .inr (.inr (.inr ⟨by simp [refusal, hb, hn', hm], hb, hn, hm⟩))
      · exact .inr (.inr (.inl ⟨by simp [refusal, hb, hn', hm], hb, hn, hm⟩))
  · exact .inl ⟨by simp [refusal, hb], hb⟩

theorem refusal_eq_none_iff {v : Variant} {block : Bytes} {n m : Nat} :
    refusal v block n m = none ↔ block.length = v.rate ∧ n ≤ v.rate ∧ m = v.digestLength := by
  rcases refusal_cases v block n m with ⟨hr, hb⟩ | ⟨hr, -, hn⟩ | ⟨hr, -, -, hm⟩ | ⟨hr, h⟩
  · simp [hr, hb]
  · simp [hr, Nat.not_le.2 hn]
  · simp [hr, hm]
  · exact ⟨fun _ => h, fun _ => hr⟩

namespace Frame

/-- The frame after a finalization with `n` valid bytes. -/
def closed (n : Nat) (f : Frame) : Frame :=
  let blocks := finalBlocks f.sponge.variant f.block n
  let s := f.sponge.absorbAll blocks
  ⟨s, blocks.getLastD f.block, s.digest⟩

/-- A block with room for padding is padded and absorbed. -/
theorem closed_of_lt {n : Nat} {f : Frame} (hn : n < f.sponge.variant.rate) :
    f.closed n = f.after n := by
  rw [closed, finalBlocks, if_neg (Nat.ne_of_lt hn)]
  rfl

/-- A refused finalization leaves everything as it was. -/
theorem finalize_of_refusal {n : Nat} {f : Frame} {e : Fault}
    (h : refusal f.sponge.variant f.block n f.output.length = some e) (l : List Event) :
    finalize n ⟨f, l⟩ = .error (.fault e) ⟨f, l⟩ := by
  rw [finalize, Call.current_bind]
  rcases refusal_cases f.sponge.variant f.block n f.output.length with
    ⟨hr, hb⟩ | ⟨hr, hb, hn⟩ | ⟨hr, hb, hn, ho⟩ | ⟨hr, -⟩ <;> cases hr.symm.trans h
  · exact Call.bind_error (Call.demand_of_not hb _ _)
  · refine (Call.bind_ok (Call.demand_of hb _ _)).trans ?_
    exact Call.bind_error (Call.demand_of_not (Nat.not_le.2 hn) _ _)
  · refine (Call.bind_ok (Call.demand_of hb _ _)).trans ?_
    refine (Call.bind_ok (Call.demand_of hn _ _)).trans ?_
    exact Call.bind_error (Call.demand_of_not ho _ _)

/-- A block that is all message is absorbed first, and a block of padding follows it. -/
theorem finalize_rate {f : Frame} (hb : f.block.length = f.sponge.variant.rate)
    (ho : f.output.length = f.sponge.variant.digestLength) (l : List Event) :
    finalize f.sponge.variant.rate ⟨f, l⟩ =
      .ok () ⟨after 0 { f with sponge := (f.sponge.mix f.block).permute },
        l ++ [.finalizing f.sponge.variant f.sponge.variant.rate]⟩ := by
  rw [finalize, Call.current_bind]
  refine (Call.bind_ok (Call.demand_of hb _ _)).trans ?_
  refine (Call.bind_ok (Call.demand_of (Nat.le_refl _) _ _)).trans ?_
  refine (Call.bind_ok (Call.demand_of ho _ _)).trans ?_
  refine (Call.bind_ok (Call.tell_apply _ _)).trans ?_
  simp only [↓reduceIte]
  refine (Call.bind_ok (absorbBlock_apply hb _)).trans ?_
  refine (Call.bind_ok (padBlock_apply (by rw [hb]; exact Variant.rate_pos _) _)).trans ?_
  refine (Call.bind_ok (absorbBlock_apply ?_ _)).trans rfl
  simp only [length_paddedBytes, variant_permute, variant_mix]
  exact hb

/-- An accepted finalization absorbs its final blocks and answers the digest. -/
theorem finalize_of_accepted {n : Nat} {f : Frame}
    (h : refusal f.sponge.variant f.block n f.output.length = none) (l : List Event) :
    finalize n ⟨f, l⟩ = .ok () ⟨f.closed n, l ++ [.finalizing f.sponge.variant n]⟩ := by
  obtain ⟨hb, hn, ho⟩ := refusal_eq_none_iff.1 h
  rcases Nat.eq_or_lt_of_le hn with rfl | hr
  · rw [finalize_rate hb ho l]
    simp only [closed, finalBlocks, after, variant_permute, variant_mix]
    rfl
  · rw [finalize_apply hb hr ho l, closed_of_lt hr]

/-- The output of an extraction has room for the digest, so it is the caller's block and length that
    decide. -/
theorem extract_of_refusal {n : Nat} {f : Frame} {e : Fault}
    (h : refusal f.sponge.variant f.block n f.sponge.variant.digestLength = some e)
    (l : List Event) : extract n ⟨f, l⟩ = .error (.fault e)
      ⟨{ f with output := List.replicate f.sponge.variant.digestLength 0 }, l⟩ := by
  refine (Call.bind_ok (Call.change_apply _ _)).trans ?_
  refine Call.bind_error (finalize_of_refusal ?_ l)
  simpa only [List.length_replicate] using h

theorem extract_of_accepted {n : Nat} {f : Frame}
    (h : refusal f.sponge.variant f.block n f.sponge.variant.digestLength = none)
    (l : List Event) : extract n ⟨f, l⟩ =
      .ok (f.closed n).output ⟨f.closed n, l ++ [.finalizing f.sponge.variant n]⟩ := by
  refine (Call.bind_ok (Call.change_apply _ _)).trans ?_
  refine (Call.bind_ok (finalize_of_accepted ?_ l)).trans rfl
  simpa only [List.length_replicate] using h

/-- A block that holds the rest of a message and zeros closes with the blocks of that rest. -/
theorem closed_zeroFill (s : Sponge) {rest : Bytes} (hr : rest.length < s.variant.rate)
    (output : Bytes) :
    (closed rest.length ⟨s, zeroFill s.variant.rate rest, output⟩).sponge =
      s.absorbAll (blocksOf s.variant rest) := by
  have hz : (zeroFill s.variant.rate rest).length = s.variant.rate :=
    length_zeroFill (Nat.le_of_lt hr)
  rw [closed]
  dsimp only
  rw [finalBlocks_eq hz (Nat.le_of_lt hr), zeroFill, List.take_left]

end Frame

/-! ### In a session -/

/-- The sponge after a finalization, the digest, and the caller's block as it is left. -/
def finalized (s : Sponge) (block : Bytes) (n : Nat) : Sponge × Bytes × Bytes :=
  let blocks := finalBlocks s.variant block n
  let t := s.absorbAll blocks
  (t, t.digest, blocks.getLastD block)

section Outcome

variable {σ : Type}

/-- What a finalization by an object `x` comes to: a refusal, and all is as it was, or what `closed`
    holds. The output has room for `room` bytes. -/
def finalization (x : σ) (v : Variant) (block : Bytes) (n room : Nat) (closed : σ × Bytes × Bytes)
    (reply : Option Bytes → Bytes → Reply) : Outcome σ Reply :=
  match refusal v block n room with
  | some e => ⟨some x, reply none block, some (.fault e), []⟩
  | none => ⟨some closed.1, reply (some closed.2.1) closed.2.2, none, [.finalizing v n]⟩

theorem failure_finalization (x : σ) (v : Variant) (block : Bytes) (n room : Nat)
    (closed : σ × Bytes × Bytes) (reply : Option Bytes → Bytes → Reply) :
    (finalization x v block n room closed reply).failure =
      (refusal v block n room).map .fault := by
  rw [finalization]
  cases refusal v block n room with
  | some e => rfl
  | none => rfl

end Outcome

theorem perform_extract (s : Sponge) (block : Bytes) (n : Nat) :
    s.perform (.extract block n) =
      finalization s s.variant block n s.variant.digestLength (s.finalized block n)
        .extracted := by
  rw [perform, outcomeOfFrame, finalization]
  cases hr : refusal s.variant block n s.variant.digestLength with
  | some e => rw [Frame.extract_of_refusal hr]
  | none =>
    rw [Frame.extract_of_accepted hr]
    rfl

theorem perform_finalize (s : Sponge) (block : Bytes) (n : Nat) (output : Bytes) :
    s.perform (.finalize block n output) =
      finalization s s.variant block n output.length (s.finalized block n)
        fun digest left => .finalized digest left (digest.getD output) := by
  rw [perform, outcomeOfFrame, finalization]
  cases hr : refusal s.variant block n output.length with
  | some e =>
    rw [Frame.finalize_of_refusal hr]
    rfl
  | none =>
    rw [Frame.finalize_of_accepted hr]
    rfl

namespace Past

theorem perform_extract (p : Past) (block : Bytes) (n : Nat) :
    p.perform (.extract block n) =
      finalization p p.variant block n p.variant.digestLength (p.finalized block n)
        .extracted := by
  rw [perform]
  unfold finalization
  cases refusal p.variant block n p.variant.digestLength with
  | some e => rfl
  | none => rfl

theorem perform_finalize (p : Past) (block : Bytes) (n : Nat) (output : Bytes) :
    p.perform (.finalize block n output) =
      finalization p p.variant block n output.length (p.finalized block n)
        fun digest left => .finalized digest left (digest.getD output) := by
  rw [perform]
  unfold finalization
  cases refusal p.variant block n output.length with
  | some e => rfl
  | none => rfl

end Past

end Sha3.Sponge
