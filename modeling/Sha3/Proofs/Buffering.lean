import Sha3.Buffering
import Sha3.Proofs.Blocks

/-! The calls of `BlockHasher` and `Hasher` keep their contract. A cut is what `split` makes of the
    bytes, and a filled block is what `zeroFill` makes of a rest:

        pending ++ piece  ──split──▶  blocks, rest  ──zeroFill──▶  last block

    There is no other cut and no other filled block, so the contract leaves nothing open there. -/

namespace Sha3

/-! ### Cuts and filled blocks -/

theorem cut_split {n : Nat} (hn : 0 < n) (m : Bytes) : Cut n m (split n m).1 (split n m).2 where
  inOrder := flatten_split n m
  full _ hb := length_of_mem_split hb
  short := by
    rw [length_snd_split]
    exact Nat.mod_lt _ hn

theorem Cut.split_eq {n : Nat} {m : Bytes} {blocks : List Bytes} {rest : Bytes}
    (h : Cut n m blocks rest) : split n m = (blocks, rest) := by
  have hn : 0 < n := Nat.zero_lt_of_lt h.short
  rw [← h.inOrder, split_flatten_append hn h.full, split_of_lt h.short, List.append_nil]

/-- The blocks of a message are those that it is cut into and those of its rest. -/
theorem Cut.blocksOf_eq {v : Variant} {m : Bytes} {blocks : List Bytes} {rest : Bytes}
    (h : Cut v.rate m blocks rest) : blocksOf v m = blocks ++ blocksOf v rest := by
  rw [← h.inOrder, blocksOf_flatten_append h.full]

theorem filled_zeroFill {n : Nat} {rest : Bytes} (h : rest.length ≤ n) :
    Filled n rest (zeroFill n rest) where
  length := length_zeroFill h
  front := by rw [zeroFill, List.take_left]
  zeros := by
    rw [zeroFill, List.drop_left]
    intro x hx
    exact List.eq_of_mem_replicate hx

theorem Filled.eq_zeroFill {n : Nat} {rest block : Bytes} (h : Filled n rest block) :
    block = zeroFill n rest := by
  have hd : block.drop rest.length = List.replicate (n - rest.length) 0 := by
    rw [← h.length, ← List.length_drop]
    exact List.eq_replicate_of_mem h.zeros
  calc
    block = block.take rest.length ++ block.drop rest.length := (List.take_append_drop _ _).symm
    _ = zeroFill n rest := by rw [h.front, hd, zeroFill]

/-- It does not matter how the blocks are grouped. -/
theorem BlockHasher.each_update (groups : List (List Bytes)) :
    Call.each update groups = update groups.flatten := by
  induction groups with
  | nil => rfl
  | cons blocks groups ih =>
    rw [Call.each, ih, List.flatten_cons, update, update, update, Call.each_append]

/-! ### Lawful calls -/

/-- The blocks of a cut go on as one group. -/
theorem BlockHasher.cut_singleton (h : BlockHasher) (m : Bytes) :
    let s := split h.params.blockSize m
    Cut h.params.blockSize m [s.1].flatten s.2 ∧ Call.each update [s.1] = update s.1 := by
  intro s
  have hn : 0 < h.params.blockSize := by
    rw [blockSize_eq]
    exact Variant.rate_pos _
  rw [each_update, List.flatten_singleton]
  exact ⟨cut_split hn m, rfl⟩

theorem BlockHasher.calls_lawful : calls.Lawful where
  finalizeOver h rest output l hr := by
    refine ⟨_, filled_zeroFill (Nat.le_of_lt hr), ?_⟩
    intro f l' hf
    refine (Call.current_bind _ _).trans ?_
    exact onSponge_ok (Sponge.framed_ok ((Call.bind_ok hf).trans rfl))
  finalize h tail l := by
    obtain ⟨hcut, heach⟩ := h.cut_singleton tail
    refine ⟨_, _, hcut, ?_⟩
    intro h' l' hu
    rw [heach] at hu
    exact (Call.current_bind _ _).trans ((Call.bind_ok hu).trans rfl)

namespace Hasher

variable {α : Type} {h : Hasher}

theorem passes_onInner (x : Call BlockHasher α) : h.Passes (onInner x) x h.pending := by
  intro l a inner l' hx
  exact onInner_ok hx

theorem passes_finalize (h : Hasher) :
    h.Passes finalize (BlockHasher.finalizeRest h.pending) h.pending := by
  intro l a inner l' hf
  exact (Call.current_bind _ _).trans (onInner_ok hf)

theorem passes_reset (h : Hasher) : h.Passes reset BlockHasher.reset [] := by
  intro l a inner l' hr
  exact (Call.bind_ok (onInner_ok hr)).trans rfl

/-- A call and then a reset leave nothing pending, whatever the call has left. -/
theorem Passes.reset {c : Call Hasher α} {x : Call BlockHasher α} {left : Bytes}
    (hc : h.Passes c x left) : h.Passes (do let a ← c; Hasher.reset; return a)
      (do let a ← x; BlockHasher.reset; return a) [] := by
  intro l a inner l' hx
  obtain ⟨b, ⟨mid, l₁⟩, hx₁, hx⟩ := Call.exists_of_bind_ok hx
  obtain ⟨⟨⟩, ⟨last, l₂⟩, hr, hx⟩ := Call.exists_of_bind_ok hx
  cases hx
  refine (Call.bind_ok (hc _ _ _ _ hx₁)).trans ?_
  exact (Call.bind_ok (passes_reset ⟨mid, left⟩ _ _ _ _ hr)).trans rfl

theorem calls_lawful : calls.Lawful where
  update h piece := by
    obtain ⟨hcut, heach⟩ := h.inner.cut_singleton (h.pending ++ piece)
    refine ⟨_, _, hcut, ?_⟩
    intro l a inner l' hu
    rw [heach] at hu
    refine (Call.current_bind _ _).trans ?_
    exact (Call.bind_ok (onInner_ok hu)).trans rfl
  write _ := rfl
  reset := passes_reset
  finalize h := ⟨h.pending, passes_finalize h⟩
  finalizeReset h := (passes_finalize h).reset
  finalizeOver h output ho := by
    intro l a inner l' hf
    refine (Call.current_bind _ _).trans ?_
    rw [if_pos ho]
    exact (passes_onInner _).reset l a inner l' hf
  refused h output l ho := by
    refine (Call.current_bind _ _).trans ?_
    rw [if_neg ho]
    rfl

end Hasher

end Sha3
