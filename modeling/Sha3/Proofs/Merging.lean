import Sha3.Proofs.Absorption
import Sha3.Sponge

/-! When two sponges merge. A block is added to the rate and to nothing else, and the permutation
    can be undone. So two sponges end in one state just when the two states they permuted were one:

        | s ^^^ b | capacity |  ──permuted──▶  |   s'   |
             =          =                          =
        | t ^^^ c | capacity |  ──permuted──▶  |   t'   |

    One block for both of them cancels out, and what is left is `s = t`. So blocks that two sponges
    share, however many, neither merge them nor part them. -/

namespace Sha3

variable {s t : Keccak.StateBytes} {b c : Bytes}

/-- States with the same bytes from `n` on. -/
theorem get_eq_of_drop_eq {n : Nat} (h : s.toList.drop n = t.toList.drop n) {i : Fin 200}
    (hi : n ≤ i.val) : s.get i = t.get i := by
  have hn : n + (i.val - n) = i.val := Nat.add_sub_cancel' hi
  have hg := congrArg (fun m : Bytes => m[i.val - n]?) h
  simp only [List.getElem?_drop, hn, Vector.getElem?_toList, Vector.getElem?_eq_getElem i.isLt]
    at hg
  exact Option.some.inj hg

/-- Two states mix to one just when they agree behind the blocks, and before that in the sums. -/
theorem mixed_eq_mixed_iff {n : Nat} (hb : b.length = n) (hc : c.length = n) :
    mixed s b = mixed t c ↔ s.toList.drop n = t.toList.drop n ∧
      ∀ i : Fin 200, i.val < n → s.get i ^^^ b.getD i.val 0 = t.get i ^^^ c.getD i.val 0 := by
  constructor
  · intro h
    constructor
    · rw [← drop_mixed (Nat.le_of_eq hb) s, h, drop_mixed (Nat.le_of_eq hc) t]
    · intro i _
      rw [← get_mixed, ← get_mixed, h]
  · rintro ⟨hdrop, hsum⟩
    refine Keccak.ext_get fun i => ?_
    rw [get_mixed, get_mixed]
    rcases Nat.lt_or_ge i.val n with hi | hi
    · exact hsum i hi
    · -- behind the blocks nothing was added
      have hb0 : b.getD i.val 0 = 0 := List.getD_eq_default _ _ (by omega)
      have hc0 : c.getD i.val 0 = 0 := List.getD_eq_default _ _ (by omega)
      rw [hb0, hc0, get_eq_of_drop_eq hdrop hi]

/-- One block mixes different states differently. -/
theorem mixed_left_inj : mixed s b = mixed t b ↔ s = t := by
  constructor
  · intro h
    refine Keccak.ext_get fun i => ?_
    have hi := congrArg (fun m => m.get i) h
    simpa only [get_mixed, UInt8.xor_left_inj] using hi
  · intro h
    rw [h]

/-- So do blocks, one after the other: absorbing the first of them keeps different states apart. -/
theorem foldl_absorbed_inj (blocks : List Bytes) :
    blocks.foldl absorbed s = blocks.foldl absorbed t ↔ s = t := by
  induction blocks generalizing s t with
  | nil => rfl
  | cons b blocks ih => rw [List.foldl_cons, List.foldl_cons, ih, absorbed_eq_iff, mixed_left_inj]

namespace Sponge

/-- Two sponges of one variant, in whatever states, absorb a block each. They end in one state just
    when they had the same capacity and in each byte of the rate the same sum of state and block.
    Blocks that they share leave them in one state just when they were in one before. -/
theorem absorb_merges_iff {v : Variant} {s t : Sponge} (hs : s.variant = v) (ht : t.variant = v) :
    (∀ b c : Bytes, b.length = v.rate → c.length = v.rate → ∃ s' t' : Sponge,
      (∀ l, absorb b ⟨s, l⟩ = .ok () ⟨s', l⟩) ∧ (∀ l, absorb c ⟨t, l⟩ = .ok () ⟨t', l⟩) ∧
      (s'.bytes = t'.bytes ↔ s.bytes.toList.drop v.rate = t.bytes.toList.drop v.rate ∧
        ∀ i : Fin 200, i.val < v.rate →
          s.bytes.get i ^^^ b.getD i.val 0 = t.bytes.get i ^^^ c.getD i.val 0)) ∧
    ∀ blocks : List Bytes, (∀ b ∈ blocks, b.length = v.rate) → ∃ s' t' : Sponge,
      (∀ l, Call.each absorb blocks ⟨s, l⟩ = .ok () ⟨s', l⟩) ∧
      (∀ l, Call.each absorb blocks ⟨t, l⟩ = .ok () ⟨t', l⟩) ∧
      (s'.bytes = t'.bytes ↔ s.bytes = t.bytes) := by
  subst hs
  constructor
  · intro b c hb hc
    refine ⟨_, _, absorb_apply hb, absorb_apply (by rw [ht]; exact hc), ?_⟩
    rw [bytes_permute_mix, bytes_permute_mix, absorbed_eq_iff]
    exact mixed_eq_mixed_iff hb hc
  · intro blocks hfit
    refine ⟨_, _, fun l => each_absorb blocks s l hfit,
      fun l => each_absorb blocks t l (by rw [ht]; exact hfit), ?_⟩
    rw [bytes_absorbAll, bytes_absorbAll]
    exact foldl_absorbed_inj blocks

/-- A sponge whose first byte is one and a fresh one merge if only the fresh one absorbs a one
    there. Blocks of zeros keep them apart. -/
theorem absorb_merges_fresh :
    let v := Variant.sha3_512
    let one : Sponge := ⟨v, mixed zeroState [1], .replicate 25 0⟩
    let zeros : Bytes := List.replicate 72 0
    (∃ s' t', absorb (1 :: List.replicate 71 0) ⟨fresh v, []⟩ = .ok () ⟨s', []⟩ ∧
      absorb zeros ⟨one, []⟩ = .ok () ⟨t', []⟩ ∧ s'.bytes = t'.bytes) ∧
    ∃ s' t', Call.each absorb [zeros, zeros] ⟨fresh v, []⟩ = .ok () ⟨s', []⟩ ∧
      Call.each absorb [zeros, zeros] ⟨one, []⟩ = .ok () ⟨t', []⟩ ∧ s'.bytes ≠ t'.bytes := by
  intro v one zeros
  obtain ⟨hmerge, hshared⟩ := absorb_merges_iff (s := fresh v) (t := one) rfl rfl
  constructor
  · obtain ⟨s', t', hs, ht, h⟩ := hmerge (1 :: List.replicate 71 0) zeros (by decide) (by decide)
    refine ⟨s', t', hs [], ht [], h.2 ⟨?_, ?_⟩⟩
    · exact (drop_mixed (b := [1]) (by decide) zeroState).symm
    · have hz (k : Nat) : (1 :: List.replicate 71 0 : Bytes).getD k 0 =
          ([1] : Bytes).getD k 0 ^^^ zeros.getD k 0 := by
        cases k with
        | zero => decide
        | succ k => simp [zeros]
      intro i _
      rw [hz i.val, ← UInt8.xor_assoc]
      exact congrArg (· ^^^ zeros.getD i.val 0) (get_mixed zeroState [1] i).symm
  · obtain ⟨s', t', hs, ht, h⟩ := hshared [zeros, zeros] (by decide)
    refine ⟨s', t', hs [], ht [], ?_⟩
    rw [Ne, h]
    intro h0
    have h1 := congrArg (fun m => m.get 0) h0
    simp only [one, get_mixed] at h1
    revert h1
    decide

end Sponge

end Sha3
