import Sha3.Proofs.Absorption
import Sha3.Proofs.Decoding
import Sha3.Proofs.Session.Requests

/-! Two messages that end in one state. The permutation can be undone, so the states before their
    last blocks differ in no byte behind the rate:

        block … block  ──▶  | rate  | capacity | ──last block──▶ | state |
        block … block  ──▶  | rate' | capacity | ──last block──▶ | state |

    The blocks before the last differ too. Were they the same, the last blocks would be the same,
    and the padding tells messages apart. So whoever collides two states has collided two capacities
    before, and messages of one block each leave no room for that. -/

namespace Sha3

open Sponge (Request)

/-- The sponge that has absorbed some blocks, each as long as the rate, and nothing else. -/
def Sponge.Absorbs (v : Variant) (blocks : List Bytes) (s : Sponge) : Prop :=
  (fresh v).Serves (blocks.map .absorb) s []

/-- The sponge that hashing a message leaves: it was asked for the full blocks and for the digest of
    the rest, and has absorbed the blocks of the message. -/
structure Sponge.Hashes (v : Variant) (m : Bytes) (s : Sponge) : Prop where
  asked : (fresh v).Serves (Request.ofMessage v.rate m v.params.output) s (finalizing v m)
  absorbed : s.Absorbs v (blocksOf v m)
  answered : hash v m ⟨(), []⟩ = .ok s.digest ⟨(), .initialised v :: finalizing v m⟩

/-- Different lists of blocks, one from the front of each of two others and shorter than it, that
    lead to states with the same capacity. -/
structure CapacityCollision (v : Variant) (blocks blocks' P P' : List Bytes) : Prop where
  ne : P ≠ P'
  front : P <+: blocks ∧ P ≠ blocks
  front' : P' <+: blocks' ∧ P' ≠ blocks'
  capacity : ∃ t t', Sponge.Absorbs v P t ∧ Sponge.Absorbs v P' t' ∧
    t.bytes.toList.drop v.rate = t'.bytes.toList.drop v.rate

theorem Sponge.absorbs_absorbAll {v : Variant} {blocks : List Bytes}
    (h : ∀ b ∈ blocks, b.length = v.rate) : Absorbs v blocks ((fresh v).absorbAll blocks) :=
  serves_absorb h

theorem Sponge.hashes_absorbAll (v : Variant) (m : Bytes) :
    Hashes v m ((fresh v).absorbAll (blocksOf v m)) where
  asked := serves_ofMessage (fresh v) m (length_output v)
  absorbed := absorbs_absorbAll fun _ hb => length_of_mem_blocksOf hb
  answered := hash_eq_digest v m

/-! ### Before the last block -/

variable {P P' : List Bytes} {b b' : Bytes}

/-- States that end alike were alike as soon as the last block was mixed in. -/
theorem mixed_eq_of_stateAfter_eq (h : stateAfter (P ++ [b]) = stateAfter (P' ++ [b'])) :
    mixed (stateAfter P) b = mixed (stateAfter P') b' := by
  rw [stateAfter_concat, stateAfter_concat] at h
  exact absorbed_eq_iff.1 h

/-- So they had the same capacity before it. -/
theorem capacity_eq_of_stateAfter_eq {n : Nat} (hb : b.length ≤ n) (hb' : b'.length ≤ n)
    (h : stateAfter (P ++ [b]) = stateAfter (P' ++ [b'])) :
    (stateAfter P).toList.drop n = (stateAfter P').toList.drop n := by
  have hm := mixed_eq_of_stateAfter_eq h
  rw [← drop_mixed hb, hm, drop_mixed hb']

/-- Behind the same blocks, only the same block leads to the same state. -/
theorem eq_of_stateAfter_eq (hlen : b.length = b'.length) (h200 : b.length ≤ 200)
    (h : stateAfter (P ++ [b]) = stateAfter (P ++ [b'])) : b = b' :=
  (mixed_right_inj hlen h200).1 (mixed_eq_of_stateAfter_eq h)

/-- The full blocks of a message and one more. -/
theorem blocksOf_eq_concat (v : Variant) (m : Bytes) :
    ∃ b, blocksOf v m = (split v.rate m).1 ++ [b] ∧ b.length = v.rate := by
  have hr := length_rest_lt v m
  refine ⟨_, blocksOf_eq v m, ?_⟩
  rw [List.length_append, length_closing]
  omega

/-- The full blocks of a message are at the front of its blocks and are not all of them. -/
theorem split_front (v : Variant) (m : Bytes) :
    (split v.rate m).1 <+: blocksOf v m ∧ (split v.rate m).1 ≠ blocksOf v m := by
  obtain ⟨b, hb, -⟩ := blocksOf_eq_concat v m
  rw [hb]
  exact ⟨List.prefix_append _ _, by simp⟩

/-- Different messages with the same full blocks end in different states. -/
theorem stateAfter_ne_of_split_eq {v : Variant} {m m' : Bytes} (hne : m ≠ m')
    (h : (split v.rate m).1 = (split v.rate m').1) :
    stateAfter (blocksOf v m) ≠ stateAfter (blocksOf v m') := by
  obtain ⟨b, hb, hl⟩ := blocksOf_eq_concat v m
  obtain ⟨b', hb', hl'⟩ := blocksOf_eq_concat v m'
  have h200 := v.rate_le
  intro hs
  rw [hb, hb', ← h] at hs
  have hbb := eq_of_stateAfter_eq (hl.trans hl'.symm) (by omega) hs
  rw [h, hbb, ← hb'] at hb
  exact hne (blocksOf_inj.1 hb)

/-- Different messages that end in the same state are behind two capacities that are the same. -/
theorem capacityCollision_of_stateAfter_eq {v : Variant} {m m' : Bytes} (hne : m ≠ m')
    (h : stateAfter (blocksOf v m) = stateAfter (blocksOf v m')) :
    CapacityCollision v (blocksOf v m) (blocksOf v m') (split v.rate m).1 (split v.rate m').1 where
  ne hs := stateAfter_ne_of_split_eq hne hs h
  front := split_front v m
  front' := split_front v m'
  capacity := by
    obtain ⟨b, hb, hl⟩ := blocksOf_eq_concat v m
    obtain ⟨b', hb', hl'⟩ := blocksOf_eq_concat v m'
    refine ⟨_, _, Sponge.absorbs_absorbAll fun _ hc => length_of_mem_split hc,
      Sponge.absorbs_absorbAll fun _ hc => length_of_mem_split hc, ?_⟩
    rw [hb, hb'] at h
    rw [Sponge.bytes_absorbAll_fresh, Sponge.bytes_absorbAll_fresh]
    exact capacity_eq_of_stateAfter_eq (Nat.le_of_eq hl) (Nat.le_of_eq hl') h

/-- Hashing different messages leaves different states, unless the blocks before their last ones
    collide in the capacity. Messages shorter than a block always leave different states. -/
theorem hash_states_ne_or_capacityCollision (v : Variant) {m m' : Bytes} (hne : m ≠ m') :
    ∃ s s', Sponge.Hashes v m s ∧ Sponge.Hashes v m' s' ∧
      (s.bytes ≠ s'.bytes ∨
        ∃ P P', CapacityCollision v (blocksOf v m) (blocksOf v m') P P') ∧
      (m.length < v.rate → m'.length < v.rate → s.bytes ≠ s'.bytes) := by
  refine ⟨_, _, Sponge.hashes_absorbAll v m, Sponge.hashes_absorbAll v m', ?_⟩
  rw [Sponge.bytes_absorbAll_fresh, Sponge.bytes_absorbAll_fresh]
  constructor
  · rcases eq_or_ne (stateAfter (blocksOf v m)) (stateAfter (blocksOf v m')) with h | h
    · exact .inr ⟨_, _, capacityCollision_of_stateAfter_eq hne h⟩
    · exact .inl h
  · intro hm hm'
    apply stateAfter_ne_of_split_eq hne
    rw [split_of_lt hm, split_of_lt hm']

/-- Two messages of one block each. -/
theorem hash_states_ne_nil_singleton : ([] : Bytes) ≠ [0x06] ∧
    ∃ s s', Sponge.Hashes .sha3_512 [] s ∧ Sponge.Hashes .sha3_512 [0x06] s' ∧
      s.bytes ≠ s'.bytes := by
  refine ⟨by decide, ?_⟩
  obtain ⟨s, s', hs, hs', -, hshort⟩ :=
    hash_states_ne_or_capacityCollision .sha3_512 (show ([] : Bytes) ≠ [0x06] by decide)
  exact ⟨s, s', hs, hs', hshort (by decide) (by decide)⟩

end Sha3
