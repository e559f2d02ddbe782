import Mathlib.Data.List.GetD
import Sha3.Absorption
import Sha3.Proofs.Keccak.Inverse
import Sha3.Proofs.Keccak.Layout

/-! What absorbing a block loses: nothing but the way the state was mixed. The permutation can be
    undone, so two absorptions end in one state only if they permuted one state, and mixing leaves
    alone what lies behind the block:

        | rate ^^^ block | capacity |  ──permuted──▶ -/

namespace Sha3

/-- Two absorptions end alike just when the mixed states were alike. -/
theorem absorbed_eq_iff {s t : Keccak.StateBytes} {b c : Bytes} :
    absorbed s b = absorbed t c ↔ mixed s b = mixed t c := by
  rw [absorbed, absorbed, Keccak.store_inj, Keccak.permute_injective.eq_iff, Keccak.load_inj]

theorem get_mixed (s : Keccak.StateBytes) (b : Bytes) (i : Fin 200) :
    (mixed s b).get i = s.get i ^^^ b.getD i.val 0 :=
  Keccak.get_ofFn _ i

/-- Mixing stops at the end of the block. -/
theorem drop_mixed {n : Nat} {b : Bytes} (h : b.length ≤ n) (s : Keccak.StateBytes) :
    (mixed s b).toList.drop n = s.toList.drop n := by
  apply List.ext_getElem?
  intro i
  rw [List.getElem?_drop, List.getElem?_drop, Vector.getElem?_toList, Vector.getElem?_toList]
  by_cases hi : n + i < 200
  · have h0 : b.getD (n + i) 0 = 0 := List.getD_eq_default _ _ (by omega)
    have hm := get_mixed s b ⟨n + i, hi⟩
    rw [h0, UInt8.xor_zero] at hm
    rw [Vector.getElem?_eq_getElem hi, Vector.getElem?_eq_getElem hi]
    exact congrArg some hm
  · rw [Vector.getElem?_eq_none (by omega), Vector.getElem?_eq_none (by omega)]

/-- Into one state, different blocks of one length mix differently. -/
theorem mixed_right_inj {s : Keccak.StateBytes} {b c : Bytes} (hlen : b.length = c.length)
    (h200 : b.length ≤ 200) : mixed s b = mixed s c ↔ b = c := by
  constructor
  · intro h
    apply List.ext_getElem hlen
    intro i hb hc
    have hi := congrArg (fun m => m.get ⟨i, by omega⟩) h
    simp only [get_mixed, UInt8.xor_right_inj] at hi
    rwa [List.getD_eq_getElem _ _ hb, List.getD_eq_getElem _ _ hc] at hi
  · intro h
    rw [h]

end Sha3
