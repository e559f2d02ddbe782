import Sha3.Keccak.Layout
import Sha3.Proofs.Keccak.Words

/-! Bytes and lanes hold the same 1600 bits, so that nothing is lost on the way from one to the
    other, whatever the destination held before:

        bytes ──load──▶ lanes ──store──▶ bytes
        lanes ──store─▶ bytes ──load───▶ lanes -/

namespace Sha3.Keccak

/-- A byte is its bits. -/
theorem ext_getLsbD {b c : UInt8} (h : ∀ k < 8, b.toBitVec.getLsbD k = c.toBitVec.getLsbD k) :
    b = c := by
  apply UInt8.toBitVec_inj.1
  apply BitVec.eq_of_getLsbD_eq
  intro k hk
  exact h k hk

theorem load_store (a old : Lanes) (s : StateBytes) : load (store a s) old = a := by
  rw [load_eq, store_eq]
  apply ext_get
  intro i
  apply ext_bit
  intro z
  have hd : (8 * i.val + z.val / 8) / 8 = i.val := by omega
  have hm : 8 * ((8 * i.val + z.val / 8) % 8) + z.val % 8 = z.val := by omega
  rw [get_ofFn, bit, getLsbD_laneOf _ _ z.isLt, Vector.getElem_ofFn,
    getLsbD_byteOf a _ (Nat.mod_lt _ (Nat.succ_pos 7))]
  simp only [hd, hm]
  rfl

theorem store_load (s old : StateBytes) (a : Lanes) : store (load s a) old = s := by
  rw [load_eq, store_eq]
  apply ext_get
  intro j
  apply ext_getLsbD
  intro k hk
  have hz : 8 * (j.val % 8) + k < 64 := by omega
  have hd : 8 * (j.val / 8) + (8 * (j.val % 8) + k) / 8 = j.val := by omega
  have hm : (8 * (j.val % 8) + k) % 8 = k := by omega
  rw [get_ofFn, getLsbD_byteOf _ _ hk, Vector.getElem_ofFn, getLsbD_laneOf _ _ hz]
  simp only [hd, hm]
  rfl

theorem load_inj {s t : StateBytes} {old : Lanes} : load s old = load t old ↔ s = t := by
  constructor
  · intro h
    have hs := congrArg (fun a => store a s) h
    simpa only [store_load] using hs
  · intro h
    rw [h]

theorem store_inj {a b : Lanes} {old : StateBytes} : store a old = store b old ↔ a = b := by
  constructor
  · intro h
    have ha := congrArg (fun s => load s a) h
    simpa only [load_store] using ha
  · intro h
    rw [h]

end Sha3.Keccak
