import Sha3.Keccak.Permutation

/-! Words as strings of 64 bits. A word is its bits (`ext_bit`) and each operation on words is told
    bit by bit, so an equation between words is one between bits of the same place. -/

namespace Sha3.Keccak

/-- Bit `z` of a word. -/
def bit (w : UInt64) (z : Fin 64) : Bool :=
  w.toBitVec.getLsbD z

/-! ### Bits -/

theorem bit_xor (u w : UInt64) (z : Fin 64) : bit (u ^^^ w) z = (bit u z ^^ bit w z) := by
  rw [bit, UInt64.toBitVec_xor, BitVec.getLsbD_xor]
  rfl

theorem bit_and (u w : UInt64) (z : Fin 64) : bit (u &&& w) z = (bit u z && bit w z) := by
  rw [bit, UInt64.toBitVec_and, BitVec.getLsbD_and]
  rfl

theorem bit_not (w : UInt64) (z : Fin 64) : bit (~~~w) z = (bit w z ^^ true) := by
  rw [bit, UInt64.toBitVec_not, BitVec.getLsbD_not, decide_eq_true z.isLt, Bool.true_and,
    Bool.xor_true]
  rfl

/-- Turning a word by `n` takes bit `z - n`, around the end, to bit `z`. -/
theorem bit_rotl (w : UInt64) {n : Nat} (hn : n < 64) (z : Fin 64) :
    bit (rotl w n) z = bit w (z - Fin.ofNat 64 n) := by
  have hz : (z - Fin.ofNat 64 n).val = (z.val + 64 - n) % 64 := by
    rw [Fin.sub_def]
    simp only [Fin.val_ofNat]
    omega
  rw [bit, getLsbD_rotl w hn z.isLt, bit, hz]

theorem ext_bit {u w : UInt64} (h : ∀ z, bit u z = bit w z) : u = w := by
  apply UInt64.toBitVec_inj.1
  apply BitVec.eq_of_getLsbD_eq
  intro z hz
  exact h ⟨z, hz⟩

/-! ### Sums

    Addition of words is their exclusive or: what is added twice is gone. -/

theorem xor_left_comm (u v w : UInt64) : u ^^^ (v ^^^ w) = v ^^^ (u ^^^ w) := by
  rw [← UInt64.xor_assoc, UInt64.xor_comm u, UInt64.xor_assoc]

theorem xor_xor_self_left (u w : UInt64) : u ^^^ (u ^^^ w) = w := by
  rw [← UInt64.xor_assoc, UInt64.xor_self, UInt64.zero_xor]

theorem xor_xor_self_right (u w : UInt64) : u ^^^ w ^^^ w = u := by
  rw [UInt64.xor_assoc, UInt64.xor_self, UInt64.xor_zero]

/-! ### Turning -/

theorem rotl_xor (u w : UInt64) {n : Nat} (hn : n < 64) :
    rotl (u ^^^ w) n = rotl u n ^^^ rotl w n := by
  apply ext_bit
  intro z
  rw [bit_xor, bit_rotl _ hn, bit_rotl _ hn, bit_rotl _ hn, bit_xor]

/-- Turns add up, around the end of the word. -/
theorem rotl_rotl (w : UInt64) {m n : Nat} (hm : m < 64) (hn : n < 64) :
    rotl (rotl w m) n = rotl w ((m + n) % 64) := by
  apply ext_bit
  intro z
  have hz : z - Fin.ofNat 64 n - Fin.ofNat 64 m = z - Fin.ofNat 64 ((m + n) % 64) := by
    apply Fin.ext
    simp only [Fin.sub_def, Fin.val_ofNat]
    omega
  rw [bit_rotl _ hn, bit_rotl _ hm, bit_rotl _ (Nat.mod_lt _ (Nat.succ_pos 63)), hz]

/-! ### Columns -/

theorem column_ofFn (f : Fin 5 → UInt64) (n : Nat) : column (.ofFn f) n = f (Fin.ofNat 5 n) :=
  Vector.getElem_ofFn (Nat.mod_lt n (Nat.succ_pos 4))

/-- Columns are counted around the end. -/
theorem column_congr (p : Columns) {m n : Nat} (h : m % 5 = n % 5) : column p m = column p n := by
  simp only [column, h]

theorem ext_column {p q : Columns} (h : ∀ x : Fin 5, column p x.val = column q x.val) : p = q := by
  apply Vector.ext
  intro x hx
  have hp := h ⟨x, hx⟩
  simp only [column, Nat.mod_eq_of_lt hx] at hp
  exact hp

end Sha3.Keccak
