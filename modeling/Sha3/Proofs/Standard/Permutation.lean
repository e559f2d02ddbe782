import Sha3.Keccak.Sheet
import Sha3.Keccak.Walk
import Sha3.Proofs.Keccak.Words
import Sha3.Standard.Permutation

/-! The permutation of lanes is KECCAK-p[1600, 24] of the standard. Every step of a round does to
    the lanes what the standard's step does to the array of their bits:

        lanes   ──theta──▶   ──rhoPi──▶    ──chi──▶   ──iota──▶
          │ bitAt    │ bitAt      │ bitAt      │ bitAt      │ bitAt
        array   ──theta──▶  ──rho──pi──▶   ──chi──▶   ──iota──▶

    The tables are where the two could part. The rotations are compared with the walk that the
    standard reads them from (`rotationOffsets_place`), and the constants with the shift register
    (`bit_roundConstants`); all else holds for whatever the lanes hold. -/

namespace Sha3.Keccak

theorem bitAt_eq (a : Lanes) (x y : Fin 5) (z : Fin 64) :
    bitAt a x y z = bit (a.get (place x y)) z := rfl

/-! ### Theta -/

/-- The lanes of column `x` are those at `(x, y)`. -/
theorem column_place (p : Columns) (x y : Fin 5) : column p (place x y).val = column p x.val := by
  have h : (5 * y.val + x.val) % 5 = x.val % 5 := by omega
  simp only [column, place, h]

theorem bit_columnParity (a : Lanes) (n : Nat) (z : Fin 64) :
    bit (column (columnParity a) n) z = Standard.parity (bitAt a) (Fin.ofNat 5 n) z := by
  rw [columnParity, column_ofFn]
  simp only [bit_xor, Standard.parity, Bool.xor_assoc]
  -- the places `5 * y + x` of the five lanes are numbers once `x` is
  match Fin.ofNat 5 n with
  | 0 | 1 | 2 | 3 | 4 => rfl

theorem bit_columnEffect (p : Columns) (x : Fin 5) (z : Fin 64) :
    bit (column (columnEffect p) x.val) z =
      (bit (column p (x.val + 4)) z ^^ bit (column p (x.val + 1)) (z - 1)) := by
  rw [columnEffect, column_ofFn, Fin.ofNat_val_eq_self, bit_xor, bit_rotl _ (by omega)]
  rfl

theorem ofNat_add_four : ∀ x : Fin 5, Fin.ofNat 5 (x.val + 4) = x - 1 := by decide

theorem ofNat_add_one : ∀ x : Fin 5, Fin.ofNat 5 (x.val + 1) = x + 1 := by decide

theorem bitAt_theta (a : Lanes) : bitAt (theta a) = Standard.theta (bitAt a) := by
  funext x y z
  rw [bitAt_eq, theta, addToColumns, get_ofFn, column_place, bit_xor, bit_columnEffect,
    bit_columnParity, bit_columnParity, ofNat_add_four, ofNat_add_one, ← Bool.xor_assoc]
  rfl

/-! ### Rho and pi -/

/-- The table of rotations holds the triangular numbers that the standard's walk passes. -/
theorem rotationOffsets_place : ∀ x y : Fin 5,
    rotationOffsets.get (place x y) = Standard.offset x y % 64 := by decide

theorem origin_place : ∀ x y : Fin 5, origin (place x y) = place (x + 3 * y) x := by decide

theorem bitAt_rhoPi (a : Lanes) : bitAt (rhoPi a) = Standard.pi (Standard.rho (bitAt a)) := by
  funext x y z
  have hn : Fin.ofNat 64 (Standard.offset (x + 3 * y) x % 64) =
      Fin.ofNat 64 (Standard.offset (x + 3 * y) x) := Fin.ext (Nat.mod_mod _ 64)
  rw [bitAt_eq, get_rhoPi, origin_place, turned, rotationOffsets_place,
    bit_rotl _ (Nat.mod_lt _ (Nat.succ_pos 63)), hn]
  rfl

/-! ### Chi -/

theorem along_place : ∀ x y k : Fin 5, along (place x y) k.val = place (x + k) y := by decide

theorem bitAt_chi (a : Lanes) : bitAt (chi a) = Standard.chi (bitAt a) := by
  funext x y z
  have h1 : along (place x y) 1 = place (x + 1) y := along_place x y 1
  have h2 : along (place x y) 2 = place (x + 2) y := along_place x y 2
  rw [bitAt_eq, chi, get_ofFn, h1, h2, bit_xor, bit_and, bit_not]
  rfl

/-! ### Iota -/

theorem zero_eq_place : ∀ x y : Fin 5, (0 : Fin 25) = place x y ↔ x = 0 ∧ y = 0 := by decide

theorem bitAt_iota {w : UInt64} {ir : Nat} (h : ∀ z, bit w z = Standard.roundBit ir z) (a : Lanes) :
    bitAt (iota w a) = Standard.iota ir (bitAt a) := by
  funext x y z
  rw [bitAt_eq, get_iota, Standard.iota]
  rcases Decidable.em (x = 0 ∧ y = 0) with ⟨rfl, rfl⟩ | h0
  · rw [if_pos ((zero_eq_place 0 0).2 ⟨rfl, rfl⟩), bit_xor, h]
    simp only [decide_true, Bool.true_and]
    rfl
  · have hf : (decide (x = 0) && decide (y = 0)) = false := by
      simpa using h0
    rw [if_neg (mt (zero_eq_place x y).1 h0), hf, Bool.false_and, Bool.xor_false]
    rfl

/-! ### Rounds -/

theorem bitAt_round {w : UInt64} {ir : Nat} (h : ∀ z, bit w z = Standard.roundBit ir z)
    (a : Lanes) : bitAt (round a w) = Standard.round (bitAt a) ir := by
  rw [round, bitAt_iota h, bitAt_chi, bitAt_rhoPi, bitAt_theta]
  rfl

/-- Rounds with the words `ws` are the rounds `irs`, when each word has the bits of its round. -/
theorem bitAt_foldl_round : ∀ (ws : List UInt64) (irs : List Nat), ws.length = irs.length →
    (∀ p ∈ ws.zip irs, ∀ z, bit p.1 z = Standard.roundBit p.2 z) →
      ∀ a, bitAt (ws.foldl round a) = irs.foldl Standard.round (bitAt a)
  | [], [], _, _, _ => rfl
  | w :: ws, ir :: irs, hlen, h, a => by
    obtain ⟨hw, hws⟩ := List.forall_mem_cons.1 h
    rw [List.foldl_cons, List.foldl_cons, ← bitAt_round hw a]
    exact bitAt_foldl_round ws irs (Nat.succ.inj hlen) hws (round a w)

/-- The table of constants holds the output of the shift register, round by round. -/
theorem bit_roundConstants : ∀ p ∈ roundConstants.zip (List.range 24), ∀ z,
    bit p.1 z = Standard.roundBit p.2 z := by
  decide +kernel

/-- The permutation does to the bits of the lanes what KECCAK-p[1600, 24] does. -/
theorem bitAt_permute (a : Lanes) : bitAt (permute a) = Standard.keccakP (bitAt a) :=
  bitAt_foldl_round roundConstants (List.range 24) rfl bit_roundConstants a

end Sha3.Keccak
