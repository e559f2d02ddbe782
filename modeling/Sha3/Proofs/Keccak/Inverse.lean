import Mathlib.Logic.Function.Basic
import Sha3.Keccak.Inverse
import Sha3.Proofs.Keccak.Words

/-! The permutation loses nothing: `unpermute` undoes it, before it as well as after it. Every step
    is undone by its counterpart, so a round is, and the rounds are undone from the last to the
    first:

        a ──theta──▶ ──rhoPi──▶ ──chi──▶ ──iota──▶ b
        a ◀─untheta─ ◀─unrhoPi─ ◀─unchi─ ◀──iota── b

    Chi mixes five bits at a time, and its two equations are checked for all of them (`unmix_mix`,
    `mix_unmix`). Theta changes the parities of the columns alone, and does it by a `spread`
    (`columnParity_theta`); what is left is that `parityBefore` undoes the spread. -/

namespace Sha3.Keccak

/-! ### Spreading -/

/-- A word turned by any number of places, around its end. -/
def turn (n : Nat) (w : UInt64) : UInt64 :=
  rotl w (n % 64)

theorem turn_xor (n : Nat) (u w : UInt64) : turn n (u ^^^ w) = turn n u ^^^ turn n w :=
  rotl_xor u w (Nat.mod_lt _ (Nat.succ_pos 63))

theorem turn_turn (m n : Nat) (w : UInt64) : turn m (turn n w) = turn (m + n) w := by
  have hm : m % 64 < 64 := Nat.mod_lt _ (Nat.succ_pos 63)
  have hn : n % 64 < 64 := Nat.mod_lt _ (Nat.succ_pos 63)
  have h : (n % 64 + m % 64) % 64 = (m + n) % 64 := by omega
  rw [turn, turn, turn, rotl_rotl _ hn hm, h]

/-- Whole turns bring a word back. -/
theorem turn_eq_self {n : Nat} (h : n % 64 = 0) (w : UInt64) : turn n w = w := by
  rw [turn, h, rotl_zero]

/-- In columns counted around the end, back by `n` is forward by `4 * n`. -/
theorem column_spread (n : Nat) (p : Columns) (k : Nat) :
    column (spread n p) k =
      column p k ^^^ column p (k + 4 * n) ^^^ turn n (column p (k + n)) := by
  have h0 : column p (k % 5) = column p k := column_congr p (by omega)
  have h4 : column p (k % 5 + 5 - n % 5) = column p (k + 4 * n) := column_congr p (by omega)
  have h1 : column p (k % 5 + n) = column p (k + n) := column_congr p (by omega)
  rw [spread, column_ofFn]
  simp only [Fin.val_ofNat, h0, h4, h1, turn]

/-- Spreads may be done in either order. -/
theorem spread_comm (m n : Nat) (p : Columns) : spread m (spread n p) = spread n (spread m p) := by
  apply ext_column
  intro x
  simp only [column_spread, turn_xor, turn_turn, Nat.add_right_comm _ (4 * m),
    Nat.add_right_comm _ m, Nat.add_comm m]
  ac_rfl

/-- Two times `spread n` is `spread (2 * n)`: what two different moves bring comes twice, once in
    either order, and is gone. -/
theorem spread_spread (n : Nat) (p : Columns) : spread n (spread n p) = spread (2 * n) p := by
  apply ext_column
  intro x
  have h1 : column p (x + n + 4 * n) = column p (x + 4 * n + n) := column_congr p (by omega)
  have h2 : column p (x + 4 * n + 4 * n) = column p (x + 4 * (2 * n)) := column_congr p (by omega)
  have h3 : column p (x + n + n) = column p (x + 2 * n) := column_congr p (by omega)
  have h4 : n + n = 2 * n := by omega
  simp only [column_spread, turn_xor, turn_turn, h1, h2, h3, h4]
  simp only [UInt64.xor_assoc, xor_left_comm, xor_xor_self_left]

/-- From 64 on the spreads turn nothing, and with five columns these two undo each other. -/
theorem spread_128_64 (p : Columns) : spread 128 (spread 64 p) = p := by
  apply ext_column
  intro x
  have h64 (k : Nat) :
      column (spread 64 p) k = column p k ^^^ column p (k + 1) ^^^ column p (k + 4) := by
    have h1 : column p (k + 4 * 64) = column p (k + 1) := column_congr p (by omega)
    have h4 : column p (k + 64) = column p (k + 4) := column_congr p (by omega)
    rw [column_spread, turn_eq_self rfl, h1, h4]
  have h0 : column p (x + 4 * 128 + 1) = column p (x + 128) := column_congr p (by omega)
  have h1 : column p (x + 4 * 128 + 4) = column p (x + 1) := column_congr p (by omega)
  have h2 : column p (x + 128 + 4) = column p (x + 4 * 128) := column_congr p (by omega)
  have h3 : column p (x + 128 + 1) = column p (x + 4) := column_congr p (by omega)
  simp only [column_spread 128, turn_eq_self (n := 128) rfl, h64, h0, h1, h2, h3]
  simp only [UInt64.xor_comm, xor_left_comm, UInt64.xor_self, UInt64.zero_xor]

theorem parityBefore_spread (p : Columns) : parityBefore (spread 1 p) = p := by
  simp only [parityBefore, List.foldl_cons, List.foldl_nil, spread_spread, Nat.reduceMul,
    spread_128_64]

theorem spread_parityBefore (p : Columns) : spread 1 (parityBefore p) = p := by
  have h : parityBefore (spread 1 p) = spread 1 (parityBefore p) := by
    simp only [parityBefore, List.foldl_cons, List.foldl_nil, spread_comm 1]
  rw [← h, parityBefore_spread]

/-! ### Theta -/

theorem addToColumns_addToColumns (d : Columns) (a : Lanes) :
    addToColumns d (addToColumns d a) = a := by
  apply ext_get
  intro i
  simp only [addToColumns, get_ofFn, xor_xor_self_right]

theorem xor_each_of_five (t u v w x y : UInt64) :
    (t ^^^ y) ^^^ (u ^^^ y) ^^^ (v ^^^ y) ^^^ (w ^^^ y) ^^^ (x ^^^ y) =
      t ^^^ u ^^^ v ^^^ w ^^^ x ^^^ y := by
  simp only [UInt64.xor_comm, xor_left_comm, xor_xor_self_left]

/-- A column has an odd number of lanes, so what is added to each of them is added to their parity.
    -/
theorem columnParity_addToColumns (d : Columns) (a : Lanes) (x : Fin 5) :
    column (columnParity (addToColumns d a)) x.val =
      column (columnParity a) x.val ^^^ column d x.val := by
  have h (k : Nat) (hk : k % 5 = 0) : column d (x.val + k) = column d x.val :=
    column_congr d (by omega)
  rw [columnParity, column_ofFn, columnParity, column_ofFn, Fin.ofNat_val_eq_self]
  simp only [addToColumns, Vector.getElem_ofFn, h 5 rfl, h 10 rfl, h 15 rfl, h 20 rfl]
  exact xor_each_of_five _ _ _ _ _ _

theorem column_columnEffect (p : Columns) (x : Fin 5) :
    column (columnEffect p) x.val = column p (x.val + 4) ^^^ turn 1 (column p (x.val + 1)) := by
  rw [columnEffect, column_ofFn, Fin.ofNat_val_eq_self, turn]

/-- Theta spreads the parities of the columns. -/
theorem columnParity_theta (a : Lanes) : columnParity (theta a) = spread 1 (columnParity a) := by
  apply ext_column
  intro x
  rw [theta, columnParity_addToColumns, column_columnEffect, column_spread, ← UInt64.xor_assoc]

/-- Undoing theta gathers them again. -/
theorem columnParity_untheta (a : Lanes) :
    columnParity (untheta a) = parityBefore (columnParity a) := by
  apply ext_column
  intro x
  have h := congrArg (fun p => column p x.val) (spread_parityBefore (columnParity a))
  simp only [column_spread, UInt64.xor_assoc] at h
  rw [untheta, columnParity_addToColumns, column_columnEffect, ← h, UInt64.xor_assoc,
    UInt64.xor_self, UInt64.xor_zero]

theorem untheta_theta (a : Lanes) : untheta (theta a) = a := by
  rw [untheta, columnParity_theta, parityBefore_spread, theta, addToColumns_addToColumns]

theorem theta_untheta (a : Lanes) : theta (untheta a) = a := by
  rw [theta, columnParity_untheta, untheta, addToColumns_addToColumns]

/-! ### Rho and pi -/

theorem origin_target : ∀ i : Fin 25, origin (target i) = i := by decide

theorem target_origin : ∀ i : Fin 25, target (origin i) = i := by decide

theorem rotationOffsets_lt : ∀ i : Fin 25, rotationOffsets.get i < 64 := by decide

/-- A word turned and turned back. -/
theorem rotl_rotl_back (w : UInt64) {n : Nat} (h : n < 64) :
    rotl (rotl w n) ((64 - n) % 64) = w ∧ rotl (rotl w ((64 - n) % 64)) n = w := by
  have hn : (64 - n) % 64 < 64 := Nat.mod_lt _ (Nat.succ_pos 63)
  have h0 : (n + (64 - n) % 64) % 64 = 0 := by omega
  constructor
  · rw [rotl_rotl w h hn, h0, rotl_zero]
  · rw [rotl_rotl w hn h, Nat.add_comm, h0, rotl_zero]

theorem unrhoPi_rhoPi (a : Lanes) : unrhoPi (rhoPi a) = a := by
  apply ext_get
  intro i
  rw [unrhoPi, get_ofFn, get_rhoPi, origin_target, turned]
  exact (rotl_rotl_back _ (rotationOffsets_lt i)).1

theorem rhoPi_unrhoPi (a : Lanes) : rhoPi (unrhoPi a) = a := by
  apply ext_get
  intro i
  rw [get_rhoPi, turned, unrhoPi, get_ofFn, target_origin]
  exact (rotl_rotl_back _ (rotationOffsets_lt (origin i))).2

/-! ### Chi -/

theorem along_zero (i : Fin 25) : along i 0 = i := by
  apply Fin.ext
  simp only [along]
  omega

theorem along_along (i : Fin 25) (j k : Nat) : along (along i j) k = along i (j + k) := by
  apply Fin.ext
  simp only [along]
  omega

theorem along_add_five (i : Fin 25) (k : Nat) : along i (k + 5) = along i k := by
  apply Fin.ext
  simp only [along]
  omega

/-- A bit of a row that was mixed, unmixed. -/
theorem unmix_mix : ∀ a b c d e : Bool,
    let mix := fun x y z : Bool => x ^^ ((y ^^ true) && z)
    (mix a b c ^^ ((mix b c d ^^ true) &&
      (mix c d e ^^ ((mix d e a ^^ true) && mix e a b)))) = a := by
  decide

/-- A bit of a row that was unmixed, mixed. -/
theorem mix_unmix : ∀ a b c d e : Bool,
    let unmix := fun v w x y z : Bool => v ^^ ((w ^^ true) && (x ^^ ((y ^^ true) && z)))
    (unmix a b c d e ^^ ((unmix b c d e a ^^ true) && unmix c d e a b)) = a := by
  decide

theorem unchi_chi (a : Lanes) : unchi (chi a) = a := by
  apply ext_get
  intro i
  apply ext_bit
  intro z
  have h5 : along i 5 = i := (along_add_five i 0).trans (along_zero i)
  have h6 : along i 6 = along i 1 := along_add_five i 1
  simp only [unchi, chi, get_ofFn, along_along, Nat.reduceAdd, h5, h6, bit_xor, bit_and, bit_not]
  exact unmix_mix _ _ _ _ _

theorem chi_unchi (a : Lanes) : chi (unchi a) = a := by
  apply ext_get
  intro i
  apply ext_bit
  intro z
  have h5 : along i 5 = i := (along_add_five i 0).trans (along_zero i)
  have h6 : along i 6 = along i 1 := along_add_five i 1
  simp only [unchi, chi, get_ofFn, along_along, Nat.reduceAdd, h5, h6, bit_xor, bit_and, bit_not]
  exact mix_unmix _ _ _ _ _

/-! ### Rounds -/

theorem iota_iota (c : UInt64) (a : Lanes) : iota c (iota c a) = a := by
  apply ext_get
  intro i
  rw [get_iota, get_iota, get_iota, if_pos rfl, xor_xor_self_right]
  by_cases h : 0 = i
  · rw [if_pos h, h]
  · rw [if_neg h, if_neg h]

theorem unround_round (a : Lanes) (c : UInt64) : unround (round a c) c = a := by
  rw [unround, round, iota_iota, unchi_chi, unrhoPi_rhoPi, untheta_theta]

theorem round_unround (a : Lanes) (c : UInt64) : round (unround a c) c = a := by
  rw [unround, round, theta_untheta, rhoPi_unrhoPi, chi_unchi, iota_iota]

/-- Steps along a list are undone by steps back along it. -/
theorem foldl_reverse_foldl {α β : Type} {f g : α → β → α} (h : ∀ x b, g (f x b) b = x)
    (l : List β) (x : α) : l.reverse.foldl g (l.foldl f x) = x := by
  induction l generalizing x with
  | nil => rfl
  | cons b l ih =>
    rw [List.foldl_cons, List.reverse_cons, List.foldl_append, ih, List.foldl_cons, List.foldl_nil,
      h]

theorem unpermute_permute (a : Lanes) : unpermute (permute a) = a :=
  foldl_reverse_foldl unround_round roundConstants a

theorem permute_unpermute (a : Lanes) : permute (unpermute a) = a := by
  have h := foldl_reverse_foldl round_unround roundConstants.reverse a
  rwa [List.reverse_reverse] at h

theorem permute_injective : Function.Injective permute :=
  Function.LeftInverse.injective unpermute_permute

theorem permuteTimes_succ (n : Nat) (a : Lanes) :
    permuteTimes (n + 1) a = permute (permuteTimes n a) := by
  rw [permuteTimes, Nat.repeat, permuteTimes]

/-- The permutation is undone by `unpermute` on either side, and however often it is applied, no two
    sheets become one. -/
theorem permute_bijective :
    (∀ a, unpermute (permute a) = a) ∧ (∀ a, permute (unpermute a) = a) ∧
      ∀ n, Function.Injective (permuteTimes n) := by
  refine ⟨unpermute_permute, permute_unpermute, ?_⟩
  intro n
  induction n with
  | zero => exact Function.injective_id
  | succ n ih =>
    intro a b h
    rw [permuteTimes_succ, permuteTimes_succ] at h
    exact ih (permute_injective h)

end Sha3.Keccak
