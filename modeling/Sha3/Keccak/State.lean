/-! The state of KECCAK-f[1600]: 1600 bits, seen as 200 bytes or as a 5 by 5 sheet of 64-bit lanes.

    Lane `(x, y)` stands at index `5 * y + x`, so a row of the sheet is five lanes side by side and
    a column is every fifth lane:

        y \ x   0   1   2   3   4
          0     0   1   2   3   4
          1     5   6   7   8   9
          …
          4    20  21  22  23  24

    `along` walks a row around its end, and `column` walks the columns. `rotl` turns a lane, and
    `getLsbD_rotl` says where each bit of the turned lane was before. -/

namespace Sha3.Keccak

/-- Bytes of state. -/
def stateBytes : Nat := 200

/-- Lanes of state. -/
def laneCount : Nat := 25

/-- Lanes along one side of the sheet. -/
def side : Nat := 5

/-- The state as bytes. -/
abbrev StateBytes := Vector UInt8 200

/-- The state as lanes, lane `(x, y)` at `5 * y + x`. -/
abbrev Lanes := Vector UInt64 25

/-- One word for each column of the sheet. -/
abbrev Columns := Vector UInt64 5

/-- The word of column `x`, counted around the end. -/
def column (p : Columns) (x : Nat) : UInt64 :=
  p[x % 5]

/-- The lane `k` places further along the row of lane `i`, around its end. -/
def along (i : Fin 25) (k : Nat) : Fin 25 :=
  ⟨5 * (i.val / 5) + (i.val % 5 + k) % 5, by omega⟩

/-- Turns a lane by `n < 64` places towards its high end. -/
def rotl (x : UInt64) (n : Nat) : UInt64 :=
  x <<< UInt64.ofNat n ||| x >>> UInt64.ofNat (64 - n)

/-- Bit `z` of lane `(x, y)`. -/
def bitAt (a : Lanes) (x y : Fin 5) (z : Fin 64) : Bool :=
  a[5 * y.val + x.val].toBitVec.getLsbD z

/-- Writes `f i` over element `i` of `old`, in order. -/
def overwrite {n : Nat} {α : Type} (f : Fin n → α) (old : Vector α n) : Vector α n :=
  Fin.foldl n (fun v i => v.set i (f i)) old

/-! ### Turning -/

/-- Bit `z` of a lane turned by `n` was `n` places lower. -/
theorem getLsbD_rotl (x : UInt64) {n z : Nat} (hn : n < 64) (hz : z < 64) :
    (rotl x n).toBitVec.getLsbD z = x.toBitVec.getLsbD ((z + 64 - n) % 64) := by
  have h1 : ((UInt64.ofNat n).toBitVec % 64).toNat = n := by
    simp [BitVec.toNat_umod, UInt64.ofNat]; omega
  have h2 : ((UInt64.ofNat (64 - n)).toBitVec % 64).toNat = (64 - n) % 64 := by
    simp [BitVec.toNat_umod, UInt64.ofNat]
  simp only [rotl, UInt64.toBitVec_or, UInt64.toBitVec_shiftLeft, UInt64.toBitVec_shiftRight,
    BitVec.getLsbD_or, BitVec.shiftLeft_eq', BitVec.getLsbD_shiftLeft, BitVec.ushiftRight_eq',
    BitVec.getLsbD_ushiftRight, h1, h2]
  by_cases h : z < n
  · have e : (z + 64 - n) % 64 = (64 - n) % 64 + z := by omega
    simp [h, e]
  · by_cases h0 : n = 0
    · subst h0
      simp [hz, Nat.mod_eq_of_lt hz]
    · have e : (z + 64 - n) % 64 = z - n := by omega
      have big : 64 ≤ (64 - n) % 64 + z := by omega
      simp [h, hz, e, BitVec.getLsbD_of_ge _ _ big]

/-! ### Elements -/

theorem get_ofFn {n : Nat} {α : Type} (f : Fin n → α) (i : Fin n) : (Vector.ofFn f).get i = f i :=
  Vector.getElem_ofFn i.isLt

theorem ext_get {n : Nat} {α : Type} {a b : Vector α n} (h : ∀ i, a.get i = b.get i) : a = b :=
  Vector.ext fun i hi => h ⟨i, hi⟩

theorem get_set {n : Nat} {α : Type} (a : Vector α n) (i j : Fin n) (x : α) :
    (a.set i x).get j = if i = j then x else a.get j := by
  have hv : (i = j) = (i.val = j.val) := propext Fin.ext_iff
  simp only [hv]
  exact Vector.getElem_set i.isLt j.isLt

/-! ### Overwriting -/

theorem get_foldl_set_of_notMem {n : Nat} {α : Type} (f : Fin n → α) {j : Fin n} :
    ∀ {l : List (Fin n)}, j ∉ l → ∀ old : Vector α n,
      (l.foldl (fun v i => v.set i (f i)) old).get j = old.get j
  | [], _, _ => rfl
  | i :: l, h, old => by
    have hi := Ne.symm (List.ne_of_not_mem_cons h)
    have hl := List.not_mem_of_not_mem_cons h
    rw [List.foldl_cons, get_foldl_set_of_notMem f hl, get_set, if_neg hi]

theorem get_foldl_set_of_mem {n : Nat} {α : Type} (f : Fin n → α) {j : Fin n} :
    ∀ {l : List (Fin n)}, j ∈ l → ∀ old : Vector α n,
      (l.foldl (fun v i => v.set i (f i)) old).get j = f j
  | i :: l, h, old => by
    rw [List.foldl_cons]
    by_cases hl : j ∈ l
    · exact get_foldl_set_of_mem f hl _
    · obtain rfl := (List.mem_cons.1 h).resolve_right hl
      rw [get_foldl_set_of_notMem f hl, get_set, if_pos rfl]

/-- Nothing of the old elements is left. -/
theorem overwrite_eq_ofFn {n : Nat} {α : Type} (f : Fin n → α) (old : Vector α n) :
    overwrite f old = Vector.ofFn f := by
  apply ext_get
  intro j
  rw [overwrite, Fin.foldl_eq_finRange_foldl, get_ofFn]
  exact get_foldl_set_of_mem f (List.mem_finRange j) old

/-- Writing at every place of a list that has them all is overwriting. -/
theorem foldl_set_eq_overwrite {n : Nat} {α : Type} (f : Fin n → α) {l : List (Fin n)}
    (h : ∀ i, i ∈ l) (old : Vector α n) :
    l.foldl (fun v i => v.set i (f i)) old = overwrite f old := by
  rw [overwrite_eq_ofFn]
  refine ext_get fun i => ?_
  rw [get_foldl_set_of_mem f (h i), get_ofFn]

end Sha3.Keccak
