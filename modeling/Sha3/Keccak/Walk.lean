import Sha3.Keccak.Permutation

/-! The walk of rho and pi in closed form. A path that visits no place twice lifts every lane as it
    was at the start, so each place on the path ends with the lane of the place before it, turned:

        path     1 → 10 → 7 → 11 → … → 6 → 1
        lane 10 ends as lane 1 turned, lane 7 as lane 10 turned, …, lane 1 as lane 6 turned

    On `laneCycle` the place before `(x, y)` is `(x + 3 * y, x)`, both around their ends, and
    `get_rhoPi` says so for every lane. -/

namespace Sha3.Keccak

/-- Where the lane that ends at `i` comes from. -/
def origin (i : Fin 25) : Fin 25 :=
  ⟨5 * (i.val % 5) + (i.val % 5 + 3 * (i.val / 5)) % 5, by omega⟩

/-- Lane `i`, turned by its offset. -/
def turned (a : Lanes) (i : Fin 25) : UInt64 :=
  rotl (a.get i) (rotationOffsets.get i)

/-- The place before `j` on the path that starts at `s` and goes on along the list. -/
def placeBefore (s : Fin 25) : List (Fin 25) → Fin 25 → Fin 25
  | [], _ => s
  | t :: path, j => if t = j then s else placeBefore t path j

theorem get_step (w : Walk) (t i : Fin 25) :
    (w.step t).lanes.get i =
      if t = i then rotl w.hand (rotationOffsets.get w.source) else w.lanes.get i :=
  get_set _ _ _ _

/-- A walk changes nothing off its path. -/
theorem get_foldl_step_of_notMem {j : Fin 25} : ∀ {path : List (Fin 25)}, j ∉ path →
    ∀ w : Walk, (path.foldl Walk.step w).lanes.get j = w.lanes.get j
  | [], _, _ => rfl
  | t :: path, h, w => by
    have hj := Ne.symm (List.ne_of_not_mem_cons h)
    have hp := List.not_mem_of_not_mem_cons h
    rw [List.foldl_cons, get_foldl_step_of_notMem hp, get_step, if_neg hj]

/-- A path without repetitions, walked on a sheet that is still as it was. -/
theorem get_foldl_step_of_mem (a : Lanes) {j : Fin 25} : ∀ {path : List (Fin 25)}, j ∈ path →
    path.Nodup → ∀ w : Walk, w.hand = a.get w.source →
      (∀ t ∈ path, w.lanes.get t = a.get t) →
      (path.foldl Walk.step w).lanes.get j = turned a (placeBefore w.source path j)
  | t :: path, hj, hnd, w, hh, hl => by
    obtain ⟨hne, hnd⟩ := List.nodup_cons.1 hnd
    rw [List.foldl_cons, placeBefore]
    by_cases htj : t = j
    · subst htj
      rw [get_foldl_step_of_notMem hne, get_step, if_pos rfl, if_pos rfl, hh, turned]
    · have hmem := (List.mem_cons.1 hj).resolve_left (Ne.symm htj)
      rw [if_neg htj]
      refine get_foldl_step_of_mem a hmem hnd (w.step t) (hl t List.mem_cons_self) ?_
      intro u hu
      have htu : t ≠ u := fun h => hne (h ▸ hu)
      rw [get_step, if_neg htu]
      exact hl u (List.mem_cons_of_mem t hu)

theorem nodup_laneCycle : laneCycle.Nodup := by decide

theorem mem_laneCycle : ∀ j : Fin 25, j ∈ laneCycle ↔ j ≠ 0 := by decide

theorem placeBefore_laneCycle : ∀ j ∈ laneCycle, placeBefore cycleStart laneCycle j = origin j := by
  decide

theorem rotl_zero (x : UInt64) : rotl x 0 = x := by
  apply UInt64.toBitVec_inj.1
  apply BitVec.eq_of_getLsbD_eq
  intro z hz
  rw [getLsbD_rotl x (by omega) hz]
  congr 1
  omega

/-- Rho and pi, lane by lane. -/
theorem get_rhoPi (a : Lanes) (i : Fin 25) : (rhoPi a).get i = turned a (origin i) := by
  rw [rhoPi]
  by_cases h : i ∈ laneCycle
  · rw [get_foldl_step_of_mem a h nodup_laneCycle _ rfl (fun _ _ => rfl), placeBefore_laneCycle i h]
  · rw [get_foldl_step_of_notMem h]
    obtain rfl := Decidable.not_not.1 fun hne => h ((mem_laneCycle i).2 hne)
    exact (rotl_zero (a.get 0)).symm

end Sha3.Keccak
