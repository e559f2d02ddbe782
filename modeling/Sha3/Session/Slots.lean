/-! Slots: objects under names. A name holds one object or none, and `get?_put` and `get?_erase` say
    that a write to one name leaves the others alone. -/

namespace Sha3

variable {σ : Type}

/-- Objects under names, each name at most once. -/
abbrev Slots (σ : Type) := List (String × σ)

namespace Slots

/-- The object under a name. -/
def get? (slots : Slots σ) (name : String) : Option σ :=
  slots.lookup name

/-- Empties a name. -/
def erase (slots : Slots σ) (name : String) : Slots σ :=
  slots.filter fun e => e.1 ≠ name

/-- Puts an object under a name, in place of what it held. -/
def put (slots : Slots σ) (name : String) (x : σ) : Slots σ :=
  (name, x) :: slots.erase name

theorem get?_erase (slots : Slots σ) (name other : String) :
    (slots.erase name).get? other = if other = name then none else slots.get? other := by
  induction slots with
  | nil => simp [erase, get?]
  | cons e slots ih =>
    obtain ⟨key, x⟩ := e
    simp only [erase, get?, List.filter_cons] at ih ⊢
    by_cases hk : key = name
    · subst hk
      by_cases ho : other = key
      · simpa [ho] using ih
      · simpa [ho, List.lookup_cons, beq_eq_false_iff_ne.mpr ho] using ih
    · by_cases ho : other = key
      · subst ho
        simp [hk]
      · simpa [hk, List.lookup_cons, beq_eq_false_iff_ne.mpr ho] using ih

theorem get?_put (slots : Slots σ) (name other : String) (x : σ) :
    (slots.put name x).get? other = if other = name then some x else slots.get? other := by
  have h := get?_erase slots name other
  unfold get? at h ⊢
  by_cases ho : other = name
  · subst ho
    simp [put]
  · rw [if_neg ho] at h ⊢
    rw [put, List.lookup_cons, beq_eq_false_iff_ne.mpr ho]
    exact h

end Slots

end Sha3
