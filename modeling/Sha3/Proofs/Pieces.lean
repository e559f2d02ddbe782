import Sha3.Proofs.Session.Hashers

/-! A message may come in any pieces. A streaming hasher that is fed some of them holds what they
    are put together, so its digest is the one of hashing, and the pieces cannot be told from it:

        hasher ──piece──▶ hasher ──piece──▶ hasher … ──rest──▶ hasher ──finalize──▶ digest
          │ holds           │ holds           │ holds            │ holds
          no bytes          piece             piece ++ piece     message -/

namespace Sha3

/-- Pieces of given sizes are the beginning of a message, as much of it as there is. -/
theorem flatten_fst_cutAt : ∀ (sizes : List Nat) (m : Bytes),
    (cutAt sizes m).1.flatten = m.take (sizes.foldr (· + ·) 0)
  | [], _ => rfl
  | n :: sizes, m => by
    have ih := flatten_fst_cutAt sizes (m.drop n)
    simp only [cutAt, List.flatten_cons, ih, List.foldr_cons, List.take_add]

/-- Pieces fed one after the other make the message longer by all of them. -/
theorem Hasher.Holds.each_update {h : Hasher} {p : Past} (hh : Holds h p) (pieces : List Bytes)
    (l : List Event) : ∃ h', Call.each Hasher.update pieces ⟨h, l⟩ = .ok () ⟨h', l⟩ ∧
      Holds h' { p with given := p.given ++ pieces.flatten } := by
  induction pieces generalizing h p with
  | nil =>
    refine ⟨h, rfl, ?_⟩
    simpa using hh
  | cons piece pieces ih =>
    obtain ⟨h₁, hu, hh₁⟩ := hh.update piece l
    obtain ⟨h₂, he, hh₂⟩ := ih hh₁
    refine ⟨h₂, (Call.each_cons hu).trans he, ?_⟩
    simpa using hh₂

/-- The digest behind pieces and a rest, and the hasher as it stood between the two. -/
theorem Hasher.Holds.each_update_finalize {h : Hasher} {p : Past} (hh : Holds h p)
    (pieces : List Bytes) (rest : Bytes) (l : List Event) :
    let m := p.given ++ (pieces.flatten ++ rest)
    ∃ middle h', Holds middle { p with given := p.given ++ pieces.flatten } ∧
      (do
        Call.each Hasher.update pieces
        let middle ← Call.current
        Hasher.update rest
        return (← Hasher.finalize, middle)) ⟨h, l⟩ =
          .ok (digestOf p.variant m, middle) ⟨h', l ++ finalizing p.variant m⟩ := by
  obtain ⟨middle, he, hm⟩ := hh.each_update pieces l
  obtain ⟨h', hf⟩ := hm.update_finalize rest l
  rw [List.append_assoc] at hf
  refine ⟨middle, h', hm, (Call.bind_ok he).trans ?_⟩
  rw [Call.current_bind, ← bind_assoc]
  exact (Call.bind_ok hf).trans rfl

variable {τ : Type}

/-- A message that is fed whole has the digest of hashing, and the same is told. -/
theorem digest_eq_hash (v : Variant) (m : Bytes) : (digest v m : Call τ Bytes) = hash v m := by
  funext o
  obtain ⟨h', hf⟩ := (Hasher.holds_fresh v).update_finalize m (o.log ++ [.initialised v])
  rw [hash_apply, digest]
  refine (Call.bind_ok (Hasher.create_apply v o)).trans ?_
  exact Call.aside_ok (o := ⟨o.object, o.log ++ [.initialised v]⟩) hf

/-- A message that is fed in pieces has the digest of hashing, whatever their sizes. Before the rest
    is fed the hasher holds what came until then. -/
theorem digestInPieces_apply (v : Variant) (m : Bytes) (sizes : List Nat) (o : Observed τ) :
    ∃ middle, Hasher.Holds middle ⟨v, m.take (sizes.foldr (· + ·) 0)⟩ ∧
      digestInPieces v m sizes o = .ok (digestOf v m, middle)
        ⟨o.object, o.log ++ [.initialised v] ++ finalizing v m⟩ := by
  obtain ⟨middle, h', hh, hf⟩ := (Hasher.holds_fresh v).each_update_finalize (cutAt sizes m).1
    (cutAt sizes m).2 (o.log ++ [.initialised v])
  rw [flatten_cutAt] at hf
  rw [flatten_fst_cutAt] at hh
  refine ⟨middle, hh, (Call.bind_ok (Hasher.create_apply v o)).trans ?_⟩
  exact Call.aside_ok (o := ⟨o.object, o.log ++ [.initialised v]⟩) hf

end Sha3
