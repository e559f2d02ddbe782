import Sha3.Proofs.Session.Sponges

/-! The scratch of a sponge is never seen. Two sponges of one variant with the same bytes may hold
    anything in their lanes: a permutation fills all of the lanes from the bytes before it reads
    one, so the two answer alike and stay alike whatever is asked of them, refused calls included:

        ⟨v, bytes, x⟩ ──call──▶ ⟨v, bytes', x'⟩ ──call──▶ …
            Twins      same reply   Twins       same reply
        ⟨v, bytes, y⟩ ──call──▶ ⟨v, bytes', y'⟩ ──call──▶ …

    A copy, which starts with scratch of its own, is such a twin of its original. -/

namespace Sha3.Sponge

/-- Sponges that may differ in their scratch. -/
structure Twins (s t : Sponge) : Prop where
  variant : s.variant = t.variant
  bytes : s.bytes = t.bytes

namespace Twins

variable {s t : Sponge}

theorem refl (s : Sponge) : Twins s s := ⟨rfl, rfl⟩

theorem symm (h : Twins s t) : Twins t s := ⟨h.variant.symm, h.bytes.symm⟩

/-- The copy of a sponge is its twin. -/
theorem self_copy (s : Sponge) : Twins s s.copy := ⟨rfl, rfl⟩

theorem copy (h : Twins s t) : Twins s.copy t.copy := ⟨h.variant, h.bytes⟩

theorem cleared (h : Twins s t) : Twins s.cleared t.cleared := by
  rw [Sponge.cleared, Sponge.cleared, h.variant]
  exact refl _

/-- Blocks absorbed by both leave both with the same bytes. -/
theorem absorbAll (h : Twins s t) (blocks : List Bytes) :
    Twins (s.absorbAll blocks) (t.absorbAll blocks) where
  variant := by rw [variant_absorbAll, variant_absorbAll, h.variant]
  bytes := by rw [bytes_absorbAll, bytes_absorbAll, h.bytes]

theorem digest_eq (h : Twins s t) : s.digest = t.digest := by
  rw [digest, digest, h.variant, h.bytes]

/-- An accepted finalization leaves the same digest and the same block to the caller. -/
theorem finalized (h : Twins s t) (block : Bytes) (n : Nat) :
    Twins (s.finalized block n).1 (t.finalized block n).1 ∧
      (s.finalized block n).2 = (t.finalized block n).2 := by
  have ha := h.absorbAll (finalBlocks s.variant block n)
  simp only [Sponge.finalized, ← h.variant, ha.digest_eq]
  exact ⟨ha, trivial⟩

/-! ### Calls -/

theorem alike_debug (h : Twins s t) :
    Outcome.Alike Twins (s.perform .debug) (t.perform .debug) := by
  obtain ⟨hd, hl⟩ := debug_of_variant h.variant
  rw [perform, perform, hd, hl]
  exact .ofLook h _

theorem alike_reset (h : Twins s t) :
    Outcome.Alike Twins (s.perform .reset) (t.perform .reset) := by
  rw [perform, perform, Outcome.ofCall, Outcome.ofCall, reset_apply, reset_apply, h.variant]
  exact ⟨.some h.cleared, rfl, rfl, rfl⟩

theorem alike_absorb (h : Twins s t) (block : Bytes) :
    Outcome.Alike Twins (s.perform (.absorb block)) (t.perform (.absorb block)) := by
  rw [perform, perform, Outcome.ofCall, Outcome.ofCall]
  rcases eq_or_ne block.length s.variant.rate with hb | hb
  · have hb' : block.length = t.variant.rate := h.variant ▸ hb
    rw [absorb_apply hb, absorb_apply hb']
    exact ⟨.some (h.absorbAll [block]), rfl, rfl, rfl⟩
  · have hb' : block.length ≠ t.variant.rate := h.variant ▸ hb
    rw [absorb_apply_of_ne hb, absorb_apply_of_ne hb', h.variant]
    exact ⟨.some h, rfl, rfl, rfl⟩

theorem alike_perform (h : Twins s t) : ∀ op, Outcome.Alike Twins (s.perform op) (t.perform op)
  | .look => .ofLook h _
  | .variant => by
    rw [perform, perform, h.variant]
    exact .ofLook h _
  | .debug => h.alike_debug
  | .reset => h.alike_reset
  | .zeroize => ⟨.some h.cleared, rfl, rfl, rfl⟩
  | .absorb block => h.alike_absorb block
  | .extract block n => by
    rw [perform_extract, perform_extract, h.variant]
    exact alike_finalization h (fun _ => h.finalized block n) _
  | .finalize block n output => by
    rw [perform_finalize, perform_finalize, h.variant]
    exact alike_finalization h (fun _ => h.finalized block n) _

/-- Twins are copied and called alike. -/
theorem kind_refines : kind.Refines Twins kind where
  create v _ := .ok (refl (fresh v))
  copy h := h.copy
  perform h op := .some (h.alike_perform op)

end Twins

/-! ### Sessions -/

/-- Two runs, both or neither to their end, with the same answers and with twins in the slots. -/
def RunAlike (r r' : Option (List (Answer Sponge Reply) × Slots Sponge)) : Prop :=
  Option.Rel (fun a b => List.Forall₂ (Answer.Alike Twins) a.1 b.1 ∧ a.2.Alike Twins b.2) r r'

/-- Any slots, and twins put into them under one name. -/
theorem alike_put (slots : Slots Sponge) {s t : Sponge} (h : Twins s t) (name : String) :
    (slots.put name s).Alike Twins (slots.put name t) := by
  refine Slots.Alike.put ?_ h name
  intro other
  cases slots.get? other with
  | none => exact .none
  | some x => exact .some (.refl x)

theorem exists_object_ofCall {σ α Reply : Type} (c : Call σ α) (x : σ) (reply : Option α → Reply) :
    ∃ y, (Outcome.ofCall c x reply).object = some y := by
  rw [Outcome.ofCall]
  cases c ⟨x, []⟩ with
  | ok a o => exact ⟨_, rfl⟩
  | error f o => exact ⟨_, rfl⟩

theorem exists_object_outcomeOfFrame {α : Type} (c : Call Frame α) (f : Frame)
    (reply : Option α → Frame → Reply) : ∃ t, (outcomeOfFrame c f reply).object = some t := by
  rw [outcomeOfFrame]
  cases c ⟨f, []⟩ with
  | ok a o => exact ⟨_, rfl⟩
  | error e o => exact ⟨_, rfl⟩

/-- A sponge never leaves its slot. -/
theorem exists_object_perform (s : Sponge) : ∀ op, ∃ t, (s.perform op).object = some t
  | .look | .variant | .debug => ⟨s, rfl⟩
  | .reset | .zeroize | .absorb _ => exists_object_ofCall _ s _
  | .extract _ _ | .finalize _ _ _ => exists_object_outcomeOfFrame _ _ _

/-- Calls of one sponge are all answered, refused ones too. -/
theorem isSome_run_calls (name : String) (ops : List Op) (slots : Slots Sponge) (s : Sponge) :
    (kind.run (slots.put name s) (ops.map (.call name))).isSome := by
  -- the sponge that a call leaves is in the slot again, so the rest is a run from there
  induction ops generalizing slots s with
  | nil => rfl
  | cons op ops ih =>
    obtain ⟨t, ht⟩ := exists_object_perform s op
    have hs : (slots.put name s).get? name = some s := by rw [Slots.get?_put, if_pos rfl]
    have hstep : kind.step (slots.put name s) (.call name op) =
        some (⟨(s.perform op).log, (s.perform op).failure, some (s.perform op).reply, some t⟩,
          (slots.put name s).put name t) := by
      simp only [Kind.step, hs, kind, ht, Option.bind_eq_bind, Option.bind_some]
      rfl
    rw [List.map_cons, Kind.run, hstep]
    obtain ⟨r, hr⟩ := Option.isSome_iff_exists.1 (ih (slots.put name s) t)
    simp only [hr, Option.bind_eq_bind, Option.bind_some]
    rfl

/-- Two sponges of one variant with the same bytes can take each other's place in any session,
    whatever is in their scratch. So can a sponge and its copy, once the copy is made. A run of
    calls does not end early, so what is compared is there. -/
theorem run_forgets_scratch (v : Variant) (bytes : Keccak.StateBytes) (x y : Keccak.Lanes)
    (slots : Slots Sponge) (name target : String) :
    let s : Sponge := ⟨v, bytes, x⟩
    (∀ steps, RunAlike (kind.run (slots.put name s) steps)
      (kind.run (slots.put name ⟨v, bytes, y⟩) steps)) ∧
    (∃ answer, kind.step (slots.put name s) (.copy name target) =
        some (answer, (slots.put name s).put target s.copy) ∧
      ∀ steps, RunAlike (kind.run ((slots.put name s).put target s.copy) steps)
        (kind.run ((slots.put name s.copy).put target s) steps)) ∧
    ∀ ops : List Op, (kind.run (slots.put name s) (ops.map (.call name))).isSome := by
  intro s
  refine ⟨?any, ?copied, fun ops => isSome_run_calls name ops slots s⟩
  case any =>
    intro steps
    have h : Twins s ⟨v, bytes, y⟩ := ⟨rfl, rfl⟩
    exact Twins.kind_refines.run steps (alike_put slots h name)
  case copied =>
    have hs : (slots.put name s).get? name = some s := by rw [Slots.get?_put, if_pos rfl]
    refine ⟨⟨[], none, none, ((slots.put name s).put target s.copy).get? name⟩, ?_, ?_⟩
    · simp only [Kind.step, hs, kind, Option.bind_eq_bind, Option.bind_some]
      rfl
    · intro steps
      have h := alike_put slots (Twins.self_copy s) name
      exact Twins.kind_refines.run steps (h.put (Twins.self_copy s).symm target)

end Sha3.Sponge
