import Sha3.Proofs.Session.Refinement

/-! What holds of every object of a session, and of every answer. If objects are made, copied and
    called within `I`, and each time no more fails or is told than `Q` allows, then a whole session
    stays within the two:

        slots ──step──▶ slots ──step──▶ slots …
         I      │ Q      I      │ Q      I
                ▼               ▼
             answer          answer

    What is kept by one kind is kept by every kind that refines it. -/

namespace Sha3

variable {σ Seed Op Reply : Type} {I : σ → Prop} {Q : Option Failure → List Event → Prop}

/-- Every object in the slots is within `I`. -/
def Slots.Within (I : σ → Prop) (slots : Slots σ) : Prop :=
  ∀ name x, slots.get? name = some x → I x

/-- Objects of the kind stay within `I`, and `Q` holds of why they fail and of what they tell. -/
structure Kind.Keeps (I : σ → Prop) (Q : Option Failure → List Event → Prop)
    (k : Kind σ Seed Op Reply) : Prop where
  unknown : ∀ e, Q (some (.error e)) []
  quiet : Q none []
  made : ∀ {v seed x o}, k.create v seed ⟨(), []⟩ = .ok x o → I x ∧ Q none o.log
  unmade : ∀ {v seed f o}, k.create v seed ⟨(), []⟩ = .error f o → Q (some f) o.log
  copy : ∀ {x}, I x → I (k.copy x)
  perform : ∀ {x op r}, I x → k.perform op x = some r →
    (∀ y, r.object = some y → I y) ∧ Q r.failure r.log

namespace Slots.Within

theorem nil : Slots.Within I [] := by
  rintro name x ⟨⟩

theorem mono {J : σ → Prop} {slots : Slots σ} (h : slots.Within I) (hIJ : ∀ x, I x → J x) :
    slots.Within J := by
  intro name x hx
  exact hIJ x (h name x hx)

theorem put {slots : Slots σ} (h : slots.Within I) {x : σ} (hx : I x) (name : String) :
    (slots.put name x).Within I := by
  intro other y hy
  rw [get?_put] at hy
  by_cases ho : other = name
  · rw [if_pos ho] at hy
    cases hy
    exact hx
  · rw [if_neg ho] at hy
    exact h other y hy

theorem erase {slots : Slots σ} (h : slots.Within I) (name : String) :
    (slots.erase name).Within I := by
  intro other y hy
  rw [get?_erase] at hy
  by_cases ho : other = name
  · rw [if_pos ho] at hy
    cases hy
  · rw [if_neg ho] at hy
    exact h other y hy

end Slots.Within

namespace Kind.Keeps

variable {k : Kind σ Seed Op Reply}

/-- Where making an object never fails and tells that it was initialised, and no more, it is the
    operations that matter. -/
theorem of_perform (hmade : ∀ v seed, ∃ x, k.create v seed ⟨(), []⟩ = .ok x ⟨(), [.initialised v]⟩)
    (herror : ∀ e, Q (some (.error e)) []) (hquiet : Q none [])
    (hinit : ∀ v, Q none [.initialised v])
    (hperform : ∀ {x op r}, k.perform op x = some r → Q r.failure r.log) :
    k.Keeps (fun _ => True) Q where
  unknown := herror
  quiet := hquiet
  made {v seed y o} hc := by
    obtain ⟨x, hx⟩ := hmade v seed
    cases hx.symm.trans hc
    exact ⟨trivial, hinit v⟩
  unmade {v seed f o} hc := by
    obtain ⟨x, hx⟩ := hmade v seed
    cases hx.symm.trans hc
  copy _ := trivial
  perform _ hr := ⟨fun _ _ => trivial, hperform hr⟩

/-- One step keeps the slots within `I` and is answered within `Q`. -/
theorem step (h : k.Keeps I Q) {slots slots' : Slots σ} {a : Answer σ Reply} {st : Step Seed Op}
    (hs : slots.Within I) (hst : k.step slots st = some (a, slots')) :
    Q a.failure a.log ∧ slots'.Within I := by
  cases st with
  | create slot which seed =>
    rw [Kind.step] at hst
    cases hw : which.variant with
    | error e =>
      simp only [hw, Option.some.injEq, Prod.mk.injEq] at hst
      obtain ⟨rfl, rfl⟩ := hst
      exact ⟨h.unknown e, hs⟩
    | ok v =>
      cases hc : k.create v seed ⟨(), []⟩ with
      | ok x o =>
        simp only [hw, hc, Option.some.injEq, Prod.mk.injEq] at hst
        obtain ⟨rfl, rfl⟩ := hst
        obtain ⟨hx, hq⟩ := h.made hc
        exact ⟨hq, hs.put hx slot⟩
      | error f o =>
        simp only [hw, hc, Option.some.injEq, Prod.mk.injEq] at hst
        obtain ⟨rfl, rfl⟩ := hst
        exact ⟨h.unmade hc, hs⟩
  | copy slot target =>
    obtain ⟨x, hx, hst⟩ := Option.bind_eq_some_iff.1 hst
    cases hst
    exact ⟨h.quiet, hs.put (h.copy (hs slot x hx)) target⟩
  | call slot op =>
    obtain ⟨x, hx, hst⟩ := Option.bind_eq_some_iff.1 hst
    obtain ⟨r, hr, hst⟩ := Option.bind_eq_some_iff.1 hst
    obtain ⟨hy, hq⟩ := h.perform (hs slot x hx) hr
    cases ho : r.object with
    | some y =>
      simp only [ho] at hst
      cases hst
      exact ⟨hq, hs.put (hy y ho) slot⟩
    | none =>
      simp only [ho] at hst
      cases hst
      exact ⟨hq, hs.erase slot⟩

/-- So does a run. -/
theorem run (h : k.Keeps I Q) (steps : List (Step Seed Op)) {slots slots' : Slots σ}
    {answers : List (Answer σ Reply)} (hs : slots.Within I)
    (hr : k.run slots steps = some (answers, slots')) :
    (∀ a ∈ answers, Q a.failure a.log) ∧ slots'.Within I := by
  induction steps generalizing slots answers with
  | nil =>
    cases hr
    exact ⟨by simp, hs⟩
  | cons st steps ih =>
    obtain ⟨⟨a, mid⟩, hst, hr⟩ := Option.bind_eq_some_iff.1 hr
    obtain ⟨⟨more, last⟩, hmore, hr⟩ := Option.bind_eq_some_iff.1 hr
    cases hr
    obtain ⟨hq, hmid⟩ := h.step hs hst
    obtain ⟨hqs, hlast⟩ := ih hmid hmore
    exact ⟨List.forall_mem_cons.2 ⟨hq, hqs⟩, hlast⟩

end Kind.Keeps

/-- Objects stand within whatever those keep that they stand in for. -/
theorem Kind.Refines.keeps {τ : Type} {R : σ → τ → Prop} {J : τ → Prop} {k : Kind σ Seed Op Reply}
    {l : Kind τ Seed Op Reply} (h : k.Refines R l) (hl : l.Keeps J Q) :
    k.Keeps (fun x => ∃ y, R x y ∧ J y) Q where
  unknown := hl.unknown
  quiet := hl.quiet
  made {v seed x o} hc := by
    have hm := h.create v seed
    rw [hc] at hm
    cases hd : l.create v seed ⟨(), []⟩ with
    | ok y o' =>
      rw [hd] at hm
      cases hm with
      | ok hxy =>
        obtain ⟨hy, hq⟩ := hl.made hd
        exact ⟨⟨y, hxy, hy⟩, hq⟩
    | error f o' =>
      rw [hd] at hm
      cases hm
  unmade {v seed f o} hc := by
    have hm := h.create v seed
    rw [hc] at hm
    cases hd : l.create v seed ⟨(), []⟩ with
    | ok y o' =>
      rw [hd] at hm
      cases hm
    | error f' o' =>
      rw [hd] at hm
      cases hm
      exact hl.unmade hd
  copy := by
    rintro x ⟨y, hxy, hy⟩
    exact ⟨l.copy y, h.copy hxy, hl.copy hy⟩
  perform := by
    rintro x op r ⟨y, hxy, hy⟩ hr
    have hrel := h.perform hxy op
    rw [hr] at hrel
    cases hp : l.perform op y with
    | none =>
      rw [hp] at hrel
      cases hrel
    | some r' =>
      rw [hp] at hrel
      cases hrel with
      | some ha =>
        obtain ⟨hkept, hq⟩ := hl.perform hy hp
        rw [← ha.failure, ← ha.log] at hq
        refine ⟨?_, hq⟩
        intro z hz
        have ho := ha.object
        rw [hz] at ho
        cases hw : r'.object with
        | none =>
          rw [hw] at ho
          cases ho
        | some w =>
          rw [hw] at ho
          cases ho with
          | some hzw => exact ⟨w, hzw, hkept w hw⟩

end Sha3
