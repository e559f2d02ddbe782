import Mathlib.Data.List.Forall2
import Sha3.Session.Steps

/-! One kind of object standing in for another. When objects of the two kinds are made, copied and
    called alike, whole sessions of them are alike, step by step:

        slots ──step──▶ slots ──step──▶ slots …
          │ R      ↓      │ R      ↓      │ R
        slots ──step──▶ slots ──step──▶ slots …

    Alike are answers with the same events, failure and reply, and with related objects. A step that
    one of the two does not take is not taken by the other. -/

namespace Sha3

variable {σ τ Seed Op Reply : Type} {R : σ → τ → Prop}

/-- Outcomes that differ in nothing but related objects. -/
structure Outcome.Alike (R : σ → τ → Prop) (a : Outcome σ Reply) (b : Outcome τ Reply) : Prop where
  object : Option.Rel R a.object b.object
  reply : a.reply = b.reply
  failure : a.failure = b.failure
  log : a.log = b.log

theorem Outcome.Alike.ofLook {x : σ} {y : τ} (h : R x y) (reply : Reply) :
    Outcome.Alike R (.ofLook x reply) (.ofLook y reply) :=
  ⟨.some h, rfl, rfl, rfl⟩

/-- Answers that differ in nothing but related objects. -/
structure Answer.Alike (R : σ → τ → Prop) (a : Answer σ Reply) (b : Answer τ Reply) : Prop where
  log : a.log = b.log
  failure : a.failure = b.failure
  reply : a.reply = b.reply
  object : Option.Rel R a.object b.object

/-- Slots with related objects under the same names. -/
def Slots.Alike (R : σ → τ → Prop) (s : Slots σ) (t : Slots τ) : Prop :=
  ∀ name, Option.Rel R (s.get? name) (t.get? name)

/-- Related objects were made and the same was told, or both failed for the same reason. -/
inductive MadeAlike (R : σ → τ → Prop) : EStateM.Result Failure (Observed Unit) σ →
    EStateM.Result Failure (Observed Unit) τ → Prop where
  | ok {x : σ} {y : τ} {o : Observed Unit} : R x y → MadeAlike R (.ok x o) (.ok y o)
  | error {f : Failure} {o : Observed Unit} : MadeAlike R (.error f o) (.error f o)

/-- Objects of the two kinds are made, copied and called alike. -/
structure Kind.Refines (R : σ → τ → Prop) (k : Kind σ Seed Op Reply) (l : Kind τ Seed Op Reply) :
    Prop where
  create : ∀ v seed, MadeAlike R (k.create v seed ⟨(), []⟩) (l.create v seed ⟨(), []⟩)
  copy : ∀ {x y}, R x y → R (k.copy x) (l.copy y)
  perform : ∀ {x y}, R x y → ∀ op, Option.Rel (Outcome.Alike R) (k.perform op x) (l.perform op y)

/-- Computations alike, carried on alike. -/
theorem rel_bind {α β γ δ : Type} {P : α → β → Prop} {Q : γ → δ → Prop} {a : Option α}
    {b : Option β} {f : α → Option γ} {g : β → Option δ} (h : Option.Rel P a b)
    (hfg : ∀ {x y}, P x y → Option.Rel Q (f x) (g y)) : Option.Rel Q (a >>= f) (b >>= g) := by
  rcases h with hxy | -
  · exact hfg hxy
  · exact .none

/-! ### Slots -/

namespace Slots.Alike

theorem nil : Slots.Alike R [] [] := fun _ => .none

theorem put {s : Slots σ} {t : Slots τ} (h : s.Alike R t) {x : σ} {y : τ} (hxy : R x y)
    (name : String) : (s.put name x).Alike R (t.put name y) := by
  intro other
  rw [get?_put, get?_put]
  rcases eq_or_ne other name with ho | ho
  · rw [if_pos ho, if_pos ho]
    exact .some hxy
  · rw [if_neg ho, if_neg ho]
    exact h other

theorem erase {s : Slots σ} {t : Slots τ} (h : s.Alike R t) (name : String) :
    (s.erase name).Alike R (t.erase name) := by
  intro other
  rw [get?_erase, get?_erase]
  rcases eq_or_ne other name with ho | ho
  · rw [if_pos ho, if_pos ho]
    exact .none
  · rw [if_neg ho, if_neg ho]
    exact h other

end Slots.Alike

/-! ### Sessions -/

namespace Kind.Refines

variable {k : Kind σ Seed Op Reply} {l : Kind τ Seed Op Reply}

/-- One step on slots that are alike leaves them alike. -/
theorem step (h : k.Refines R l) {s : Slots σ} {t : Slots τ} (hs : s.Alike R t) :
    ∀ st : Step Seed Op, Option.Rel (fun a b => a.1.Alike R b.1 ∧ a.2.Alike R b.2)
      (k.step s st) (l.step t st)
  | .create slot which seed => by
    have kept {log : List Event} {failure : Option Failure} {reply : Option Reply} :
        Answer.Alike R ⟨log, failure, reply, s.get? slot⟩ ⟨log, failure, reply, t.get? slot⟩ :=
      ⟨rfl, rfl, rfl, hs slot⟩
    rw [Kind.step, Kind.step]
    cases which.variant with
    | error e => exact .some ⟨kept, hs⟩
    | ok v =>
      dsimp only
      have hm := h.create v seed
      generalize k.create v seed ⟨(), []⟩ = r at hm ⊢
      generalize l.create v seed ⟨(), []⟩ = r' at hm ⊢
      cases hm with
      | ok hxy => exact .some ⟨⟨rfl, rfl, rfl, .some hxy⟩, hs.put hxy slot⟩
      | error => exact .some ⟨kept, hs⟩
  | .copy slot target => by
    refine rel_bind (hs slot) fun hxy => ?_
    have ht := hs.put (h.copy hxy) target
    exact .some ⟨⟨rfl, rfl, rfl, ht slot⟩, ht⟩
  | .call slot op => by
    refine rel_bind (hs slot) fun hxy => rel_bind (h.perform hxy op) fun {a b} hr => ?_
    obtain ⟨x, reply, failure, log⟩ := a
    obtain ⟨y, reply', failure', log'⟩ := b
    obtain ⟨ho, rfl, rfl, rfl⟩ := hr
    have ha : Answer.Alike R ⟨log, failure, some reply, x⟩ ⟨log, failure, some reply, y⟩ :=
      ⟨rfl, rfl, rfl, ho⟩
    cases ho with
    | none => exact .some ⟨ha, hs.erase slot⟩
    | some hxy => exact .some ⟨ha, hs.put hxy slot⟩

/-- A run on slots that are alike is answered alike and leaves them alike. -/
theorem run (h : k.Refines R l) : ∀ (steps : List (Step Seed Op)) {s : Slots σ} {t : Slots τ},
    s.Alike R t → Option.Rel (fun a b => List.Forall₂ (Answer.Alike R) a.1 b.1 ∧ a.2.Alike R b.2)
      (k.run s steps) (l.run t steps)
  | [], _, _, hs => .some ⟨.nil, hs⟩
  | st :: steps, _, _, hs =>
    rel_bind (h.step hs st) fun ha =>
      rel_bind (run h steps ha.2) fun hr => .some ⟨.cons ha.1 hr.1, hr.2⟩

end Kind.Refines

end Sha3
