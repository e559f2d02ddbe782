import Sha3.Event
import Sha3.Failure

/-! Calls that work on an object in place. A call reads and changes its object, may tell the
    observer of events, and answers or fails:

        object, log  →  answer  + object, log
                     →  failure + object, log

    The object and the log are there after a failure too, as far as the call got. -/

namespace Sha3

variable {σ τ α β : Type}

/-- An object, and what the observer has been told so far. -/
structure Observed (σ : Type) where
  object : σ
  log : List Event

/-- A call on an object of type `σ`. -/
abbrev Call (σ α : Type) := EStateM Failure (Observed σ) α

namespace Call

/-- The object as it stands. -/
def current : Call σ σ := do
  return (← get).object

/-- Changes the object. -/
def change (f : σ → σ) : Call σ Unit :=
  modify fun o => { o with object := f o.object }

/-- Tells the observer of an event. -/
def tell (e : Event) : Call σ Unit :=
  modify fun o => { o with log := o.log ++ [e] }

/-- Runs a call on a part: `enter` takes the part out of the object, and `leave` puts it back
    whether the call answers or fails. -/
def inside (enter : τ → σ) (leave : σ → τ → τ) (c : Call σ α) : Call τ α := fun o =>
  match c ⟨enter o.object, o.log⟩ with
  | .ok a p => .ok a ⟨leave p.object o.object, p.log⟩
  | .error f p => .error f ⟨leave p.object o.object, p.log⟩

/-- Runs a call on an object of its own, which is gone afterwards. -/
def aside (x : σ) (c : Call σ α) : Call τ α :=
  inside (fun _ => x) (fun _ o => o) c

/-- Checks a condition that the caller owes. -/
def demand (p : Prop) [Decidable p] (f : Fault) : Call σ Unit :=
  if p then pure () else throw (.fault f)

/-- Runs one call for each element, from the first. -/
def each (f : β → Call σ Unit) : List β → Call σ Unit
  | [] => pure ()
  | b :: bs => do
    f b
    each f bs

/-! ### What calls come to -/

theorem bind_ok {x : Call σ α} {f : α → Call σ β} {o o' : Observed σ} {a : α}
    (h : x o = .ok a o') : (x >>= f) o = f a o' := by
  simp only [bind, EStateM.bind, h]

theorem bind_error {x : Call σ α} {f : α → Call σ β} {o o' : Observed σ} {e : Failure}
    (h : x o = .error e o') : (x >>= f) o = .error e o' := by
  simp only [bind, EStateM.bind, h]

/-- What a call made of two did: both of them answered. -/
theorem exists_of_bind_ok {x : Call σ α} {f : α → Call σ β} {o o'' : Observed σ} {b : β}
    (h : (x >>= f) o = .ok b o'') : ∃ a o', x o = .ok a o' ∧ f a o' = .ok b o'' := by
  simp only [bind, EStateM.bind] at h
  cases hx : x o with
  | ok a o' =>
    rw [hx] at h
    exact ⟨a, o', rfl, h⟩
  | error e o' =>
    rw [hx] at h
    cases h

theorem current_bind (f : σ → Call σ β) (o : Observed σ) :
    (current >>= f) o = f o.object o := rfl

theorem change_apply (f : σ → σ) (o : Observed σ) :
    change f o = .ok () ⟨f o.object, o.log⟩ := rfl

theorem tell_apply (e : Event) (o : Observed σ) :
    tell e o = .ok () ⟨o.object, o.log ++ [e]⟩ := rfl

theorem demand_of {p : Prop} [Decidable p] (h : p) (f : Fault) (o : Observed σ) :
    demand p f o = .ok () o := by
  rw [demand, if_pos h]; rfl

theorem demand_of_not {p : Prop} [Decidable p] (h : ¬p) (f : Fault) (o : Observed σ) :
    demand p f o = .error (.fault f) o := by
  rw [demand, if_neg h]; rfl

theorem inside_ok {enter : τ → σ} {leave : σ → τ → τ} {c : Call σ α} {o : Observed τ} {a : α}
    {p : Observed σ} (h : c ⟨enter o.object, o.log⟩ = .ok a p) :
    inside enter leave c o = .ok a ⟨leave p.object o.object, p.log⟩ := by
  rw [inside, h]

theorem aside_ok {x : σ} {c : Call σ α} {o : Observed τ} {a : α} {p : Observed σ}
    (h : c ⟨x, o.log⟩ = .ok a p) : aside x c o = .ok a ⟨o.object, p.log⟩ := by
  rw [aside, inside, h]

theorem each_cons {f : β → Call σ Unit} {b : β} {bs : List β} {o o' : Observed σ}
    (h : f b o = .ok () o') : each f (b :: bs) o = each f bs o' := by
  rw [each]
  exact bind_ok h

theorem each_append (f : β → Call σ Unit) (xs ys : List β) :
    each f (xs ++ ys) = (do each f xs; each f ys) := by
  induction xs with
  | nil => rfl
  | cons x xs ih => rw [List.cons_append, each, each, ih, bind_assoc]

end Call

end Sha3
