import Sha3.Call
import Sha3.Lookup
import Sha3.Session.Slots

/-! Sessions: objects of one kind in named slots, worked on step by step. A step makes an object,
    copies one, or calls one, and gets one answer; a step that fails is answered too, and the next
    step goes on with what is there:

        slots ──step──▶ slots ──step──▶ slots …
                │               │
                ▼               ▼
             answer          answer -/

namespace Sha3

variable {σ Seed Op Reply : Type}

/-- What one call on an object comes to: the object it leaves behind, if any, the reply, and the
    events it told. -/
structure Outcome (σ Reply : Type) where
  object : Option σ
  reply : Reply
  failure : Option Failure
  log : List Event

/-- The outcome of a call, with a reply made from its answer. -/
def Outcome.ofCall {α : Type} (c : Call σ α) (x : σ) (reply : Option α → Reply) :
    Outcome σ Reply :=
  match c ⟨x, []⟩ with
  | .ok a o => ⟨some o.object, reply (some a), none, o.log⟩
  | .error f o => ⟨some o.object, reply none, some f, o.log⟩

/-- The outcome of looking at an object. -/
def Outcome.ofLook (x : σ) (reply : Reply) : Outcome σ Reply :=
  ⟨some x, reply, none, []⟩

/-- What a session has to know about a kind of object. An operation may be one that the object as it
    stands does not take. -/
structure Kind (σ Seed Op Reply : Type) where
  create : Variant → Seed → Call Unit σ
  copy : σ → σ
  perform : Op → σ → Option (Outcome σ Reply)

inductive Step (Seed Op : Type) where
  | create (slot : String) (which : Selector) (seed : Seed)
  | copy (slot target : String)
  | call (slot : String) (op : Op)

/-- What a step is answered: the events it told, why it failed, the reply of a call, and the object
    that its slot holds afterwards. -/
structure Answer (σ Reply : Type) where
  log : List Event
  failure : Option Failure
  reply : Option Reply
  object : Option σ

namespace Kind

variable (k : Kind σ Seed Op Reply)

/-- One step. There is none for a slot that is empty or an operation that is not taken. -/
def step (slots : Slots σ) : Step Seed Op → Option (Answer σ Reply × Slots σ)
  | .create slot which seed =>
    match which.variant with
    | .error e => some (⟨[], some (.error e), none, slots.get? slot⟩, slots)
    | .ok v =>
      match k.create v seed ⟨(), []⟩ with
      | .ok x o => some (⟨o.log, none, none, some x⟩, slots.put slot x)
      | .error f o => some (⟨o.log, some f, none, slots.get? slot⟩, slots)
  | .copy slot target => do
    let after := slots.put target (k.copy (← slots.get? slot))
    return (⟨[], none, none, after.get? slot⟩, after)
  | .call slot op => do
    let r ← k.perform op (← slots.get? slot)
    let answer := ⟨r.log, r.failure, some r.reply, r.object⟩
    match r.object with
    | some x => return (answer, slots.put slot x)
    | none => return (answer, slots.erase slot)

/-- The answers to a run of steps, and the slots after it. -/
def run (slots : Slots σ) : List (Step Seed Op) → Option (List (Answer σ Reply) × Slots σ)
  | [] => some ([], slots)
  | s :: steps => do
    let (answer, slots) ← k.step slots s
    let (answers, slots) ← run slots steps
    return (answer :: answers, slots)

end Kind

end Sha3
