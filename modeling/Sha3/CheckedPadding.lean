import Sha3.Padding

/-! The padding on bytes that nothing is known of. `pad` goes to its block with a proof that each
    access lies inside; here every access is checked as it is made, and the first that fails its
    check ends the padding:

        a byte          i < length
        a tail          start ≤ length
        a difference    b ≤ a

    The bytes to be added are counted with a difference that stops at zero by itself. It needs no
    check. -/

namespace Sha3.Checked

/-- What can be out of range. -/
inductive Access where
  | byte (i : Nat)
  | tail (start : Nat)
  | difference (a b : Nat)

/-- Why a padding ends early: it is refused, or an access is out of range. -/
inductive Stop where
  | refused (e : Error)
  | outOfRange (a : Access)

/-- Work on a byte string in place. -/
abbrev Work (α : Type) := EStateM Stop Bytes α

/-- Checks an access. -/
def check (p : Prop) [Decidable p] (a : Access) : Work Unit :=
  if p then pure () else throw (.outOfRange a)

/-- Clears the bytes from `start` on. -/
def clearFrom (start : Nat) : Work Unit := do
  check (start ≤ (← get).length) (.tail start)
  modify fun b => b.take start ++ List.replicate (b.length - start) 0

/-- Sets the bits of `x` in byte `i`. -/
def setBits (i : Nat) (x : UInt8) : Work Unit := do
  check (i < (← get).length) (.byte i)
  modify fun b => b.set i (b.getD i 0 ||| x)

/-- The difference of two numbers. -/
def minus (a b : Nat) : Work Nat := do
  check (b ≤ a) (.difference a b)
  return a - b

/-- Pads the bytes in place after `len` bytes of message and answers how many were added. -/
def pad (len : Nat) (suffix : UInt8) : Work Nat := do
  let rate := (← get).length
  let count := rate - len
  if 1 ≤ count ∧ count ≤ rate then
    clearFrom len
    setBits len suffix
    setBits (← minus rate 1) terminator
    return count
  else
    throw (.refused (.padSize count rate))

/-- A result without an access out of range. -/
def inRange {α : Type} : EStateM.Result Error Bytes α → EStateM.Result Stop Bytes α
  | .ok a b => .ok a b
  | .error e b => .error (.refused e) b

/-! ### What the accesses come to -/

variable {α β : Type} {b b' : Bytes}

theorem bind_ok {x : Work α} {f : α → Work β} {a : α} (h : x b = .ok a b') :
    (x >>= f) b = f a b' := by
  simp only [bind, EStateM.bind, h]

theorem get_bind (f : Bytes → Work β) : (get >>= f) b = f b b := rfl

theorem check_of {p : Prop} [Decidable p] (h : p) (a : Access) : check p a b = .ok () b := by
  rw [check, if_pos h]; rfl

theorem clearFrom_apply {start : Nat} (h : start ≤ b.length) :
    clearFrom start b = .ok () (b.take start ++ List.replicate (b.length - start) 0) :=
  (bind_ok (check_of h (.tail start))).trans rfl

theorem setBits_apply {i : Nat} (h : i < b.length) (x : UInt8) :
    setBits i x b = .ok () (b.set i (b.getD i 0 ||| x)) :=
  (bind_ok (check_of h (.byte i))).trans rfl

theorem minus_apply {m n : Nat} (h : n ≤ m) : minus m n b = .ok (m - n) b :=
  (bind_ok (check_of h (.difference m n))).trans rfl

end Sha3.Checked
