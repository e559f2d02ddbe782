/-! KECCAK-p[1600, 24] as the standard defines it, bit by bit, with no table: the rotations come
    from the walk `(x, y) → (y, 2x + 3y)`, and the round constants from a shift register of eight
    bits.

    A state is a function of `x`, `y` and `z`. Coordinates are numbers below 5 and below 64, and
    their sums and differences go around the end, as the standard's "mod" says. -/

namespace Sha3.Standard

/-- The state array. -/
abbrev BitArray := Fin 5 → Fin 5 → Fin 64 → Bool

/-- The parity of column `(x, z)`. -/
def parity (A : BitArray) (x : Fin 5) (z : Fin 64) : Bool :=
  A x 0 z ^^ A x 1 z ^^ A x 2 z ^^ A x 3 z ^^ A x 4 z

def theta (A : BitArray) : BitArray := fun x y z =>
  A x y z ^^ parity A (x - 1) z ^^ parity A (x + 1) (z - 1)

/-- Place `t` of the walk, which starts at `(1, 0)`. -/
def walk : Nat → Fin 5 × Fin 5
  | 0 => (1, 0)
  | t + 1 => ((walk t).2, 2 * (walk t).1 + 3 * (walk t).2)

/-- The rotation of lane `(x, y)`: `(t + 1)(t + 2) / 2` for the `t < 24` at which the walk comes by,
    and none for lane `(0, 0)`, where it never comes. -/
def offset (x y : Fin 5) : Nat :=
  match (List.range 24).find? fun t => walk t = (x, y) with
  | some t => (t + 1) * (t + 2) / 2
  | none => 0

def rho (A : BitArray) : BitArray := fun x y z =>
  A x y (z - Fin.ofNat 64 (offset x y))

def pi (A : BitArray) : BitArray := fun x y z =>
  A (x + 3 * y) x z

def chi (A : BitArray) : BitArray := fun x y z =>
  A x y z ^^ ((A (x + 1) y z ^^ true) && A (x + 2) y z)

/-- One turn of the shift register, bit `i` of the standard's string being bit `i` of the word: the
    bit that falls out at the end goes back into places 0, 4, 5 and 6. -/
def shiftRegister (r : BitVec 8) : BitVec 8 :=
  (r <<< 1) ^^^ (if r.getLsbD 7 then 0b01110001 else 0)

/-- The output of the register after `t` turns. -/
def rc (t : Nat) : Bool :=
  (Nat.repeat shiftRegister (t % 255) 1).getLsbD 0

/-- Bit `z` of the constant of round `ir`: place `2 ^ j - 1` holds output `j + 7 * ir`. -/
def roundBit (ir : Nat) (z : Fin 64) : Bool :=
  (List.range 7).any fun j => z.val + 1 = Nat.pow 2 j && rc (j + 7 * ir)

def iota (ir : Nat) (A : BitArray) : BitArray := fun x y z =>
  A x y z ^^ (x = 0 && y = 0 && roundBit ir z)

def round (A : BitArray) (ir : Nat) : BitArray :=
  iota ir (chi (pi (rho (theta A))))

/-- Rounds 0 to 23, in order. -/
def keccakP (A : BitArray) : BitArray :=
  (List.range 24).foldl round A

end Sha3.Standard
