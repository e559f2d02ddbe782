import Sha3.Keccak.Walk

/-! Undoing the permutation, step by step and round by round, the last round first.

    Theta is undone through the parities of the columns. Theta adds an odd number of effects to a
    column, so it takes the parities `p` to `spread 1 p`, where

        spread n p [x]  =  p[x] ^^^ p[x - n] ^^^ rotl p[x + n] n

    A `spread` is a sum of three moves, and squaring a sum over bits squares each term: two times
    `spread n` is `spread (2 * n)`. From 64 on the lanes do not turn any more, and `spread 64` and
    `spread 128` undo each other. So `spread 1` is undone by `spread 1, 2, 4, 8, 16, 32` and
    `spread 128`. -/

namespace Sha3.Keccak

/-- Adds to each word the one `n` places before it and the one `n` places after it, turned by `n`.
    -/
def spread (n : Nat) (p : Columns) : Columns :=
  .ofFn fun x =>
    column p x.val ^^^ column p (x.val + 5 - n % 5) ^^^ rotl (column p (x.val + n)) (n % 64)

/-- The column parities before theta, from those after it. -/
def parityBefore (p : Columns) : Columns :=
  [1, 2, 4, 8, 16, 32, 128].foldl (fun p n => spread n p) p

/-- Takes the effect of its column from every lane. -/
def untheta (a : Lanes) : Lanes :=
  addToColumns (columnEffect (parityBefore (columnParity a))) a

/-- Where the lane at `i` goes. -/
def target (i : Fin 25) : Fin 25 :=
  ⟨5 * ((2 * (i.val % 5) + 3 * (i.val / 5)) % 5) + i.val / 5, by omega⟩

/-- Turns every lane back and sends it to where it came from. -/
def unrhoPi (a : Lanes) : Lanes :=
  .ofFn fun i => rotl (a.get (target i)) ((64 - rotationOffsets.get i) % 64)

/-- Unmixes each row. -/
def unchi (a : Lanes) : Lanes :=
  .ofFn fun i =>
    a.get i ^^^ (~~~a.get (along i 1) &&&
      (a.get (along i 2) ^^^ (~~~a.get (along i 3) &&& a.get (along i 4))))

/-- Undoes the round with the constant `c`. -/
def unround (a : Lanes) (c : UInt64) : Lanes :=
  untheta (unrhoPi (unchi (iota c a)))

/-- Undoes the permutation. -/
def unpermute (a : Lanes) : Lanes :=
  roundConstants.reverse.foldl unround a

end Sha3.Keccak
