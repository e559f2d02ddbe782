import Sha3.Keccak.Tables

/-! KECCAK-f[1600] on lanes. A round is four steps: theta adds to every lane the parities of two
    neighbouring columns, rho and pi turn the lanes and send them to new places, chi mixes each row
    with itself, and iota adds the constant of the round to lane 0.

    Rho and pi are one walk along `laneCycle`. The walk holds one lane in hand:

        hand = a[1] → turned into a[10], hand = old a[10] → turned into a[7], … → turned into a[1]

    A lane turns by the offset of the place it was lifted from. -/

namespace Sha3.Keccak

/-- The parity of each column of the sheet. -/
def columnParity (a : Lanes) : Columns :=
  .ofFn fun x => a[x.val] ^^^ a[x.val + 5] ^^^ a[x.val + 10] ^^^ a[x.val + 15] ^^^ a[x.val + 20]

/-- What theta adds to each lane of column `x`: the parity of the column before it and the parity,
    turned by one, of the column after it. -/
def columnEffect (p : Columns) : Columns :=
  .ofFn fun x => column p (x.val + 4) ^^^ rotl (column p (x.val + 1)) 1

/-- Adds to every lane the word of its column. -/
def addToColumns (d : Columns) (a : Lanes) : Lanes :=
  .ofFn fun i => a.get i ^^^ column d i.val

/-- Adds to every lane the effect of its column. -/
def theta (a : Lanes) : Lanes :=
  addToColumns (columnEffect (columnParity a)) a

/-- A walk in progress: the sheet, the lane in hand, and the place it was lifted from. -/
structure Walk where
  lanes : Lanes
  hand : UInt64
  source : Fin 25

/-- Puts the lane in hand, turned, down at `target` and lifts the lane that was there. -/
def Walk.step (w : Walk) (target : Fin 25) : Walk where
  lanes := w.lanes.set target (rotl w.hand (rotationOffsets.get w.source))
  hand := w.lanes.get target
  source := target

/-- Walks the whole cycle. -/
def rhoPi (a : Lanes) : Lanes :=
  (laneCycle.foldl Walk.step ⟨a, a.get cycleStart, cycleStart⟩).lanes

/-- Adds to every lane the places where the next lane of its row has a zero and the one after that a
    one. -/
def chi (a : Lanes) : Lanes :=
  .ofFn fun i => a.get i ^^^ (~~~a.get (along i 1) &&& a.get (along i 2))

/-- Adds the word `c` to lane 0. -/
def iota (c : UInt64) (a : Lanes) : Lanes :=
  a.set 0 (a[0] ^^^ c)

/-- One round with the constant `c`. -/
def round (a : Lanes) (c : UInt64) : Lanes :=
  iota c (chi (rhoPi (theta a)))

/-- The permutation: one round for each constant. -/
def permute (a : Lanes) : Lanes :=
  roundConstants.foldl round a

/-- The permutation `n` times over. -/
def permuteTimes (n : Nat) (a : Lanes) : Lanes :=
  Nat.repeat permute n a

theorem get_iota (w : UInt64) (a : Lanes) (i : Fin 25) :
    (iota w a).get i = if 0 = i then a.get 0 ^^^ w else a.get i :=
  get_set a 0 i _

end Sha3.Keccak
