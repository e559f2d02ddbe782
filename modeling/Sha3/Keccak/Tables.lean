import Sha3.Keccak.State

/-! The constants of KECCAK-f[1600]: one word for each round, one rotation for each lane, and the
    order in which the lanes change places. -/

namespace Sha3.Keccak

/-- Rounds of the permutation. -/
def roundCount : Nat := 24

/-- The word that each round adds to lane 0. -/
def roundConstants : List UInt64 :=
  [0x0000000000000001, 0x0000000000008082, 0x800000000000808A, 0x8000000080008000,
   0x000000000000808B, 0x0000000080000001, 0x8000000080008081, 0x8000000000008009,
   0x000000000000008A, 0x0000000000000088, 0x0000000080008009, 0x000000008000000A,
   0x000000008000808B, 0x800000000000008B, 0x8000000000008089, 0x8000000000008003,
   0x8000000000008002, 0x8000000000000080, 0x000000000000800A, 0x800000008000000A,
   0x8000000080008081, 0x8000000000008080, 0x0000000080000001, 0x8000000080008008]

/-- How far each lane turns, by its index before it moves. -/
def rotationOffsets : Vector Nat 25 :=
  #v[ 0,  1, 62, 28, 27,
     36, 44,  6, 55, 20,
      3, 10, 43, 25, 39,
     41, 45, 15, 21,  8,
     18,  2, 61, 56, 14]

/-- The lane that is lifted first. -/
def cycleStart : Fin 25 := 1

/-- The places that the first lane, and each lane displaced after it, moves to. Lane 0 keeps its
    place. -/
def laneCycle : List (Fin 25) :=
  [10, 7, 11, 17, 18, 3, 5, 16, 8, 21, 24, 4, 15, 23, 19, 13, 12, 2, 20, 14, 22, 9, 6, 1]

end Sha3.Keccak
