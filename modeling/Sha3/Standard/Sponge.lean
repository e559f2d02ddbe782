import Sha3.Bytes
import Sha3.Keccak.Permutation
import Sha3.Variant

/-! The sponge construction as the standard defines it, on strings of bits: pad the message to whole
    blocks, absorb block after block into 1600 bits, and squeeze out as many bits as are asked for.

        SPONGE[f, pad, r](N, d)

    A byte is eight bits, the lowest first. The permutation is seen through bit `64 * i + z` of the
    string being bit `z` of lane `i`. -/

namespace Sha3.Standard

/-- A string of bits. -/
abbrev Bits := List Bool

/-- The state of the sponge. -/
abbrev BitState := Vector Bool 1600

/-- The bits of a byte, the lowest first. -/
def bitsOfByte (b : UInt8) : Bits :=
  List.ofFn fun k : Fin 8 => b.toBitVec.getLsbD k.val

/-- The bits of a byte string. -/
def bitsOfBytes (m : Bytes) : Bits :=
  m.flatMap bitsOfByte

/-- The padding of a string of `m` bits for blocks of `x`: a one, as few zeros as fill the block,
    and a one. -/
def pad10star1 (x m : Nat) : Bits :=
  let j := (-(m : Int) - 2) % (x : Int)
  true :: List.replicate j.toNat false ++ [true]

/-- The string cut into blocks of `r` bits. -/
def blocksOfBits (r : Nat) (n : Nat) (P : Bits) : List Bits :=
  (List.range n).map fun i => (P.drop (r * i)).take r

/-- Adds a block, followed by zeros, to the state. -/
def addBlock (S : BitState) (block : Bits) : BitState :=
  .ofFn fun i => S.get i ^^ block.getD i.val false

/-- Appends the first `r` bits of the state to the output until there are `d` of them, applying `f`
    in between. -/
def squeeze (f : BitState → BitState) (r : Nat) (hr : 0 < r) (d : Nat) (Z : Bits) (S : BitState) :
    Bits :=
  if d ≤ (Z ++ S.toList.take r).length then (Z ++ S.toList.take r).take d
  else squeeze f r hr d (Z ++ S.toList.take r) (f S)
termination_by d - Z.length
decreasing_by
  simp only [List.length_append, List.length_take, Vector.length_toList] at *
  omega

/-- The sponge with permutation `f`, padding `pad` and rate `r`, on the string `N`. -/
def sponge (f : BitState → BitState) (pad : Nat → Nat → Bits) (r : Nat) (hr : 0 < r)
    (N : Bits) (d : Nat) : Bits :=
  let P := N ++ pad r N.length
  let S := (blocksOfBits r (P.length / r) P).foldl (fun S block => f (addBlock S block))
    (.replicate 1600 false)
  squeeze f r hr d [] S

/-! ### The permutation on strings of bits -/

/-- The lanes of a state. -/
def lanesOfBits (S : BitState) : Keccak.Lanes :=
  .ofFn fun i => UInt64.ofBitVec
    ((BitVec.ofBoolListLE (List.ofFn fun z : Fin 64 => S[64 * i.val + z.val])).setWidth 64)

/-- The state of the lanes. -/
def bitsOfLanes (a : Keccak.Lanes) : BitState :=
  .ofFn fun j => a[j.val / 64].toBitVec.getLsbD (j.val % 64)

/-- The permutation of lanes, on strings of bits. -/
def permuteBits (S : BitState) : BitState :=
  bitsOfLanes (Keccak.permute (lanesOfBits S))

/-- The hash of a message of bits: two bits mark it, and the sponge does the rest. -/
def hashBits (v : Variant) (M : Bits) : Bits :=
  have hr := Nat.mul_pos (Nat.succ_pos 7) v.rate_pos
  sponge permuteBits pad10star1 (8 * v.rate) hr (M ++ [false, true]) (8 * v.digestLength)

end Sha3.Standard
