import Sha3.Bytes
import Sha3.Error

/-! The padding of the last block, in place. Behind the message comes the suffix, then zeros, and
    the highest bit of the last byte closes the block:

        | message … | suffix | 0 … 0 | 0x80 |        len + 1 < rate
        | message …       | suffix ||| 0x80 |        len + 1 = rate

    At least one byte is added and never more than the whole block; a length that would need less or
    more is refused and leaves the block as it was. Every access carries a proof that it lies inside
    the block.

    `pad_of_lt` gives the whole block after the padding, byte by byte (`padded`), and `pad_of_le`
    the refusal. -/

namespace Sha3

/-- The highest bit of the last byte of a padded block. -/
def terminator : UInt8 := 0x80

/-- Clears a block from byte `len` on. -/
def clearFrom {rate : Nat} (len : Nat) (b : Vector UInt8 rate) : Vector UInt8 rate :=
  b.mapFinIdx fun i x _ => if i < len then x else 0

/-- Sets the bits of `x` in byte `i`. -/
def setBits {rate : Nat} (i : Nat) (h : i < rate) (x : UInt8) (b : Vector UInt8 rate) :
    Vector UInt8 rate :=
  b.set i (b[i] ||| x)

/-- Pads a block in place after `len` bytes of message and answers how many bytes were added. -/
def pad {rate : Nat} (len : Nat) (suffix : UInt8) : EStateM Error (Vector UInt8 rate) Nat :=
  if h : 1 ≤ rate - len ∧ rate - len ≤ rate then do
    modify (clearFrom len)
    modify (setBits len (by omega) suffix)
    modify (setBits (rate - 1) (by omega) terminator)
    return rate - len
  else
    throw (.padSize (rate - len) rate)

/-- What a padded block holds. -/
def padded {rate : Nat} (len : Nat) (suffix : UInt8) (b : Vector UInt8 rate) : Vector UInt8 rate :=
  b.mapFinIdx fun i x _ =>
    if i < len then x
    else (if i = len then suffix else 0) ||| (if i = rate - 1 then terminator else 0)

/-- Pads a byte string, of any length, as one block. -/
def padBytes (len : Nat) (suffix : UInt8) : EStateM Error Bytes Nat := fun block =>
  match pad len suffix (Vector.mk block.toArray List.size_toArray) with
  | .ok count b => .ok count b.toList
  | .error e b => .error e b.toList

/-- What a padded byte string holds. -/
def paddedBytes (len : Nat) (suffix : UInt8) (block : Bytes) : Bytes :=
  (padded len suffix (Vector.mk block.toArray List.size_toArray)).toList

/-- Reads a padded block back: without the closing bit, its last byte that is not zero is the
    suffix, and the message lies before it. -/
def unpad (block : Bytes) : Option (Bytes × UInt8) :=
  match block.reverse with
  | [] => none
  | last :: front =>
    match ((last &&& ~~~terminator) :: front).dropWhile (· == 0) with
    | [] => none
    | suffix :: message => some (message.reverse, suffix)

/-! ### What the padding leaves -/

theorem getElem_clearFrom {rate i : Nat} (len : Nat) (b : Vector UInt8 rate) (h : i < rate) :
    (clearFrom len b)[i] = if i < len then b[i] else 0 := by
  rw [clearFrom, Vector.getElem_mapFinIdx]

theorem getElem_setBits {rate i j : Nat} (hi : i < rate) (x : UInt8) (b : Vector UInt8 rate)
    (hj : j < rate) : (setBits i hi x b)[j] = if i = j then b[j] ||| x else b[j] := by
  rw [setBits, Vector.getElem_set]
  by_cases h : i = j
  · subst h; rfl
  · rw [if_neg h, if_neg h]

/-- A length inside the block is padded. -/
theorem pad_of_lt {rate len : Nat} (h : len < rate) (suffix : UInt8) (b : Vector UInt8 rate) :
    pad len suffix b = .ok (rate - len) (padded len suffix b) := by
  have hc : 1 ≤ rate - len ∧ rate - len ≤ rate := by omega
  unfold pad
  rw [dif_pos hc]
  show EStateM.Result.ok _ _ = _
  congr 1
  apply Vector.ext
  intro i hi
  rw [getElem_setBits, getElem_setBits, getElem_clearFrom, padded, Vector.getElem_mapFinIdx]
  by_cases h1 : i < len
  · have h2 : len ≠ i := by omega
    have h3 : rate - 1 ≠ i := by omega
    simp [h1, h2, h3]
  · by_cases h2 : len = i
    · subst h2
      by_cases h3 : rate - 1 = len
      · simp [h3]
      · simp [h3, Ne.symm h3]
    · by_cases h3 : rate - 1 = i
      · simp [h1, h2, h3, Ne.symm h2]
      · simp [h1, h2, h3, Ne.symm h2, Ne.symm h3]

/-- A length that leaves no byte for padding is refused, and the block stays. -/
theorem pad_of_le {rate len : Nat} (h : rate ≤ len) (suffix : UInt8) (b : Vector UInt8 rate) :
    pad len suffix b = .error (.padSize 0 rate) b := by
  have hc : ¬ (1 ≤ rate - len ∧ rate - len ≤ rate) := by omega
  have h0 : rate - len = 0 := by omega
  unfold pad
  rw [dif_neg hc, h0]
  rfl

theorem padBytes_of_lt {len : Nat} {block : Bytes} (h : len < block.length) (suffix : UInt8) :
    padBytes len suffix block = .ok (block.length - len) (paddedBytes len suffix block) := by
  simp only [padBytes, pad_of_lt h, paddedBytes]

theorem padBytes_of_le {len : Nat} {block : Bytes} (h : block.length ≤ len) (suffix : UInt8) :
    padBytes len suffix block = .error (.padSize 0 block.length) block := by
  simp only [padBytes, pad_of_le h, Vector.toList_mk]

theorem length_paddedBytes (len : Nat) (suffix : UInt8) (block : Bytes) :
    (paddedBytes len suffix block).length = block.length := by
  simp only [paddedBytes, Vector.length_toList]

end Sha3
