import Sha3.CheckedPadding
import Sha3.Proofs.Blocks

/-! The padding of a block, for every length of the block, every length of the message and every
    suffix. It answers just when there is room for a byte, and then the block is settled byte by
    byte, whatever stood behind the message:

        i < len     as it was
        i = len     the suffix
        i > len     zero

    The last byte has 0x80 besides; with room for one byte it is that of the suffix.

    A second padding finds its own bytes and leaves them. Without room the block is left alone.
    Nothing of this rests on accesses that lie inside the block by assumption: the padding that
    checks every access comes to the same (`Checked.pad_eq`). -/

namespace Sha3

variable {len : Nat} {block : Bytes}

/-- What a padding of `block` after `len` bytes leaves and answers when there is room. -/
structure Pads (len : Nat) (suffix : UInt8) (block : Bytes) (count : Nat) (left : Bytes) :
    Prop where
  counted : count = block.length - len
  least : 1 ≤ count
  most : count ≤ block.length
  length : left.length = block.length
  kept : ∀ i < len, left[i]? = block[i]?
  filled : ∀ i, len ≤ i → i < block.length → left[i]? =
    some ((if i = len then suffix else 0) ||| (if i = block.length - 1 then 0x80 else 0))
  again : padBytes len suffix left = .ok count left

/-! ### What is left -/

theorem kept_paddedBytes (h : len < block.length) (suffix : UInt8) {i : Nat} (hi : i < len) :
    (paddedBytes len suffix block)[i]? = block[i]? := by
  have hb : i < block.length := Nat.lt_trans hi h
  rw [getElem?_paddedBytes len suffix hb, if_pos hi, List.getElem?_eq_getElem hb]

/-- A padded block is padded already. -/
theorem paddedBytes_paddedBytes (h : len < block.length) (suffix : UInt8) :
    paddedBytes len suffix (paddedBytes len suffix block) = paddedBytes len suffix block := by
  have h' : len < (paddedBytes len suffix block).length := by rwa [length_paddedBytes]
  have ht : (paddedBytes len suffix block).take len = block.take len := by
    have hl : len ≤ (block.take len).length := by rw [List.length_take]; omega
    rw [paddedBytes_eq h, List.take_append_of_le_length hl, List.take_take, Nat.min_self]
  rw [paddedBytes_eq h', ht, length_paddedBytes, paddedBytes_eq h]

theorem pads_paddedBytes (h : len < block.length) (suffix : UInt8) :
    Pads len suffix block (block.length - len) (paddedBytes len suffix block) where
  counted := rfl
  least := Nat.sub_pos_of_lt h
  most := Nat.sub_le _ _
  length := length_paddedBytes len suffix block
  kept _ hi := kept_paddedBytes h suffix hi
  filled i hi hb := by
    rw [getElem?_paddedBytes len suffix hb, if_neg (Nat.not_lt.2 hi)]
    rfl
  again := by
    have h' : len < (paddedBytes len suffix block).length := by rwa [length_paddedBytes]
    rw [padBytes_of_lt h', paddedBytes_paddedBytes h, length_paddedBytes]

/-! ### Every access checked

    The checked padding goes through the same blocks as the other, access by access. -/

namespace Checked

variable {rate : Nat}

theorem clearFrom_toList (h : len ≤ rate) (v : Vector UInt8 rate) :
    clearFrom len v.toList = .ok () (Sha3.clearFrom len v).toList := by
  have hl : (v.toList.take len).length = len := by
    rw [List.length_take, Vector.length_toList, Nat.min_eq_left h]
  rw [clearFrom_apply (by rwa [Vector.length_toList])]
  congr 1
  have hs : (v.toList.take len ++ List.replicate (v.toList.length - len) 0).length =
      (Sha3.clearFrom len v).toList.length := by
    rw [List.length_append, hl, List.length_replicate, Vector.length_toList, Vector.length_toList]
    omega
  refine List.ext_getElem hs fun i hi _ => ?_
  rw [Vector.getElem_toList, getElem_clearFrom, List.getElem_append]
  simp only [hl, List.getElem_take, List.getElem_replicate, Vector.getElem_toList]
  rfl

theorem setBits_toList {i : Nat} (h : i < rate) (x : UInt8) (v : Vector UInt8 rate) :
    setBits i x v.toList = .ok () (Sha3.setBits i h x v).toList := by
  have hi : i < v.toList.length := by rwa [Vector.length_toList]
  rw [setBits_apply hi, Sha3.setBits, Vector.toList_set, List.getD_eq_getElem?_getD,
    List.getElem?_eq_getElem hi, Option.getD_some, Vector.getElem_toList]

theorem pad_toList (len : Nat) (suffix : UInt8) (v : Vector UInt8 rate) :
    pad len suffix v.toList = match Sha3.pad len suffix v with
      | .ok count left => .ok count left.toList
      | .error e left => .error (.refused e) left.toList := by
  rw [pad, get_bind, Sha3.pad]
  simp only [Vector.length_toList]
  -- behind the guard `len` is below `rate`, and each access is checked from that
  by_cases hc : 1 ≤ rate - len ∧ rate - len ≤ rate
  · rw [if_pos hc, dif_pos hc]
    refine (bind_ok (clearFrom_toList (by omega) v)).trans ?_
    refine (bind_ok (setBits_toList (by omega) suffix _)).trans ?_
    refine (bind_ok (minus_apply (by omega))).trans ?_
    exact (bind_ok (setBits_toList (by omega) terminator _)).trans rfl
  · rw [if_neg hc, dif_neg hc]
    rfl

/-- No access of the padding is out of range. -/
theorem pad_eq (len : Nat) (suffix : UInt8) (block : Bytes) :
    pad len suffix block = inRange (padBytes len suffix block) := by
  rw [padBytes]
  refine (pad_toList len suffix (Vector.mk block.toArray List.size_toArray)).trans ?_
  cases Sha3.pad len suffix (Vector.mk block.toArray List.size_toArray) with
  | ok count left => rfl
  | error e left => rfl

end Checked

/-- With room for a byte the block is padded, else it is refused and stays. Either way every access
    was in range. -/
theorem padBytes_total (len : Nat) (suffix : UInt8) (block : Bytes) :
    (if len < block.length then
      ∃ count left, padBytes len suffix block = .ok count left ∧ Pads len suffix block count left
    else
      padBytes len suffix block = .error (.padSize 0 block.length) block) ∧
    Checked.pad len suffix block = Checked.inRange (padBytes len suffix block) := by
  refine ⟨?_, Checked.pad_eq len suffix block⟩
  split
  case isTrue h => exact ⟨_, _, padBytes_of_lt h suffix, pads_paddedBytes h suffix⟩
  case isFalse h => exact padBytes_of_le (Nat.not_lt.1 h) suffix

end Sha3
