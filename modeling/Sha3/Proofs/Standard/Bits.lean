import Sha3.Absorption
import Sha3.Standard.Sponge

/-! Byte strings and byte states as strings of bits. Bit `i` of the string is bit `i % 8` of byte
    `i / 8`, for a message and for the state alike, so that every step on bytes is a step on bits:

        bytes ──mixed────▶ ──permuted──▶ bytes
          │                                │   bitsOfState
        bits  ──addBlock─▶ ──permuteBits─▶ bits

    `permuteBits_addBlock` is this square for one block. -/

namespace Sha3.Standard

/-! ### Strings -/

theorem length_bitsOfByte (b : UInt8) : (bitsOfByte b).length = 8 := List.length_ofFn

theorem bitsOfBytes_cons (b : UInt8) (m : Bytes) :
    bitsOfBytes (b :: m) = bitsOfByte b ++ bitsOfBytes m := List.flatMap_cons

theorem bitsOfBytes_append (m n : Bytes) :
    bitsOfBytes (m ++ n) = bitsOfBytes m ++ bitsOfBytes n := List.flatMap_append

theorem length_bitsOfBytes : ∀ m : Bytes, (bitsOfBytes m).length = 8 * m.length
  | [] => rfl
  | b :: m => by
    rw [bitsOfBytes_cons, List.length_append, length_bitsOfByte, length_bitsOfBytes m,
      List.length_cons, Nat.mul_succ, Nat.add_comm]

theorem getElem?_bitsOfByte (b : UInt8) {i : Nat} (h : i < 8) :
    (bitsOfByte b)[i]? = some (b.toBitVec.getLsbD i) := by
  rw [bitsOfByte, List.getElem?_ofFn, dif_pos h]

theorem getElem?_bitsOfBytes : ∀ (m : Bytes) (i : Nat),
    (bitsOfBytes m)[i]? = m[i / 8]?.map fun b => b.toBitVec.getLsbD (i % 8)
  | [], i => by simp [bitsOfBytes]
  | b :: m, i => by
    have hb := length_bitsOfByte b
    rw [bitsOfBytes_cons]
    rcases Nat.lt_or_ge i 8 with h | h
    · rw [List.getElem?_append_left (by omega), getElem?_bitsOfByte b h, Nat.div_eq_of_lt h,
        Nat.mod_eq_of_lt h]
      rfl
    · have hd : i / 8 = (i - 8) / 8 + 1 := by omega
      have hm : i % 8 = (i - 8) % 8 := by omega
      rw [List.getElem?_append_right (by omega), hb, getElem?_bitsOfBytes m, hd, hm,
        List.getElem?_cons_succ]

theorem getD_bitsOfBytes (m : Bytes) (i : Nat) :
    (bitsOfBytes m).getD i false = (m.getD (i / 8) 0).toBitVec.getLsbD (i % 8) := by
  rw [List.getD_eq_getElem?_getD, List.getD_eq_getElem?_getD, getElem?_bitsOfBytes]
  cases m[i / 8]? with
  | none => simp
  | some b => rfl

theorem bitsOfBytes_take (n : Nat) (m : Bytes) :
    bitsOfBytes (m.take n) = (bitsOfBytes m).take (8 * n) := by
  refine List.ext_getElem? ?_
  intro i
  rw [getElem?_bitsOfBytes]
  rcases Nat.lt_or_ge i (8 * n) with h | h
  · rw [List.getElem?_take_of_lt h, List.getElem?_take_of_lt (by omega), getElem?_bitsOfBytes]
  · rw [List.getElem?_take_eq_none (by omega), List.getElem?_take_eq_none (by omega)]
    rfl

theorem bitsOfBytes_replicate_zero : ∀ n : Nat,
    bitsOfBytes (List.replicate n 0) = List.replicate (8 * n) false
  | 0 => rfl
  | n + 1 => by
    have h0 : bitsOfByte 0 = List.replicate 8 false := by decide
    rw [List.replicate_succ, bitsOfBytes_cons, bitsOfBytes_replicate_zero n, h0,
      List.replicate_append_replicate, Nat.mul_succ, Nat.add_comm]

/-! ### Back to bytes -/

/-- The byte of eight bits. -/
def byteOfBits (bits : Bits) : UInt8 :=
  .ofBitVec ((BitVec.ofBoolListLE bits).setWidth 8)

/-- The bytes of a string of bits. -/
def bytesOfBits (bits : Bits) : Bytes :=
  (blocksOfBits 8 (bits.length / 8) bits).map byteOfBits

theorem byteOfBits_bitsOfByte (b : UInt8) : byteOfBits (bitsOfByte b) = b := by
  refine UInt8.toBitVec_inj.1 (BitVec.eq_of_getLsbD_eq ?_)
  intro k hk
  rw [byteOfBits, UInt8.toBitVec_ofBitVec, BitVec.getLsbD_setWidth, decide_eq_true hk,
    Bool.true_and, BitVec.getLsbD_ofBoolListLE, List.getD_eq_getElem?_getD,
    getElem?_bitsOfByte b hk, Option.getD_some]

/-- Blocks of equal length, one behind the other, are cut where they were joined. -/
theorem blocksOfBits_flatten {r : Nat} : ∀ {blocks : List Bits}, (∀ b ∈ blocks, b.length = r) →
    blocksOfBits r blocks.length blocks.flatten = blocks
  | [], _ => rfl
  | b :: blocks, h => by
    obtain ⟨hb, ht⟩ := List.forall_mem_cons.1 h
    have ih := blocksOfBits_flatten ht
    have hd : ∀ i, (b ++ blocks.flatten).drop (r * (i + 1)) = blocks.flatten.drop (r * i) := by
      intro i
      rw [Nat.mul_succ, Nat.add_comm, ← hb, List.drop_length_add_append]
    rw [blocksOfBits] at ih
    rw [blocksOfBits, List.length_cons, List.range_succ_eq_map, List.map_cons, List.map_map,
      List.flatten_cons, Nat.mul_zero, List.drop_zero, List.take_left' hb]
    simp only [Function.comp_def, Nat.succ_eq_add_one, hd, ih]

theorem bytesOfBits_bitsOfBytes (m : Bytes) : bytesOfBits (bitsOfBytes m) = m := by
  have h : ∀ bits ∈ m.map bitsOfByte, bits.length = 8 := by
    rintro bits hb
    obtain ⟨b, -, rfl⟩ := List.mem_map.1 hb
    exact length_bitsOfByte b
  have hl : (bitsOfBytes m).length / 8 = (m.map bitsOfByte).length := by
    rw [length_bitsOfBytes, List.length_map]
    omega
  have hf : bitsOfBytes m = (m.map bitsOfByte).flatten := List.flatMap_def ..
  rw [bytesOfBits, hl, hf, blocksOfBits_flatten h, List.map_map]
  simp only [Function.comp_def, byteOfBits_bitsOfByte, List.map_id']

/-! ### States -/

/-- The bits of a byte state. -/
def bitsOfState (s : Keccak.StateBytes) : BitState :=
  .ofFn fun j => s[j.val / 8].toBitVec.getLsbD (j.val % 8)

theorem toList_bitsOfState (s : Keccak.StateBytes) :
    (bitsOfState s).toList = bitsOfBytes s.toList := by
  refine List.ext_getElem? ?_
  intro i
  rw [getElem?_bitsOfBytes, bitsOfState, Vector.toList_ofFn, List.getElem?_ofFn]
  rcases Nat.lt_or_ge i 1600 with h | h
  · have h8 : i / 8 < s.toList.length := by
      rw [Vector.length_toList]
      omega
    rw [dif_pos h, List.getElem?_eq_getElem h8, Option.map_some, Vector.getElem_toList]
  · have h8 : s.toList.length ≤ i / 8 := by
      rw [Vector.length_toList]
      omega
    rw [dif_neg (Nat.not_lt.2 h), List.getElem?_eq_none h8, Option.map_none]

theorem bitsOfState_zeroState : bitsOfState zeroState = .replicate 1600 false := by
  refine Vector.ext ?_
  intro j hj
  rw [bitsOfState, Vector.getElem_ofFn, Vector.getElem_replicate]
  simp [zeroState]

theorem addBlock_bitsOfState (s : Keccak.StateBytes) (block : Bytes) :
    addBlock (bitsOfState s) (bitsOfBytes block) = bitsOfState (mixed s block) := by
  refine Keccak.ext_get ?_
  intro j
  rw [addBlock, bitsOfState, bitsOfState, Keccak.get_ofFn, Keccak.get_ofFn, Keccak.get_ofFn,
    getD_bitsOfBytes, mixed, Vector.getElem_ofFn, UInt8.toBitVec_xor, BitVec.getLsbD_xor]
  rfl

theorem lanesOfBits_bitsOfState (s : Keccak.StateBytes) :
    lanesOfBits (bitsOfState s) = .ofFn (Keccak.laneOf s) := by
  refine Keccak.ext_get ?_
  intro i
  rw [lanesOfBits, Keccak.get_ofFn, Keccak.get_ofFn]
  refine UInt64.toBitVec_inj.1 (BitVec.eq_of_getLsbD_eq ?_)
  intro z hz
  have hd : (64 * i.val + z) / 8 = 8 * i.val + z / 8 := by omega
  have hm : (64 * i.val + z) % 8 = z % 8 := by omega
  rw [UInt64.toBitVec_ofBitVec, BitVec.getLsbD_setWidth, decide_eq_true hz, Bool.true_and,
    BitVec.getLsbD_ofBoolListLE, List.getD_eq_getElem?_getD, List.getElem?_ofFn, dif_pos hz,
    Option.getD_some, bitsOfState, Vector.getElem_ofFn, Keccak.getLsbD_laneOf s i hz]
  simp only [hd, hm]

theorem bitsOfLanes_eq (a : Keccak.Lanes) :
    bitsOfLanes a = bitsOfState (.ofFn (Keccak.byteOf a)) := by
  refine Keccak.ext_get ?_
  intro j
  have hd : j.val / 8 / 8 = j.val / 64 := by omega
  have hm : 8 * (j.val / 8 % 8) + j.val % 8 = j.val % 64 := by omega
  rw [bitsOfLanes, bitsOfState, Keccak.get_ofFn, Keccak.get_ofFn, Vector.getElem_ofFn,
    Keccak.getLsbD_byteOf a _ (Nat.mod_lt _ (Nat.succ_pos 7))]
  simp only [hd, hm]

/-- A block is absorbed into the bits of a state as it is into its bytes. -/
theorem permuteBits_addBlock (s : Keccak.StateBytes) (block : Bytes) :
    permuteBits (addBlock (bitsOfState s) (bitsOfBytes block)) =
      bitsOfState (absorbed s block) := by
  rw [addBlock_bitsOfState, permuteBits, lanesOfBits_bitsOfState, bitsOfLanes_eq, absorbed,
    Keccak.store_eq, Keccak.load_eq]

end Sha3.Standard
