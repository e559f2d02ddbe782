import Sha3.Proofs.Blocks
import Sha3.Proofs.Standard.Bits

/-! The digest of a message is what the sponge construction of the standard squeezes out of its
    bits.

        message                ──blocksOf──▶  blocks           ──stateAfter──▶  state ──▶ digest
          │ bitsOfBytes                         │ bitsOfBytes                     │         │
        bits ++ 01 ++ 10…01  ──blocksOfBits──▶  blocks of bits ────absorb────▶  bits  ──▶ bits

    The suffix byte carries the two bits that mark a hash and the first bit of the padding, and the
    closing bit is the highest of the last byte (`bitsOfBytes_closing`). A digest is shorter than
    the rate, so the squeezing ends with its first block (`squeeze_of_le`). -/

namespace Sha3.Standard

/-! ### Padding -/

/-- The closing bytes of a block are the bits `01`, a one, zeros, and a one. -/
theorem bitsOfBytes_closing (v : Variant) : ∀ {n : Nat}, 0 < n →
    bitsOfBytes (closing v.suffix n) =
      [false, true] ++ true :: List.replicate (8 * n - 4) false ++ [true]
  | 1, _ => by cases v <;> decide
  | n + 2, _ => by
    have hs : bitsOfByte v.suffix = [false, true, true] ++ List.replicate 5 false := by
      cases v <;> decide
    have ht : bitsOfByte terminator = List.replicate 7 false ++ [true] := by decide
    have hn : 8 * (n + 2) - 4 = 5 + (8 * n + 7) := by omega
    rw [closing, List.cons_append, bitsOfBytes_cons, bitsOfBytes_append, bitsOfBytes_cons,
      bitsOfBytes_replicate_zero, hs, ht, hn, ← List.replicate_append_replicate,
      ← List.replicate_append_replicate]
    simp [bitsOfBytes]

/-- The zeros that the standard counts backwards from the length, as those that are left of the
    block. -/
theorem zeros_emod {r : Nat} (hr : 0 < r) (n : Nat) :
    (-((8 * n + 2 : Nat) : Int) - 2) % ((8 * r : Nat) : Int) =
      ((8 * (r - n % r) - 4 : Nat) : Int) := by
  have hlt : n % r < r := Nat.mod_lt n hr
  have hn : (n : Int) = (r : Int) * ((n / r : Nat) : Int) + ((n % r : Nat) : Int) := by
    exact_mod_cast (Nat.div_add_mod n r).symm
  have hc : ((8 * (r - n % r) - 4 : Nat) : Int) =
      8 * (r : Int) - 8 * ((n % r : Nat) : Int) - 4 := by
    omega
  have hm : ((8 * r : Nat) : Int) * (-((n / r : Nat) : Int) - 1) =
      -(8 * ((r : Int) * ((n / r : Nat) : Int))) - 8 * (r : Int) := by
    push_cast
    rw [Int.mul_sub, Int.mul_neg, Int.mul_assoc, Int.mul_one]
  -- the length of the message is a whole number of blocks away from that of its rest
  have hj : (-((8 * n + 2 : Nat) : Int) - 2) = ((8 * (r - n % r) - 4 : Nat) : Int) +
      ((8 * r : Nat) : Int) * (-((n / r : Nat) : Int) - 1) := by
    rw [hc, hm]
    omega
  rw [hj, Int.add_mul_emod_self_left]
  exact Int.emod_eq_of_lt (by omega) (by omega)

/-- As few zeros as fill the block: all of what is left of it but the two ones and the two bits
    before them. -/
theorem pad10star1_eq {r : Nat} (hr : 0 < r) (n : Nat) :
    pad10star1 (8 * r) (8 * n + 2) =
      true :: List.replicate (8 * (r - n % r) - 4) false ++ [true] := by
  rw [pad10star1, zeros_emod hr, Int.toNat_natCast]

/-- The padded string of the standard is the bits of the blocks. -/
theorem padded_bitsOfBytes (v : Variant) (m : Bytes) :
    (bitsOfBytes m ++ [false, true]) ++
        pad10star1 (8 * v.rate) (bitsOfBytes m ++ [false, true]).length =
      ((blocksOf v m).map bitsOfBytes).flatten := by
  have hr : 0 < v.rate - m.length % v.rate := Nat.sub_pos_of_lt (Nat.mod_lt _ v.rate_pos)
  have hf : ((blocksOf v m).map bitsOfBytes).flatten = bitsOfBytes (blocksOf v m).flatten := by
    rw [bitsOfBytes, List.flatMap_def, List.map_flatten, List.flatten_flatten, List.map_map]
    rfl
  rw [hf, flatten_blocksOf, bitsOfBytes_append, bitsOfBytes_closing v hr, List.length_append,
    length_bitsOfBytes, List.length_cons, List.length_singleton, pad10star1_eq v.rate_pos]
  simp only [List.append_assoc]

/-! ### Absorbing -/

theorem foldl_permuteBits (blocks : List Bytes) (s : Keccak.StateBytes) :
    (blocks.map bitsOfBytes).foldl (fun S block => permuteBits (addBlock S block)) (bitsOfState s) =
      bitsOfState (blocks.foldl absorbed s) := by
  induction blocks generalizing s with
  | nil => rfl
  | cons b blocks ih =>
    rw [List.map_cons, List.foldl_cons, List.foldl_cons, permuteBits_addBlock]
    exact ih (absorbed s b)

/-! ### Squeezing -/

/-- Up to `r` bits are squeezed out at once. -/
theorem squeeze_of_le (f : BitState → BitState) {r d : Nat} (hr : 0 < r) (hd : d ≤ r)
    (hb : r ≤ 1600) (S : BitState) : squeeze f r hr d [] S = S.toList.take d := by
  have hl : (([] : Bits) ++ S.toList.take r).length = r := by
    rw [List.nil_append, List.length_take, Vector.length_toList]
    omega
  rw [squeeze, if_pos (by omega), List.nil_append, List.take_take, Nat.min_eq_left hd]

/-- The sponge of the standard answers the bits of the digest. -/
theorem hashBits_bitsOfBytes (v : Variant) (m : Bytes) :
    hashBits v (bitsOfBytes m) = bitsOfBytes (digestOf v m) := by
  have hfull : ∀ bits ∈ (blocksOf v m).map bitsOfBytes, bits.length = 8 * v.rate := by
    rintro bits hb
    obtain ⟨b, hm, rfl⟩ := List.mem_map.1 hb
    rw [length_bitsOfBytes, length_of_mem_blocksOf hm]
  have hcount : ((blocksOf v m).map bitsOfBytes).flatten.length / (8 * v.rate) =
      ((blocksOf v m).map bitsOfBytes).length := by
    rw [length_flatten hfull, Nat.mul_div_cancel _ (Nat.mul_pos (Nat.succ_pos 7) v.rate_pos)]
  have hd := v.digestLength_le_rate
  have hr := v.rate_le
  rw [hashBits, sponge, padded_bitsOfBytes, hcount, blocksOfBits_flatten hfull,
    squeeze_of_le _ _ (by omega) (by omega), ← bitsOfState_zeroState, foldl_permuteBits,
    toList_bitsOfState, ← bitsOfBytes_take]
  rfl

/-- Hashing answers the bytes of what the standard's sponge answers for the bits of the message. -/
theorem hash_eq_hashBits {τ : Type} (v : Variant) (m : Bytes) (o : Observed τ) :
    hash v m o = .ok (bytesOfBits (hashBits v (bitsOfBytes m)))
        ⟨o.object, o.log ++ [.initialised v] ++ [.finalizing v (m.length % v.rate)]⟩ ∧
      bitsOfBytes (bytesOfBits (hashBits v (bitsOfBytes m))) = hashBits v (bitsOfBytes m) := by
  rw [hashBits_bitsOfBytes, bytesOfBits_bitsOfBytes]
  exact ⟨hash_apply v m o, rfl⟩

end Sha3.Standard
