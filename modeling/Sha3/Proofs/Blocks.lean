import Sha3.Message

/-! Cutting a message whose first blocks are known, and the padding of its last block as one string
    of bytes.

        block block … block ++ rest  ──split──▶  block, block, …, blocks of rest

    So whole blocks pass through `split` and `blocksOf` as they are, and the message does not
    remember where it was cut before. Behind the message a padded block ends in `closing`, which
    depends on nothing but the space that is left. -/

namespace Sha3

/-! ### Whole blocks -/

theorem length_flatten {α : Type} {n : Nat} : ∀ {blocks : List (List α)},
    (∀ b ∈ blocks, b.length = n) → blocks.flatten.length = blocks.length * n
  | [], _ => by simp
  | b :: blocks, h => by
    obtain ⟨hb, ht⟩ := List.forall_mem_cons.1 h
    have ih := length_flatten ht
    rw [List.flatten_cons, List.length_append, hb, ih, List.length_cons, Nat.succ_mul, Nat.add_comm]

theorem takeBlocks_flatten_append {n : Nat} : ∀ {blocks : List Bytes},
    (∀ b ∈ blocks, b.length = n) → ∀ (k : Nat) (m : Bytes),
      takeBlocks n (blocks.length + k) (blocks.flatten ++ m) =
        (blocks ++ (takeBlocks n k m).1, (takeBlocks n k m).2)
  | [], _, k, m => by simp
  | b :: blocks, h, k, m => by
    obtain ⟨hb, ht⟩ := List.forall_mem_cons.1 h
    have ih := takeBlocks_flatten_append ht k m
    rw [List.flatten_cons, List.append_assoc, List.length_cons, Nat.add_right_comm, takeBlocks,
      List.drop_left' hb, List.take_left' hb, ih, List.cons_append]

/-- Whole blocks in front are cut off as they are. -/
theorem split_flatten_append {n : Nat} (hn : 0 < n) {blocks : List Bytes}
    (h : ∀ b ∈ blocks, b.length = n) (m : Bytes) :
    split n (blocks.flatten ++ m) = (blocks ++ (split n m).1, (split n m).2) := by
  have hlen : (blocks.flatten ++ m).length / n = blocks.length + m.length / n := by
    rw [List.length_append, length_flatten h, Nat.add_comm, Nat.add_mul_div_right _ _ hn,
      Nat.add_comm]
  rw [split, hlen, takeBlocks_flatten_append h]
  rfl

/-- A longer message is cut where the shorter one was, and its rest is cut again. -/
theorem split_append {n : Nat} (hn : 0 < n) (m more : Bytes) :
    split n (m ++ more) = ((split n m).1 ++ (split n ((split n m).2 ++ more)).1,
      (split n ((split n m).2 ++ more)).2) := by
  have hb : ∀ b ∈ (split n m).1, b.length = n := by
    intro b hm
    exact length_of_mem_split hm
  have h := split_flatten_append hn hb ((split n m).2 ++ more)
  rwa [← List.append_assoc, flatten_split] at h

/-- The full blocks of a message, each by its place. -/
def fullBlocks (n : Nat) (m : Bytes) : List Bytes :=
  (List.range (m.length / n)).map fun i => (m.drop (n * i)).take n

theorem fst_takeBlocks (n : Nat) : ∀ (k : Nat) (m : Bytes),
    (takeBlocks n k m).1 = (List.range k).map fun i => (m.drop (n * i)).take n
  | 0, _ => rfl
  | k + 1, m => by
    have hd : ∀ i, (m.drop n).drop (n * i) = m.drop (n * (i + 1)) := by
      intro i
      rw [List.drop_drop, Nat.mul_succ, Nat.add_comm]
    rw [List.range_succ_eq_map, List.map_cons, List.map_map]
    simp only [takeBlocks, fst_takeBlocks n k, Function.comp_def, hd, Nat.mul_zero, List.drop_zero]

theorem fst_split (n : Nat) (m : Bytes) : (split n m).1 = fullBlocks n m :=
  fst_takeBlocks n _ m

theorem split_of_lt {n : Nat} {m : Bytes} (h : m.length < n) : split n m = ([], m) := by
  rw [split, Nat.div_eq_of_lt h, takeBlocks]

/-! ### Bytes that divide into blocks -/

theorem split_of_mod_eq_zero {n : Nat} {m : Bytes} (h : m.length % n = 0) :
    split n m = (fullBlocks n m, []) := by
  have h0 : (split n m).2 = [] := by
    rw [← List.length_eq_zero_iff, length_snd_split, h]
  rw [← fst_split, ← h0]

theorem flatten_fullBlocks {n : Nat} {m : Bytes} (h : m.length % n = 0) :
    (fullBlocks n m).flatten = m := by
  have hf := flatten_split n m
  rwa [split_of_mod_eq_zero h, List.append_nil] at hf

theorem length_of_mem_fullBlocks {n : Nat} {m b : Bytes} (h : b ∈ fullBlocks n m) :
    b.length = n := by
  rw [← fst_split] at h
  exact length_of_mem_split h

theorem fullBlocks_flatten {n : Nat} (hn : 0 < n) {blocks : List Bytes}
    (h : ∀ b ∈ blocks, b.length = n) : fullBlocks n blocks.flatten = blocks := by
  have hs := split_flatten_append hn h []
  rw [List.append_nil, split_of_lt (m := []) hn, List.append_nil] at hs
  rw [← fst_split, hs]

/-! ### Padding -/

/-- The bytes that fill a block from its last message byte on, `n` of them. -/
def closing (suffix : UInt8) : Nat → Bytes
  | 0 => []
  | 1 => [suffix ||| terminator]
  | n + 2 => suffix :: List.replicate n 0 ++ [terminator]

theorem length_closing (suffix : UInt8) : ∀ n, (closing suffix n).length = n
  | 0 => rfl
  | 1 => rfl
  | n + 2 => by simp [closing]

theorem getElem?_closing (suffix : UInt8) : ∀ {n i : Nat}, i < n → (closing suffix n)[i]? =
    some ((if i = 0 then suffix else 0) ||| (if i + 1 = n then terminator else 0))
  | 1, 0, _ => rfl
  | n + 2, 0, _ => by simp [closing]
  | n + 2, i + 1, h => by
    rw [closing, List.cons_append, List.getElem?_cons_succ]
    rcases Nat.lt_or_ge i n with hi | hi
    · have hl : i < (List.replicate n (0 : UInt8)).length := by rwa [List.length_replicate]
      have hn : i ≠ n := by omega
      rw [List.getElem?_append_left hl]
      simp [hi, hn]
    · obtain rfl : i = n := by omega
      simp

theorem getElem?_paddedBytes (len : Nat) (suffix : UInt8) {block : Bytes} {i : Nat}
    (h : i < block.length) : (paddedBytes len suffix block)[i]? =
      some (if i < len then block[i] else
        (if i = len then suffix else 0) |||
          (if i = block.length - 1 then terminator else 0)) := by
  have hi : i < (paddedBytes len suffix block).length := by rwa [length_paddedBytes]
  rw [List.getElem?_eq_getElem hi]
  simp only [paddedBytes, padded, Vector.getElem_toList, Vector.getElem_mapFinIdx]
  rfl

/-- A padded block is its message and the closing bytes, whatever stood behind the message. -/
theorem paddedBytes_eq {len : Nat} {block : Bytes} (h : len < block.length) (suffix : UInt8) :
    paddedBytes len suffix block = block.take len ++ closing suffix (block.length - len) := by
  have hlen : (block.take len).length = len := List.length_take_of_le (Nat.le_of_lt h)
  refine List.ext_getElem? ?_
  intro i
  rcases Nat.lt_or_ge i block.length with hi | hi
  · rw [getElem?_paddedBytes len suffix hi]
    rcases Nat.lt_or_ge i len with hil | hil
    · rw [if_pos hil, List.getElem?_append_left (by omega), List.getElem?_take_of_lt hil,
        List.getElem?_eq_getElem hi]
    · have h0 : (i = len) = (i - len = 0) := propext (by omega)
      have h1 : (i = block.length - 1) = (i - len + 1 = block.length - len) := propext (by omega)
      rw [if_neg (Nat.not_lt.2 hil), List.getElem?_append_right (by omega), hlen,
        getElem?_closing suffix (by omega)]
      simp only [h0, h1]
  · have h0 : (paddedBytes len suffix block).length ≤ i := by rwa [length_paddedBytes]
    have h1 : (block.take len ++ closing suffix (block.length - len)).length ≤ i := by
      rw [List.length_append, hlen, length_closing]; omega
    rw [List.getElem?_eq_none h0, List.getElem?_eq_none h1]

/-! ### The blocks of a message -/

/-- The last block of a message. -/
theorem paddedBytes_zeroFill {n : Nat} {rest : Bytes} (h : rest.length < n) (suffix : UInt8) :
    paddedBytes rest.length suffix (zeroFill n rest) =
      rest ++ closing suffix (n - rest.length) := by
  have hz : (zeroFill n rest).length = n := length_zeroFill (Nat.le_of_lt h)
  rw [paddedBytes_eq (by omega), hz, zeroFill, List.take_left]

theorem blocksOf_eq (v : Variant) (m : Bytes) :
    blocksOf v m = (split v.rate m).1 ++
      [(split v.rate m).2 ++ closing v.suffix (v.rate - (split v.rate m).2.length)] := by
  rw [← paddedBytes_zeroFill (length_rest_lt v m)]
  rfl

/-- The blocks of a message are the message and the closing bytes. -/
theorem flatten_blocksOf (v : Variant) (m : Bytes) :
    (blocksOf v m).flatten = m ++ closing v.suffix (v.rate - m.length % v.rate) := by
  rw [blocksOf_eq, List.flatten_append, List.flatten_singleton, ← List.append_assoc, flatten_split,
    length_snd_split]

theorem length_of_mem_blocksOf {v : Variant} {m b : Bytes} (h : b ∈ blocksOf v m) :
    b.length = v.rate := by
  have hr := length_rest_lt v m
  rw [blocksOf_eq] at h
  rcases List.mem_append.1 h with h | h
  · exact length_of_mem_split h
  · obtain rfl := List.mem_singleton.1 h
    rw [List.length_append, length_closing]
    omega

/-- Whole blocks in front are among the blocks of the message as they are. -/
theorem blocksOf_flatten_append {v : Variant} {blocks : List Bytes}
    (h : ∀ b ∈ blocks, b.length = v.rate) (m : Bytes) :
    blocksOf v (blocks.flatten ++ m) = blocks ++ blocksOf v m := by
  simp only [blocksOf, split_flatten_append v.rate_pos h, List.append_assoc]

end Sha3
