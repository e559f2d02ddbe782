/-! Byte strings, and how a long one is cut into blocks.

        split 4 [a b c d e f g h i j]  =  ([[a b c d], [e f g h]], [i j])

    The blocks are full and the rest is shorter than a block (`length_of_mem_split`,
    `length_snd_split`), and put together again they are the whole (`flatten_split`). -/

namespace Sha3

abbrev Bytes := List UInt8

/-- Takes `k` blocks of `n` bytes off the front. -/
def takeBlocks (n : Nat) : Nat → Bytes → List Bytes × Bytes
  | 0, m => ([], m)
  | k + 1, m =>
    let (blocks, rest) := takeBlocks n k (m.drop n)
    (m.take n :: blocks, rest)

/-- The full blocks of `n` bytes, and what is left after them. -/
def split (n : Nat) (m : Bytes) : List Bytes × Bytes :=
  takeBlocks n (m.length / n) m

/-- Takes pieces of the given sizes off the front, each as long as the bytes last. -/
def cutAt : List Nat → Bytes → List Bytes × Bytes
  | [], m => ([], m)
  | n :: sizes, m =>
    let (pieces, rest) := cutAt sizes (m.drop n)
    (m.take n :: pieces, rest)

/-- The bytes followed by zeros up to length `n`. -/
def zeroFill (n : Nat) (m : Bytes) : Bytes :=
  m ++ List.replicate (n - m.length) 0

/-! ### Nothing is lost -/

theorem flatten_takeBlocks (n : Nat) : ∀ (k : Nat) (m : Bytes),
    (takeBlocks n k m).1.flatten ++ (takeBlocks n k m).2 = m
  | 0, m => rfl
  | k + 1, m => by
    have ih := flatten_takeBlocks n k (m.drop n)
    simp only [takeBlocks, List.flatten_cons, List.append_assoc, ih, List.take_append_drop]

theorem flatten_split (n : Nat) (m : Bytes) : (split n m).1.flatten ++ (split n m).2 = m :=
  flatten_takeBlocks n _ m

theorem flatten_cutAt : ∀ (sizes : List Nat) (m : Bytes),
    (cutAt sizes m).1.flatten ++ (cutAt sizes m).2 = m
  | [], m => rfl
  | n :: sizes, m => by
    have ih := flatten_cutAt sizes (m.drop n)
    simp only [cutAt, List.flatten_cons, List.append_assoc, ih, List.take_append_drop]

/-! ### The blocks are full -/

theorem length_fst_takeBlocks (n : Nat) : ∀ (k : Nat) (m : Bytes),
    (takeBlocks n k m).1.length = k
  | 0, _ => rfl
  | k + 1, m => by simp only [takeBlocks, List.length_cons, length_fst_takeBlocks n k]

theorem snd_takeBlocks (n : Nat) : ∀ (k : Nat) (m : Bytes),
    (takeBlocks n k m).2 = m.drop (k * n)
  | 0, m => by simp [takeBlocks]
  | k + 1, m => by
    simp only [takeBlocks, snd_takeBlocks n k, List.drop_drop]
    congr 1
    rw [Nat.succ_mul, Nat.add_comm]

theorem length_of_mem_takeBlocks (n : Nat) : ∀ (k : Nat) (m : Bytes), k * n ≤ m.length →
    ∀ b ∈ (takeBlocks n k m).1, b.length = n
  | 0, _, _, b, hb => by simp [takeBlocks] at hb
  | k + 1, m, h, b, hb => by
    rw [Nat.succ_mul] at h
    simp only [takeBlocks, List.mem_cons] at hb
    rcases hb with rfl | hb
    · rw [List.length_take]; omega
    · exact length_of_mem_takeBlocks n k (m.drop n) (by rw [List.length_drop]; omega) b hb

theorem length_of_mem_split {n : Nat} {m b : Bytes} (h : b ∈ (split n m).1) : b.length = n :=
  length_of_mem_takeBlocks n _ m (Nat.div_mul_le_self _ _) b h

theorem length_fst_split (n : Nat) (m : Bytes) : (split n m).1.length = m.length / n :=
  length_fst_takeBlocks n _ m

theorem snd_split (n : Nat) (m : Bytes) : (split n m).2 = m.drop (m.length / n * n) :=
  snd_takeBlocks n _ m

theorem length_snd_split (n : Nat) (m : Bytes) : (split n m).2.length = m.length % n := by
  rw [snd_split, List.length_drop]
  have := Nat.div_add_mod m.length n
  rw [Nat.mul_comm] at this
  omega

end Sha3
