import Sha3.Keccak.Sheet
import Sha3.Proofs.Keccak.Layout

/-! Bytes and lanes, told in full. The way through the sheet comes by every lane and every byte, so
    nothing of the destination is left (`loadRows_eq`, `storeRows_eq`), and each bit goes to the
    place that the layout says. As bits keep apart from each other, sums of states go over into sums
    of states. -/

namespace Sha3.Keccak

/-! ### Every place is passed -/

/-- The lanes in the order of the rows. -/
def rows : List (Fin 5 × Fin 5) :=
  (List.finRange 5).flatMap fun y => (List.finRange 5).map fun x => (x, y)

theorem mem_rows (x y : Fin 5) : (x, y) ∈ rows :=
  List.mem_flatMap.2 ⟨y, List.mem_finRange y, List.mem_map.2 ⟨x, List.mem_finRange x, rfl⟩⟩

theorem throughSheet_eq {σ : Type} (f : Fin 5 → Fin 5 → σ → σ) (s : σ) :
    throughSheet f s = rows.foldl (fun s p => f p.1 p.2 s) s := by
  rw [rows, List.foldl_flatMap]
  simp only [List.foldl_map]
  rfl

/-- The lanes of the sheet tile the lanes. -/
theorem exists_place (i : Fin 25) : ∃ x y, place x y = i := by
  refine ⟨⟨i.val % 5, by omega⟩, ⟨i.val / 5, by omega⟩, Fin.ext ?_⟩
  simp only [place]
  omega

/-- The bytes of the lanes of the sheet tile the bytes. -/
theorem exists_bytePlace (j : Fin 200) : ∃ x y k, bytePlace x y k = j := by
  refine ⟨⟨j.val / 8 % 5, by omega⟩, ⟨j.val / 40, by omega⟩, ⟨j.val % 8, by omega⟩, Fin.ext ?_⟩
  simp only [bytePlace, laneOffset]
  omega

theorem ofBytes_lane (s : StateBytes) (x y : Fin 5) :
    ofBytes (List.ofFn fun k => s.get (bytePlace x y k)) = laneOf s (place x y) := by
  have hk (k : Fin 8) : 8 * (5 * y.val + x.val) + k.val = 40 * y.val + 8 * x.val + k.val := by
    omega
  simp only [laneOf, place, hk]
  rfl

theorem byteOfWord_lane (a : Lanes) (x y : Fin 5) (k : Fin 8) :
    byteOfWord (a.get (place x y)) k = byteOf a (bytePlace x y k) := by
  have hd : (40 * y.val + 8 * x.val + k.val) / 8 = 5 * y.val + x.val := by omega
  have hm : (40 * y.val + 8 * x.val + k.val) % 8 = k.val := by omega
  simp only [byteOf, bytePlace, laneOffset, hd, hm]
  rfl

theorem loadRows_eq (s : StateBytes) (old : Lanes) : loadRows s old = load s old := by
  have hmem : ∀ i, i ∈ rows.map fun p => place p.1 p.2 := by
    intro i
    obtain ⟨x, y, rfl⟩ := exists_place i
    exact List.mem_map.2 ⟨(x, y), mem_rows x y, rfl⟩
  rw [loadRows, throughSheet_eq, load, ← foldl_set_eq_overwrite (laneOf s) hmem, List.foldl_map]
  simp only [ofBytes_lane]

theorem storeRows_eq (a : Lanes) (old : StateBytes) : storeRows a old = store a old := by
  have hmem : ∀ j, j ∈ rows.flatMap fun p => (List.finRange 8).map (bytePlace p.1 p.2) := by
    intro j
    obtain ⟨x, y, k, rfl⟩ := exists_bytePlace j
    have hk := List.mem_map_of_mem (f := bytePlace x y) (List.mem_finRange k)
    exact List.mem_flatMap.2 ⟨(x, y), mem_rows x y, hk⟩
  rw [storeRows, throughSheet_eq, store, ← foldl_set_eq_overwrite (byteOf a) hmem,
    List.foldl_flatMap]
  simp only [storeLane, byteOfWord_lane, List.foldl_map]

/-! ### Bits -/

theorem getLsbD_load (s : StateBytes) (old : Lanes) (i : Fin 200) (k : Fin 8) :
    (s.get i).toBitVec.getLsbD k.val =
      ((load s old).get ⟨i.val / 8, Nat.div_lt_of_lt_mul i.isLt⟩).toBitVec.getLsbD
        (8 * (i.val % 8) + k.val) := by
  have hz : 8 * (i.val % 8) + k.val < 64 := by omega
  have hd : 8 * (i.val / 8) + (8 * (i.val % 8) + k.val) / 8 = i.val := by omega
  have hm : (8 * (i.val % 8) + k.val) % 8 = k.val := by omega
  rw [load_eq, get_ofFn, getLsbD_laneOf _ _ hz]
  simp only [hd, hm]
  rfl

/-! ### Sums -/

theorem get_zipWith {n : Nat} {α : Type} (f : α → α → α) (a b : Vector α n) (i : Fin n) :
    (Vector.zipWith f a b).get i = f (a.get i) (b.get i) :=
  Vector.getElem_zipWith i.isLt

theorem load_xor (s t : StateBytes) (old : Lanes) :
    load (Vector.zipWith (· ^^^ ·) s t) old =
      Vector.zipWith (· ^^^ ·) (load s old) (load t old) := by
  refine ext_get fun i => ?_
  rw [get_zipWith]
  simp only [load_eq, get_ofFn]
  refine ext_bit fun z => ?_
  rw [bit_xor]
  simp only [bit, getLsbD_laneOf _ _ z.isLt, Vector.getElem_zipWith, UInt8.toBitVec_xor,
    BitVec.getLsbD_xor]

theorem store_xor (a b : Lanes) (old : StateBytes) :
    store (Vector.zipWith (· ^^^ ·) a b) old =
      Vector.zipWith (· ^^^ ·) (store a old) (store b old) := by
  -- loading is injective and keeps sums, so the equation is one of lanes
  have h : load (store (Vector.zipWith (· ^^^ ·) a b) old) a =
      load (Vector.zipWith (· ^^^ ·) (store a old) (store b old)) a := by
    rw [load_xor, load_store, load_store, load_store]
  exact load_inj.1 h

/-- Loading and storing undo each other, leave nothing of their destinations and go through the
    sheet row by row. Bit `k` of byte `i` is bit `8 * (i % 8) + k` of lane `i / 8`, and sums go over
    into sums. -/
theorem load_store_mutually_inverse (s t : StateBytes) (a b : Lanes) (bytes bytes' : StateBytes)
    (lanes lanes' : Lanes) :
    (store (load s lanes) bytes = s ∧ load (store a bytes) lanes = a) ∧
    (load s lanes = load s lanes' ∧ store a bytes = store a bytes') ∧
    (load s lanes = loadRows s lanes ∧ store a bytes = storeRows a bytes) ∧
    (∀ (i : Fin 200) (k : Fin 8), (s.get i).toBitVec.getLsbD k.val =
      ((load s lanes).get ⟨i.val / 8, Nat.div_lt_of_lt_mul i.isLt⟩).toBitVec.getLsbD
        (8 * (i.val % 8) + k.val)) ∧
    load (Vector.zipWith (· ^^^ ·) s t) lanes =
      Vector.zipWith (· ^^^ ·) (load s lanes) (load t lanes) ∧
    store (Vector.zipWith (· ^^^ ·) a b) bytes =
      Vector.zipWith (· ^^^ ·) (store a bytes) (store b bytes) := by
  refine ⟨⟨store_load s bytes lanes, load_store a lanes bytes⟩, ⟨?_, ?_⟩,
    ⟨(loadRows_eq s lanes).symm, (storeRows_eq a bytes).symm⟩, getLsbD_load s lanes,
    load_xor s t lanes, store_xor a b bytes⟩
  · rw [load_eq, load_eq]
  · rw [store_eq, store_eq]

end Sha3.Keccak
