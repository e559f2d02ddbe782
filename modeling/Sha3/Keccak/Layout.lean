import Sha3.Keccak.State

/-! The byte layout of the sheet. Lane `i` takes bytes `8 * i` to `8 * i + 7`, the lowest byte
    first:

        byte    8 * i   8 * i + 1   …   8 * i + 7
        bits    0 – 7     8 – 15    …    56 – 63    of lane `i`

    `load` and `store` fill a destination that is already there, element by element. What was in it
    does not matter (`load_eq`, `store_eq`), and `getLsbD_laneOf` and `getLsbD_byteOf` say where
    each bit comes from. -/

namespace Sha3.Keccak

/-- The word of up to eight bytes, the lowest first. -/
def ofBytes : List UInt8 → UInt64
  | [] => 0
  | b :: rest => ofBytes rest <<< 8 ||| b.toUInt64

/-- Lane `i` of a byte state. -/
def laneOf (s : StateBytes) (i : Fin 25) : UInt64 :=
  ofBytes (List.ofFn fun k : Fin 8 => s[8 * i.val + k.val])

/-- Byte `j` of the sheet. -/
def byteOf (a : Lanes) (j : Fin 200) : UInt8 :=
  (a[j.val / 8] >>> UInt64.ofNat (8 * (j.val % 8))).toUInt8

/-- Reads a byte state into lanes. -/
def load (s : StateBytes) (old : Lanes) : Lanes :=
  overwrite (laneOf s) old

/-- Writes lanes back as bytes. -/
def store (a : Lanes) (old : StateBytes) : StateBytes :=
  overwrite (byteOf a) old

theorem load_eq (s : StateBytes) (old : Lanes) : load s old = Vector.ofFn (laneOf s) :=
  overwrite_eq_ofFn _ _

theorem store_eq (a : Lanes) (old : StateBytes) : store a old = Vector.ofFn (byteOf a) :=
  overwrite_eq_ofFn _ _

/-! ### Where each bit comes from -/

/-- A byte put below a word moves the bits of the word up by eight. -/
theorem getLsbD_shiftLeft_or (w : UInt64) (b : UInt8) {z : Nat} (hz : z < 64) :
    (w <<< 8 ||| b.toUInt64).toBitVec.getLsbD z =
      if z < 8 then b.toBitVec.getLsbD z else w.toBitVec.getLsbD (z - 8) := by
  have h8 : ((8 : UInt64).toBitVec % 64).toNat = 8 := by decide
  simp only [UInt64.toBitVec_or, UInt64.toBitVec_shiftLeft, UInt8.toBitVec_toUInt64,
    BitVec.getLsbD_or, BitVec.shiftLeft_eq', BitVec.getLsbD_shiftLeft, BitVec.getLsbD_setWidth, h8]
  by_cases h : z < 8
  · simp [h, hz]
  · simp [h, hz, BitVec.getLsbD_of_ge b.toBitVec z (by omega)]

theorem getLsbD_ofBytes : ∀ (l : List UInt8) {z : Nat}, z < 64 →
    (ofBytes l).toBitVec.getLsbD z = (l.getD (z / 8) 0).toBitVec.getLsbD (z % 8)
  | [], z, _ => by simp [ofBytes]
  | b :: rest, z, hz => by
    rw [ofBytes, getLsbD_shiftLeft_or _ _ hz]
    by_cases h : z < 8
    · rw [if_pos h, Nat.div_eq_of_lt h, Nat.mod_eq_of_lt h, List.getD_cons_zero]
    · have hd : z / 8 = (z - 8) / 8 + 1 := by omega
      have hm : z % 8 = (z - 8) % 8 := by omega
      rw [if_neg h, getLsbD_ofBytes rest (by omega), hd, hm, List.getD_cons_succ]

theorem getLsbD_laneOf (s : StateBytes) (i : Fin 25) {z : Nat} (hz : z < 64) :
    (laneOf s i).toBitVec.getLsbD z = s[8 * i.val + z / 8].toBitVec.getLsbD (z % 8) := by
  have h8 : z / 8 < 8 := by omega
  rw [laneOf, getLsbD_ofBytes _ hz, List.getD_eq_getElem?_getD, List.getElem?_ofFn, dif_pos h8,
    Option.getD_some]

theorem getLsbD_byteOf (a : Lanes) (j : Fin 200) {k : Nat} (hk : k < 8) :
    (byteOf a j).toBitVec.getLsbD k = a[j.val / 8].toBitVec.getLsbD (8 * (j.val % 8) + k) := by
  have h : ((UInt64.ofNat (8 * (j.val % 8))).toBitVec % 64).toNat = 8 * (j.val % 8) := by
    simp [BitVec.toNat_umod, UInt64.ofNat]
    omega
  simp only [byteOf, UInt64.toBitVec_toUInt8, UInt64.toBitVec_shiftRight, BitVec.getLsbD_setWidth,
    BitVec.ushiftRight_eq', BitVec.getLsbD_ushiftRight, h, hk, decide_true, Bool.true_and]

end Sha3.Keccak
