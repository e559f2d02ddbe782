import Sha3.Keccak.Layout

/-! Loading and storing along the sheet, row by row. Lane `(x, y)` stands at `5 * y + x`, and its
    bytes from `40 * y + 8 * x` on:

        for y   for x      lane 5 * y + x   ⟷   bytes 40 * y + 8 * x … 40 * y + 8 * x + 7

    The destination is written lane by lane, and what no lane comes by stays in it. -/

namespace Sha3.Keccak

/-- Works on `s` at every lane of the sheet, along x before y. -/
def throughSheet {σ : Type} (f : Fin 5 → Fin 5 → σ → σ) (s : σ) : σ :=
  (List.finRange 5).foldl (fun s y => (List.finRange 5).foldl (fun s x => f x y s) s) s

theorem place_lt (x y : Fin 5) : 5 * y.val + x.val < 25 := by omega

/-- Where lane `(x, y)` stands. -/
def place (x y : Fin 5) : Fin 25 :=
  ⟨5 * y.val + x.val, place_lt x y⟩

/-- Where the bytes of lane `(x, y)` start. -/
def laneOffset (x y : Fin 5) : Nat :=
  40 * y.val + 8 * x.val

/-- Where byte `k` of lane `(x, y)` stands. -/
def bytePlace (x y : Fin 5) (k : Fin 8) : Fin 200 :=
  ⟨laneOffset x y + k.val, by unfold laneOffset; omega⟩

/-- Byte `k` of a word, from its low end. -/
def byteOfWord (w : UInt64) (k : Fin 8) : UInt8 :=
  (w >>> UInt64.ofNat (8 * k.val)).toUInt8

/-- Reads a byte state into lanes, row by row. -/
def loadRows (s : StateBytes) (old : Lanes) : Lanes :=
  throughSheet (fun x y a =>
    a.set (place x y) (ofBytes (List.ofFn fun k => s.get (bytePlace x y k)))) old

/-- Writes eight bytes of the lane `w` from the place of lane `(x, y)` on. -/
def storeLane (x y : Fin 5) (w : UInt64) (s : StateBytes) : StateBytes :=
  (List.finRange 8).foldl (fun s k => s.set (bytePlace x y k) (byteOfWord w k)) s

/-- Writes lanes back as bytes, row by row. -/
def storeRows (a : Lanes) (old : StateBytes) : StateBytes :=
  throughSheet (fun x y => storeLane x y (a.get (place x y))) old

end Sha3.Keccak
