import Sha3.Proofs.Blocks

/-! Reading a message back from its blocks. Without the closing bit a padded block ends in the
    suffix and zeros, so its last byte that is not zero is the suffix, whatever the message holds:

        message | suffix | 0 … 0 | 0x80  ──clear the last bit──▶  message | suffix | 0 … 0

    This holds of every suffix that is not zero and leaves the closing bit free. So the blocks tell
    the message, and different messages have different blocks. -/

namespace Sha3

/-- A suffix that `unpad` can tell from the zeros and from the closing bit behind it. -/
def Readable (suffix : UInt8) : Prop :=
  suffix ≠ 0 ∧ suffix < terminator

theorem readable_suffix (v : Variant) : Readable v.suffix := by
  cases v <;> exact ⟨by decide, by decide⟩

/-- The closing bit is taken out again. -/
theorem or_terminator_and_not {x : UInt8} (h : x < terminator) :
    (x ||| terminator) &&& ~~~terminator = x := by
  have hx : x.toNat < 2 ^ 7 := h
  apply UInt8.toNat_inj.1
  have hand : ((x ||| terminator) &&& ~~~terminator).toNat = (x.toNat ||| 2 ^ 7) &&& (2 ^ 7 - 1) :=
    rfl
  rw [hand, Nat.and_two_pow_sub_one_eq_mod, Nat.or_mod_two_pow, Nat.mod_eq_of_lt hx, Nat.mod_self,
    Nat.or_zero]

theorem unpad_append_closing {suffix : UInt8} (hs : Readable suffix) (m : Bytes) : ∀ {n : Nat},
    0 < n → unpad (m ++ closing suffix n) = some (m, suffix)
  | 1, _ => by
    have hr : (m ++ closing suffix 1).reverse = (suffix ||| terminator) :: m.reverse := by
      simp [closing]
    have hd : ((suffix ||| terminator) &&& ~~~terminator) = suffix := or_terminator_and_not hs.2
    rw [unpad, hr]
    simp [hd, hs.1]
  | n + 2, _ => by
    have hr : (m ++ closing suffix (n + 2)).reverse =
        terminator :: (List.replicate n 0 ++ suffix :: m.reverse) := by
      simp [closing]
    have h0 : terminator &&& ~~~terminator = 0 := by decide
    have hz : ∀ b ∈ List.replicate n (0 : UInt8), (b == 0) = true := by
      intro b hb
      simp [List.eq_of_mem_replicate hb]
    rw [unpad, hr]
    simp [h0, List.dropWhile_append_of_pos hz, hs.1]

/-- The blocks of a message hold the message. -/
theorem messageOf_blocksOf (v : Variant) (m : Bytes) : messageOf (blocksOf v m) = some m := by
  have hr : 0 < v.rate - (split v.rate m).2.length := Nat.sub_pos_of_lt (length_rest_lt v m)
  have hu := unpad_append_closing (readable_suffix v) (split v.rate m).2 hr
  rw [messageOf, blocksOf_eq, List.getLast?_concat, List.dropLast_concat]
  simp only [Option.bind_eq_bind, Option.bind_some, hu]
  rw [flatten_split]
  rfl

theorem blocksOf_inj {v : Variant} {m m' : Bytes} : blocksOf v m = blocksOf v m' ↔ m = m' := by
  constructor
  · intro h
    have hm := congrArg messageOf h
    rw [messageOf_blocksOf, messageOf_blocksOf] at hm
    exact Option.some.inj hm
  · intro h
    rw [h]

end Sha3
