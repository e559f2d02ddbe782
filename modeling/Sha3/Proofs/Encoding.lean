import Sha3.Proofs.Decoding
import Sha3.Proofs.Finalization

/-! The padding and the blocks of a message as encodings that lose nothing. A padded block tells
    what was padded, for every suffix that is not zero and leaves the closing bit free:

        message, suffix  ──pad──▶  block  ──unpad──▶  message, suffix

    The blocks that hashing absorbs tell the message, however long it is and whatever it holds:

        message  ──hash──▶  block, block, …, padded block  ──messageOf──▶  message -/

namespace Sha3

/-! ### One block -/

theorem readable_iff {suffix : UInt8} : Readable suffix ↔ 0x01 ≤ suffix ∧ suffix ≤ 0x7F := by
  have h0 : suffix ≠ 0 ↔ suffix.toNat ≠ 0 := not_congr UInt8.toNat_inj.symm
  have h1 : suffix < terminator ↔ suffix.toNat < 0x80 := UInt8.lt_iff_toNat_lt
  have h2 : 0x01 ≤ suffix ↔ 1 ≤ suffix.toNat := UInt8.le_iff_toNat_le
  have h3 : suffix ≤ 0x7F ↔ suffix.toNat ≤ 0x7F := UInt8.le_iff_toNat_le
  rw [Readable, h0, h1, h2, h3]
  omega

variable {rate len len' : Nat} {suffix suffix' : UInt8}

theorem toList_padded (h : len < rate) (suffix : UInt8) (b : Vector UInt8 rate) :
    (padded len suffix b).toList = b.toList.take len ++ closing suffix (rate - len) := by
  obtain ⟨⟨m⟩, rfl⟩ := b
  exact paddedBytes_eq h suffix

theorem length_take_toList (h : len < rate) (b : Vector UInt8 rate) :
    (b.toList.take len).length = len := by
  rw [List.length_take, Vector.length_toList, Nat.min_eq_left (Nat.le_of_lt h)]

theorem unpad_padded (h : len < rate) (hs : Readable suffix) (b : Vector UInt8 rate) :
    unpad (padded len suffix b).toList = some (b.toList.take len, suffix) := by
  rw [toList_padded h, unpad_append_closing hs _ (Nat.sub_pos_of_lt h)]

/-- Nothing but the message and the suffix goes into a padded block, and both can be told from it.
    -/
theorem padded_eq_padded_iff (h : len < rate) (h' : len' < rate) (hs : Readable suffix)
    (hs' : Readable suffix') {b b' : Vector UInt8 rate} :
    padded len suffix b = padded len' suffix' b' ↔
      len = len' ∧ suffix = suffix' ∧ b.toList.take len = b'.toList.take len' := by
  constructor
  · intro hp
    have hu := congrArg (fun p => unpad p.toList) hp
    simp only [unpad_padded h hs, unpad_padded h' hs', Option.some.injEq, Prod.mk.injEq] at hu
    obtain ⟨hm, rfl⟩ := hu
    -- the lengths are those of the two messages, which are one by now
    have hl := congrArg List.length hm
    rw [length_take_toList h, length_take_toList h'] at hl
    exact ⟨hl, rfl, hm⟩
  · rintro ⟨rfl, rfl, hm⟩
    refine Vector.toList_inj.1 ?_
    rw [toList_padded h, toList_padded h, hm]

/-- Padding succeeds, and its block is read back to the length, the message and the suffix. Two
    blocks come out the same just when these are the same. -/
theorem pad_uniquely_decodable (h : len < rate) (h' : len' < rate)
    (hs : 0x01 ≤ suffix ∧ suffix ≤ 0x7F) (hs' : 0x01 ≤ suffix' ∧ suffix' ≤ 0x7F)
    (b b' : Vector UInt8 rate) :
    ∃ p p' : Vector UInt8 rate, pad len suffix b = .ok (rate - len) p ∧
      pad len' suffix' b' = .ok (rate - len') p' ∧
      unpad p.toList = some (b.toList.take len, suffix) ∧ (b.toList.take len).length = len ∧
      (p = p' ↔ len = len' ∧ suffix = suffix' ∧ b.toList.take len = b'.toList.take len') := by
  have hr := readable_iff.2 hs
  exact ⟨_, _, pad_of_lt h suffix b, pad_of_lt h' suffix' b', unpad_padded h hr b,
    length_take_toList h b, padded_eq_padded_iff h h' hr (readable_iff.2 hs')⟩

/-- A message that looks like padding and leaves one byte, and no message at all. -/
theorem pad_tells_imitation :
    let b : Vector UInt8 8 := #v[0x06, 0, 0, 0, 0, 0, 0, 0x80]
    ∃ p p' : Vector UInt8 8, pad 7 0x06 b = .ok 1 p ∧ pad 0 0x06 b = .ok 8 p' ∧
      unpad p.toList = some ([0x06, 0, 0, 0, 0, 0, 0], 0x06) ∧ p ≠ p' := by
  intro b
  have hs : (0x01 : UInt8) ≤ 0x06 ∧ (0x06 : UInt8) ≤ 0x7F := by decide
  obtain ⟨p, p', hp, hp', hu, -, hiff⟩ :=
    pad_uniquely_decodable (show 7 < 8 by decide) (show 0 < 8 by decide) hs hs b b
  refine ⟨p, p', hp, hp', hu, ?_⟩
  rw [Ne, hiff]
  rintro ⟨hlen, -⟩
  exact absurd hlen (by decide)

/-! ### All blocks -/

/-- Absorbs the blocks into a sponge of its own, from the first, and answers the digest. The
    observer is told of a last block with `validLength` bytes of message. -/
def hashBlocks {τ : Type} (v : Variant) (blocks : List Bytes) (validLength : Nat) :
    Call τ Bytes := do
  let s ← Sponge.create v
  Call.aside s do
    Call.each Sponge.absorb blocks
    Call.tell (.finalizing v validLength)
    return (← Call.current).digest

/-- A message has its full blocks and one more, each as long as the rate. -/
theorem map_length_blocksOf (v : Variant) (m : Bytes) :
    (blocksOf v m).map List.length = List.replicate (m.length / v.rate + 1) v.rate := by
  rw [List.eq_replicate_iff]
  constructor
  · rw [List.length_map, blocksOf_eq, List.length_append, length_fst_split, List.length_singleton]
  · intro n hn
    obtain ⟨b, hb, rfl⟩ := List.mem_map.1 hn
    exact length_of_mem_blocksOf hb

/-- Hashing absorbs the blocks of the message. -/
theorem hash_eq_hashBlocks {τ : Type} (v : Variant) (m : Bytes) :
    hash v m = (hashBlocks v (blocksOf v m) (m.length % v.rate) : Call τ Bytes) := by
  funext o
  have hfit : ∀ b ∈ blocksOf v m, b.length = (Sponge.fresh v).variant.rate := by
    intro b hb
    exact length_of_mem_blocksOf hb
  have ha := Sponge.each_absorb _ (Sponge.fresh v) (o.log ++ [.initialised v]) hfit
  rw [hash_apply, ← Sponge.digest_absorbAll_fresh, hashBlocks]
  symm
  refine (Call.bind_ok (Sponge.create_apply v o)).trans ?_
  exact (Call.inside_ok
    ((Call.bind_ok ha).trans (Call.bind_ok (Call.tell_apply _ _)))).trans rfl

/-- Hashing absorbs just the blocks of the message, each as long as the rate and one more than the
    message fills. Read back they are the message, so no other message has the same blocks. -/
theorem hash_absorbs_message (v : Variant) (m : Bytes) :
    (∀ τ : Type, hash v m = (hashBlocks v (blocksOf v m) (m.length % v.rate) : Call τ Bytes)) ∧
    (blocksOf v m).map List.length = List.replicate (m.length / v.rate + 1) v.rate ∧
    messageOf (blocksOf v m) = some m ∧
    ∀ m', blocksOf v m = blocksOf v m' ↔ m = m' :=
  ⟨fun _ => hash_eq_hashBlocks v m, map_length_blocksOf v m, messageOf_blocksOf v m,
    fun _ => blocksOf_inj⟩

end Sha3
