import Sha3.Sponge

/-! The blocks of a message, and its digest. A message of any length becomes its full blocks and one
    more, which holds the rest and the padding:

        message   =  block block … block rest
        blocksOf  =  block block … block (rest padded)

    A whole block of padding follows a message that fills its last block. `messageOf` reads the
    message back, and `hash_apply` says that hashing absorbs just these blocks. -/

namespace Sha3

/-- The blocks of a message. -/
def blocksOf (v : Variant) (message : Bytes) : List Bytes :=
  let (blocks, rest) := split v.rate message
  blocks ++ [paddedBytes rest.length v.suffix (zeroFill v.rate rest)]

/-- The digest of a message. -/
def digestOf (v : Variant) (message : Bytes) : Bytes :=
  (stateAfter (blocksOf v message)).toList.take v.digestLength

/-- The message of a list of blocks: all but the last, and the last without its padding. -/
def messageOf (blocks : List Bytes) : Option Bytes := do
  let (rest, _) ← unpad (← blocks.getLast?)
  return blocks.dropLast.flatten ++ rest

theorem length_zeroFill {n : Nat} {m : Bytes} (h : m.length ≤ n) : (zeroFill n m).length = n := by
  rw [zeroFill, List.length_append, List.length_replicate]
  omega

theorem length_rest_lt (v : Variant) (message : Bytes) :
    (split v.rate message).2.length < v.rate := by
  rw [length_snd_split]
  exact Nat.mod_lt _ v.rate_pos

/-- Hashing absorbs the blocks of the message and answers the digest; it never fails. -/
theorem hash_apply {τ : Type} (v : Variant) (message : Bytes) (o : Observed τ) :
    hash v message o = .ok (digestOf v message)
      ⟨o.object, o.log ++ [.initialised v] ++ [.finalizing v (message.length % v.rate)]⟩ := by
  have hr := length_rest_lt v message
  have ht := Sponge.each_absorb (split v.rate message).1 (Sponge.fresh v)
    (o.log ++ [.initialised v]) fun b hb => length_of_mem_split hb
  let f : Sponge.Frame :=
    ⟨(Sponge.fresh v).absorbAll (split v.rate message).1,
      zeroFill v.rate (split v.rate message).2, []⟩
  have hv : f.sponge.variant = v := Sponge.variant_absorbAll _ _
  have hx : Sponge.Frame.extract _ ⟨f, _⟩ = _ :=
    Sponge.Frame.extract_apply (f := f) (by rw [hv]; exact length_zeroFill (Nat.le_of_lt hr))
      (by rw [hv]; exact hr) (o.log ++ [.initialised v])
  have hd : (f.after (split v.rate message).2.length).output = digestOf v message := by
    simp only [Sponge.Frame.after, Sponge.digest, Sponge.bytes_permute_mix,
      Sponge.variant_permute, Sponge.variant_mix, f, Sponge.variant_absorbAll,
      Sponge.bytes_absorbAll, Sponge.fresh, digestOf, blocksOf, stateAfter_append,
      List.foldl_cons, List.foldl_nil]
    rfl
  rw [hd, hv] at hx
  rw [← length_snd_split]
  refine (Call.bind_ok (Sponge.create_apply v o)).trans ?_
  exact (Call.inside_ok ((Call.bind_ok ht).trans (Call.inside_ok hx))).trans rfl

end Sha3
