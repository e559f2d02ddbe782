import Sha3.Proofs.Finalization

/-! A finalization is all or nothing. Its checks come before anything else, and the first that fails
    is the only thing to be seen of it:

        length of the block, valid length, length of the output
                │ one fails                       │ none fails
                ▼                                 ▼
          its text, all as it was     event, block padded and absorbed, digest

    What the caller left in the block behind the valid bytes, and in the output, plays no part
    (`closed_eq_of_take`). A block that is all message is absorbed as it is, and the finalization
    goes on as one without any message (`closed_rate`). -/

namespace Sha3.Sponge.Frame

/-- The finalization faults with a text, and the frame and the log are as they were. -/
def Refuses (n : Nat) (f : Frame) (l : List Event) (text : String) : Prop :=
  ∃ e : Fault, finalize n ⟨f, l⟩ = .error (.fault e) ⟨f, l⟩ ∧ e.message = text

/-- What a finalization with `n` valid bytes makes of the frame `f` when it is accepted. -/
structure Closes (n : Nat) (f f' : Frame) : Prop where
  variant : f'.sponge.variant = f.sponge.variant
  output : f'.output = f'.sponge.bytes.toList.take f.sponge.variant.digestLength
  -- with room for padding, the block is padded in place and absorbed
  short : n < f.sponge.variant.rate →
    padBytes n f.sponge.variant.suffix f.block = .ok (f.sponge.variant.rate - n) f'.block ∧
    f'.block = f.block.take n ++ closing f.sponge.variant.suffix (f.sponge.variant.rate - n) ∧
    ∀ l, absorb f'.block ⟨f.sponge, l⟩ = .ok () ⟨f'.sponge, l⟩
  -- without, it is absorbed, and the end of no message follows in any block
  full : n = f.sponge.variant.rate → ∃ s,
    (∀ l, absorb f.block ⟨f.sponge, l⟩ = .ok () ⟨s, l⟩) ∧
    ∀ block output l, block.length = f.sponge.variant.rate →
      output.length = f.sponge.variant.digestLength →
      finalize 0 ⟨⟨s, block, output⟩, l⟩ = .ok () ⟨f', l ++ [.finalizing f.sponge.variant 0]⟩
  -- other bytes behind the valid ones, or another output, make no difference
  stale : ∀ block output l, block.length = f.sponge.variant.rate →
    output.length = f.sponge.variant.digestLength → block.take n = f.block.take n →
    finalize n ⟨⟨f.sponge, block, output⟩, l⟩ = .ok () ⟨f', l ++ [.finalizing f.sponge.variant n]⟩

variable {n : Nat} {f : Frame} {block : Bytes}

/-! ### What is taken from the caller -/

/-- Of the caller's bytes, the valid ones of the block are all that a finalization takes. -/
theorem closed_eq_of_take (hf : f.block.length = f.sponge.variant.rate)
    (hb : block.length = f.sponge.variant.rate) (hn : n ≤ f.sponge.variant.rate)
    (ht : block.take n = f.block.take n) (output : Bytes) :
    closed n ⟨f.sponge, block, output⟩ = f.closed n := by
  have hblocks : finalBlocks f.sponge.variant block n =
      finalBlocks f.sponge.variant f.block n := by
    rw [finalBlocks_eq hb hn, finalBlocks_eq hf hn, ht]
  -- there always is a last block, so the block that stood in the frame does not come back
  have hlast : (finalBlocks f.sponge.variant f.block n).getLastD block =
      (finalBlocks f.sponge.variant f.block n).getLastD f.block := by
    rw [finalBlocks_eq hf hn, blocksOf_eq, List.getLastD_concat, List.getLastD_concat]
  simp only [closed, hblocks, hlast]

/-- A block that is all message is absorbed, and what follows is the end of no message. -/
theorem closed_rate (hf : f.block.length = f.sponge.variant.rate)
    (hb : block.length = f.sponge.variant.rate) (output : Bytes) :
    closed 0 ⟨(f.sponge.mix f.block).permute, block, output⟩ = f.closed f.sponge.variant.rate := by
  have h0 : 0 ≠ f.sponge.variant.rate := Nat.ne_of_lt f.sponge.variant.rate_pos
  have hpad := (blocksOf_nil hb).symm.trans (blocksOf_nil hf)
  simp only [closed, finalBlocks, variant_permute, variant_mix, if_neg h0, ↓reduceIte, hpad,
    absorbAll_cons, List.getLastD_cons]

/-! ### All or nothing -/

theorem refuses_of_refusal {l : List Event} {e : Fault}
    (h : refusal f.sponge.variant f.block n f.output.length = some e) :
    Refuses n f l e.message :=
  ⟨e, finalize_of_refusal h l, rfl⟩

theorem block_closed (hn : n < f.sponge.variant.rate) :
    (f.closed n).block = paddedBytes n f.sponge.variant.suffix f.block := by
  rw [closed_of_lt hn]
  rfl

/-- The block that is left is the one that was absorbed. -/
theorem absorb_closed (hb : f.block.length = f.sponge.variant.rate)
    (hn : n < f.sponge.variant.rate) (l : List Event) :
    absorb (f.closed n).block ⟨f.sponge, l⟩ = .ok () ⟨(f.closed n).sponge, l⟩ := by
  have hfit : (f.closed n).block.length = f.sponge.variant.rate := by
    rw [block_closed hn, length_paddedBytes, hb]
  rw [absorb_apply hfit, closed_of_lt hn]
  rfl

theorem closes_closed (h : refusal f.sponge.variant f.block n f.output.length = none) :
    Closes n f (f.closed n) := by
  obtain ⟨hb, hn, -⟩ := refusal_eq_none_iff.1 h
  have hv : (f.closed n).sponge.variant = f.sponge.variant := variant_absorbAll _ _
  refine ⟨hv, ?output, ?short, ?full, ?stale⟩
  case output =>
    rw [← hv]
    rfl
  case short =>
    intro hlt
    have hlt' : n < f.block.length := by rwa [hb]
    refine ⟨?_, ?_, absorb_closed hb hlt⟩
    · rw [block_closed hlt, ← hb]
      exact padBytes_of_lt hlt' _
    · rw [block_closed hlt, ← hb]
      exact paddedBytes_eq hlt' _
  case full =>
    rintro rfl
    refine ⟨_, absorb_apply hb, ?_⟩
    intro block output l hblock hout
    have hs : (f.sponge.mix f.block).permute.variant = f.sponge.variant := by
      rw [variant_permute, variant_mix]
    have hc := closed_rate hb hblock output
    -- of the sponge that took the block, the checks see the variant alone
    generalize (f.sponge.mix f.block).permute = s at hs hc ⊢
    have ha : refusal s.variant block 0 output.length = none := by
      rw [hs]
      exact refusal_eq_none_iff.2 ⟨hblock, Nat.zero_le _, hout⟩
    have hf := finalize_of_accepted (f := ⟨s, block, output⟩) ha l
    rwa [hc, hs] at hf
  case stale =>
    intro block output l hblock hout ht
    have ha : refusal f.sponge.variant block n output.length = none :=
      refusal_eq_none_iff.2 ⟨hblock, hn, hout⟩
    rw [← closed_eq_of_take hb hblock hn ht output]
    exact finalize_of_accepted ha l

/-- A finalization is refused for the length of the block, else for the valid length, else for the
    length of the output, with the text of that check and with nothing changed. Else it is told of
    once, and it closes the frame. -/
theorem finalize_all_or_nothing (n : Nat) (f : Frame) (l : List Event) :
    let v := f.sponge.variant
    if f.block.length ≠ v.rate then Refuses n f l
      (mismatch (v.name ++ " pads " ++ v.rate.repr ++ "-byte blocks") f.block.length v.rate)
    else if v.rate < n then Refuses n f l
      (n.repr ++ " valid bytes exceed the " ++ v.rate.repr ++ "-byte rate of " ++ v.name)
    else if f.output.length ≠ v.digestLength then Refuses n f l
      (mismatch (v.name ++ " yields " ++ v.digestLength.repr ++ " bytes") f.output.length
        v.digestLength)
    else ∃ f', finalize n ⟨f, l⟩ = .ok () ⟨f', l ++ [.finalizing v n]⟩ ∧ Closes n f f' := by
  intro v
  rcases refusal_cases v f.block n f.output.length with
    ⟨hr, hb⟩ | ⟨hr, hb, hn⟩ | ⟨hr, hb, hn, ho⟩ | ⟨hr, hb, hn, ho⟩
  · rw [if_pos hb]
    exact refuses_of_refusal hr
  · rw [if_neg (not_not_intro hb), if_pos hn]
    exact refuses_of_refusal hr
  · rw [if_neg (not_not_intro hb), if_neg (Nat.not_lt.2 hn), if_pos ho]
    exact refuses_of_refusal hr
  · rw [if_neg (not_not_intro hb), if_neg (Nat.not_lt.2 hn), if_neg (not_not_intro ho)]
    exact ⟨_, finalize_of_accepted hr l, closes_closed hr⟩

end Sha3.Sponge.Frame
