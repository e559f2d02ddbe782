import Sha3.Proofs.Session.Invariants
import Sha3.Proofs.Session.Requests

/-! Who can fault. Hashing and the hashers never do, in any session: each of their requests fits, so
    no sponge refuses it, and no last block of theirs is full. A sponge in other hands faults on
    arguments of the wrong size and on nothing else; it never pads a block that has no room, since a
    last block that is full is padded as an empty one. So no session has a violation of the padding
    to tell. -/

namespace Sha3

open Sponge (Request)

/-- No fault, and every digest told was asked for with room for padding. -/
structure Faultless (failure : Option Failure) (log : List Event) : Prop where
  fault : ∀ f, failure ≠ some (.fault f)
  short : ∀ v n, .finalizing v n ∈ log → n < v.rate

/-- No fault of the padding, and nobody was told of one. -/
structure Unviolated (failure : Option Failure) (log : List Event) : Prop where
  fault : ∀ x, failure ≠ some (.fault (.padding x))
  untold : ∀ v x, .paddingViolated v x ∉ log

/-- Whatever the hasher is called for next, it does not fault, and it works on its sponge by
    requests that fit. -/
def Hasher.Orderly (h : Hasher) : Prop :=
  ∀ op, Faultless (h.perform op).failure (h.perform op).log ∧
    ∃ t, h.inner.sponge.Serves (h.requests op) t (h.perform op).log ∧
      ∀ h', (h.perform op).object = some h' → h'.inner.sponge = t

/-- The data of an update divides into blocks. -/
def BlockHasher.Op.Whole (v : Variant) : Op → Prop
  | .update data => data.length % v.rate = 0
  | .look | .variant | .debug | .algorithmName | .reset | .finalize _ | .digestAfter _ => True

/-- Whatever the hasher is called for next, with data that divides into blocks, it answers without
    a fault, and it works on the sponge it asks by requests that fit. -/
def BlockHasher.Orderly (h : BlockHasher) : Prop :=
  ∀ op : Op, op.Whole h.sponge.variant → ∃ r, h.perform op = some r ∧ Faultless r.failure r.log ∧
    ∃ t, (h.asked op).Serves (h.requests op) t r.log ∧ r.object = some (h.left t op)

/-- The arguments have the sizes of the variant. -/
def Sponge.Op.Sized (v : Variant) : Op → Prop
  | .look | .variant | .debug | .reset | .zeroize => True
  | .absorb block => block.length = v.rate
  | .extract block n => block.length = v.rate ∧ n ≤ v.rate
  | .finalize block n output =>
    block.length = v.rate ∧ n ≤ v.rate ∧ output.length = v.digestLength

/-- The sponge faults for the sizes of its arguments only. A finalization that it refuses changes
    nothing and is told to nobody; one that it accepts pads, with success, after a length inside the
    block. -/
structure Sponge.PadsInside (s : Sponge) : Prop where
  fails_iff : ∀ op, (s.perform op).failure ≠ none ↔ ¬op.Sized s.variant
  refused : ∀ block n output, ¬(Op.finalize block n output).Sized s.variant →
    ∃ e, Frame.finalize n ⟨⟨s, block, output⟩, []⟩ = .error (.fault e) ⟨⟨s, block, output⟩, []⟩ ∧
      ∀ x, e ≠ .padding x
  accepted : ∀ block n output, (Op.finalize block n output).Sized s.variant →
    ∃ f, let len := if n = s.variant.rate then 0 else n
      len < block.length ∧
      padBytes len s.variant.suffix block = .ok (block.length - len) f.block ∧
      Frame.finalize n ⟨⟨s, block, output⟩, []⟩ = .ok () ⟨f, [.finalizing s.variant n]⟩

/-! ### Hashers -/

theorem faultless_finalizing (v : Variant) (m : Bytes) : Faultless none (finalizing v m) where
  fault := by simp
  short w n h := by
    simp only [finalizing, List.mem_singleton, Event.finalizing.injEq] at h
    obtain ⟨rfl, rfl⟩ := h
    exact Nat.mod_lt _ w.rate_pos

/-- No digest is told of. -/
theorem faultless_of_quiet {failure : Option Failure} {log : List Event}
    (hf : ∀ f, failure ≠ some (.fault f)) (hl : ∀ v n, .finalizing v n ∉ log) :
    Faultless failure log :=
  ⟨hf, fun v n h => absurd h (hl v n)⟩

theorem faultless_finalizing_reset (v : Variant) (m : Bytes) :
    Faultless none (finalizing v m ++ [.reset v]) where
  fault := by simp
  short w n h := by
    have hm : .finalizing w n ∈ finalizing v m := by simpa using h
    exact (faultless_finalizing v m).short w n hm

theorem Hasher.Past.faultless (p : Past) (op : Op) :
    Faultless (p.perform op).failure (p.perform op).log := by
  cases op with
  | look | debug | outputSize | reset | update | write =>
    exact faultless_of_quiet (by simp [Past.perform, Outcome.ofLook])
      (by simp [Past.perform, Outcome.ofLook])
  | finalize => exact faultless_finalizing _ _
  | finalizeReset => exact faultless_finalizing_reset _ _
  | finalizeOver output =>
    rw [Past.perform, Past.finalizeOver]
    split
    · exact faultless_finalizing_reset _ _
    · exact faultless_of_quiet (by simp) (by simp)

theorem BlockHasher.Past.faultless {p : Past} {op : Op} {r : Outcome Past Reply}
    (h : p.perform op = some r) : Faultless r.failure r.log := by
  cases op with
  | look | variant | debug | algorithmName | reset =>
    cases h
    exact faultless_of_quiet (by simp [Outcome.ofLook]) (by simp [Outcome.ofLook])
  | update data =>
    rw [Past.perform] at h
    split at h
    · cases h
      exact faultless_of_quiet (by simp) (by simp)
    · cases h
  | finalize tail =>
    cases h
    exact faultless_finalizing _ _
  | digestAfter data =>
    cases h
    exact faultless_finalizing _ _

/-- Failing to find a variant is no fault, and making an object is none. -/
theorem Faultless.keeps {σ Seed Op Reply : Type} {k : Kind σ Seed Op Reply}
    (hmade : ∀ v seed, ∃ x, k.create v seed ⟨(), []⟩ = .ok x ⟨(), [.initialised v]⟩)
    (hperform : ∀ {x op r}, k.perform op x = some r → Faultless r.failure r.log) :
    k.Keeps (fun _ => True) Faultless :=
  .of_perform hmade (fun _ => faultless_of_quiet (by simp) (by simp))
    (faultless_of_quiet (by simp) (by simp)) (fun _ => faultless_of_quiet (by simp) (by simp))
    hperform

/-- Messages so far never fault. -/
theorem Hasher.Past.kind_keeps : Past.kind.Keeps (fun _ => True) Faultless := by
  refine Faultless.keeps (fun _ _ => ⟨_, rfl⟩) ?_
  rintro p op _ ⟨⟩
  exact Past.faultless p op

/-- Neither do bytes absorbed. -/
theorem BlockHasher.Past.kind_keeps : Past.kind.Keeps (fun _ => True) Faultless :=
  Faultless.keeps (fun _ _ => ⟨_, rfl⟩) Past.faultless

theorem Hasher.Holds.orderly {h : Hasher} {p : Past} (hh : Holds h p) : h.Orderly := by
  intro op
  obtain ⟨-, -, hf, hl⟩ := alike_perform hh op
  have hfault := Past.faultless p op
  rw [← hf, ← hl] at hfault
  exact ⟨hfault, hh.serves op⟩

/-- Data that divides into blocks is taken. -/
theorem BlockHasher.Past.takes {p : Past} {op : Op} (h : op.Whole p.variant) :
    ∃ r, p.perform op = some r := by
  cases op with
  | look | variant | debug | algorithmName | reset | finalize | digestAfter => exact ⟨_, rfl⟩
  | update data => exact ⟨_, if_pos h⟩

theorem BlockHasher.Holds.orderly {h : BlockHasher} {p : Past} (hh : Holds h p) : h.Orderly := by
  intro op hw
  rw [hh.variant] at hw
  obtain ⟨r', hp⟩ := Past.takes hw
  have ha := alike_perform hh op
  rw [hp] at ha
  cases hr : h.perform op with
  | none =>
    rw [hr] at ha
    cases ha
  | some r =>
    rw [hr] at ha
    cases ha with
    | some ha =>
      refine ⟨r, rfl, ?_, hh.serves hr⟩
      rw [ha.failure, ha.log]
      exact Past.faultless hp

/-! ### Sponges -/

/-- What a sponge is refused for is never its padding. -/
theorem Sponge.refusal_ne_padding {v : Variant} {block : Bytes} {n m : Nat} {e : Fault}
    (h : refusal v block n m = some e) (x : Error) : e ≠ .padding x := by
  rcases refusal_cases v block n m with ⟨hr, -⟩ | ⟨hr, -⟩ | ⟨hr, -⟩ | ⟨hr, -⟩ <;>
    cases hr.symm.trans h <;> simp

theorem Sponge.unviolated_finalization {σ : Type} (x : σ) (v : Variant) (block : Bytes)
    (n room : Nat) (closed : σ × Bytes × Bytes) (reply : Option Bytes → Bytes → Reply) :
    Unviolated (finalization x v block n room closed reply).failure
      (finalization x v block n room closed reply).log := by
  rw [finalization]
  cases hr : refusal v block n room with
  | some e => exact ⟨by simpa using refusal_ne_padding hr, by simp⟩
  | none => exact ⟨by simp, by simp⟩

theorem Sponge.Past.unviolated (p : Past) (op : Op) :
    Unviolated (p.perform op).failure (p.perform op).log := by
  cases op with
  | look | variant | debug | reset | zeroize =>
    exact ⟨by simp [Past.perform, Outcome.ofLook], by simp [Past.perform, Outcome.ofLook]⟩
  | absorb block =>
    rw [Past.perform]
    split
    · exact ⟨by simp, by simp⟩
    · exact ⟨by simp, by simp⟩
  | extract block n =>
    rw [Past.perform_extract]
    exact unviolated_finalization _ _ _ _ _ _ _
  | finalize block n output =>
    rw [Past.perform_finalize]
    exact unviolated_finalization _ _ _ _ _ _ _

/-- Blocks absorbed so far never violate the padding. -/
theorem Sponge.Past.kind_keeps : Past.kind.Keeps (fun _ => True) Unviolated := by
  refine .of_perform (fun _ _ => ⟨_, rfl⟩) (fun _ => ⟨by simp, by simp⟩) ⟨by simp, by simp⟩
    (fun _ => ⟨by simp, by simp⟩) ?_
  rintro p op _ ⟨⟩
  exact Past.unviolated p op

/-- No fault is what a finalization of the right sizes comes to. -/
theorem Sponge.refusal_finalize {v : Variant} {block output : Bytes} {n : Nat} :
    refusal v block n output.length = none ↔ (Op.finalize block n output).Sized v :=
  refusal_eq_none_iff

/-- The output of an extraction has the right size anyway. -/
theorem Sponge.refusal_extract {v : Variant} {block : Bytes} {n : Nat} :
    refusal v block n v.digestLength = none ↔ (Op.extract block n).Sized v := by
  rw [refusal_eq_none_iff, Op.Sized]
  exact ⟨fun h => ⟨h.1, h.2.1⟩, fun h => ⟨h.1, h.2, rfl⟩⟩

/-- Sizes that are those of the variant are all that a sponge asks for. -/
theorem Sponge.failure_eq_none_iff (s : Sponge) (op : Op) :
    (s.perform op).failure = none ↔ op.Sized s.variant := by
  cases op with
  | look | variant | debug | reset | zeroize => exact iff_of_true rfl trivial
  | absorb block =>
    rw [perform, Outcome.ofCall, Op.Sized]
    by_cases hb : block.length = s.variant.rate
    · rw [absorb_apply hb]
      exact iff_of_true rfl hb
    · rw [absorb_apply_of_ne hb]
      exact iff_of_false (by simp) hb
  | extract block n =>
    rw [perform_extract, failure_finalization, Option.map_eq_none_iff]
    exact refusal_extract
  | finalize block n output =>
    rw [perform_finalize, failure_finalization, Option.map_eq_none_iff]
    exact refusal_finalize

/-- A block that is full is padded as an empty one, any other behind its bytes of message. -/
theorem Sponge.padsInside (s : Sponge) : s.PadsInside where
  fails_iff op := not_congr (s.failure_eq_none_iff op)
  refused block n output h := by
    cases hr : refusal s.variant block n output.length with
    | some e => exact ⟨e, Frame.finalize_of_refusal hr [], refusal_ne_padding hr⟩
    | none => exact absurd (refusal_finalize.1 hr) h
  accepted block n output h := by
    have hb := h.1
    have hn := h.2.1
    have hlt : (if n = s.variant.rate then 0 else n) < block.length := by
      have h0 := s.variant.rate_pos
      split <;> omega
    refine ⟨_, hlt, ?_, Frame.finalize_of_accepted (refusal_finalize.2 h) []⟩
    rw [padBytes_of_lt hlt]
    simp only [Frame.closed, finalBlocks]
    split <;> rfl

/-- A block without room is what violates the padding. It is told, and the fault has the same
    error. -/
theorem Sponge.Frame.violates_iff {len : Nat} {f : Frame} {l : List Event} :
    (∃ e, padBlock len ⟨f, l⟩ =
      .error (.fault (.padding e)) ⟨f, l ++ [.paddingViolated f.sponge.variant e]⟩) ↔
      f.block.length ≤ len := by
  constructor
  · rintro ⟨e, h⟩
    by_contra hlt
    rw [padBlock_apply (Nat.lt_of_not_le hlt)] at h
    cases h
  · intro h
    exact ⟨_, padBlock_apply_of_le h l⟩

/-- No session of sponges has a violation to tell, whatever is asked of them. -/
theorem Sponge.run_tells_no_violation {steps : List (Step Unit Op)}
    {answers : List (Answer Sponge Reply)} {slots : Slots Sponge}
    (h : kind.run [] steps = some (answers, slots)) :
    ∀ a ∈ answers, ∀ v x, .paddingViolated v x ∉ a.log := by
  obtain ⟨ha, -⟩ := (kind_refines.keeps Past.kind_keeps).run steps .nil h
  exact fun a hm => (ha a hm).untold

/-! ### Who can fault -/

/-- Hashing and the hashers fault in no session, and whatever they ask of a sponge fits. Sponges
    fault for the sizes of their arguments only, and always pad inside the block. -/
theorem only_sponges_fault :
    (∀ v m, ∃ s,
      (Sponge.fresh v).Serves (Request.ofMessage v.rate m v.params.output) s (finalizing v m) ∧
      hash v m ⟨(), []⟩ = .ok s.digest ⟨(), .initialised v :: finalizing v m⟩) ∧
    (∀ v start, ∃ t pending,
      (Sponge.fresh v).Serves (Request.ofBlocks v.rate start) t [] ∧
      Hasher.createWith v start ⟨(), []⟩ = .ok ⟨⟨t⟩, pending⟩ ⟨(), [.initialised v]⟩) ∧
    (∀ steps answers slots, Hasher.kind.run [] steps = some (answers, slots) →
      (∀ a ∈ answers, Faultless a.failure a.log) ∧ slots.Within Hasher.Orderly) ∧
    (∀ steps answers slots, BlockHasher.kind.run [] steps = some (answers, slots) →
      (∀ a ∈ answers, Faultless a.failure a.log) ∧ slots.Within BlockHasher.Orderly) ∧
    (∀ steps answers slots, Sponge.kind.run [] steps = some (answers, slots) →
      (∀ a ∈ answers, ∀ x, a.failure ≠ some (.fault (.padding x))) ∧
        slots.Within Sponge.PadsInside) := by
  refine ⟨?hash, Hasher.createWith_serves, ?hashers, ?blockHashers, ?sponges⟩
  case hash =>
    intro v m
    exact ⟨_, Sponge.serves_ofMessage (Sponge.fresh v) m (length_output v), hash_eq_digest v m⟩
  case hashers =>
    intro steps answers slots hr
    obtain ⟨ha, hs⟩ := (Hasher.kind_refines.keeps Hasher.Past.kind_keeps).run steps .nil hr
    exact ⟨ha, hs.mono fun _ ⟨_, hh, _⟩ => hh.orderly⟩
  case blockHashers =>
    intro steps answers slots hr
    obtain ⟨ha, hs⟩ :=
      (BlockHasher.kind_refines.keeps BlockHasher.Past.kind_keeps).run steps .nil hr
    exact ⟨ha, hs.mono fun _ ⟨_, hh, _⟩ => hh.orderly⟩
  case sponges =>
    intro steps answers slots hr
    obtain ⟨ha, hs⟩ := (Sponge.kind_refines.keeps Sponge.Past.kind_keeps).run steps .nil hr
    exact ⟨fun a h => (ha a h).fault, hs.mono fun s _ => s.padsInside⟩

end Sha3
