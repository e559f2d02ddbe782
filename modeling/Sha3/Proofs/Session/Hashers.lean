import Sha3.Proofs.Hasher
import Sha3.Proofs.Session.Refinement

/-! A streaming hasher is the message so far. However the message came, in pieces of any size, the
    hasher holds its full blocks in the state and the bytes behind them in the buffer:

        message   =  block block … block | rest
                            ▼               ▼
        hasher    =  stateAfter blocks   pending

    So a session of hashers is answered like one of their messages. A message that is empty, or
    empty again, has the hasher that has just been made. Of the buffer nothing is taken but that the
    calls on it are lawful. -/

namespace Sha3.Hasher

/-- The hasher behind a message: the full blocks are absorbed, and the last bytes, fewer than a
    block, are pending. -/
structure Holds (h : Hasher) (p : Past) : Prop where
  variant : h.inner.sponge.variant = p.variant
  bytes : h.inner.sponge.bytes = stateAfter (fullBlocks p.variant.rate p.given)
  pending : h.pending = p.given.drop (p.given.length - p.given.length % p.variant.rate)
  short : h.pending.length < p.variant.rate
  asNew : p.given = [] → h = around ⟨Sponge.fresh p.variant⟩

theorem drop_eq_snd_split (n : Nat) (m : Bytes) :
    m.drop (m.length - m.length % n) = (split n m).2 := by
  have h := Nat.div_add_mod m.length n
  rw [Nat.mul_comm] at h
  rw [snd_split]
  congr 1
  omega

theorem Holds.of_split {h : Hasher} {p : Past} (hv : h.inner.sponge.variant = p.variant)
    (hb : h.inner.sponge.bytes = stateAfter (split p.variant.rate p.given).1)
    (hp : h.pending = (split p.variant.rate p.given).2)
    (hn : p.given = [] → h = around ⟨Sponge.fresh p.variant⟩) : Holds h p where
  variant := hv
  bytes := by rw [hb, fst_split]
  pending := by rw [hp, drop_eq_snd_split]
  short := by
    rw [hp]
    exact length_rest_lt p.variant p.given
  asNew := hn

theorem Holds.bytes_eq {h : Hasher} {p : Past} (hh : Holds h p) :
    h.inner.sponge.bytes = stateAfter (split p.variant.rate p.given).1 := by
  rw [hh.bytes, fst_split]

theorem Holds.pending_eq {h : Hasher} {p : Past} (hh : Holds h p) :
    h.pending = (split p.variant.rate p.given).2 := by
  rw [hh.pending, drop_eq_snd_split]

theorem holds_fresh (v : Variant) : Holds (around ⟨Sponge.fresh v⟩) ⟨v, []⟩ := by
  have hs : split v.rate [] = ([], []) := split_of_lt v.rate_pos
  refine .of_split rfl ?_ ?_ fun _ => rfl
  · rw [hs]
    rfl
  · rw [hs]
    rfl

theorem Holds.copy {h : Hasher} {p : Past} (hh : Holds h p) : Holds h.copy p where
  variant := hh.variant
  bytes := hh.bytes
  pending := hh.pending
  short := hh.short
  asNew hn := by
    rw [hh.asNew hn]
    rfl

/-! ### Calls -/

/-- A piece more makes the message longer by that piece. -/
theorem Holds.update {h : Hasher} {p : Past} (hh : Holds h p) (piece : Bytes) (l : List Event) :
    ∃ h', Hasher.update piece ⟨h, l⟩ = .ok () ⟨h', l⟩ ∧
      Holds h' { p with given := p.given ++ piece } := by
  have hs := split_append p.variant.rate_pos p.given piece
  refine ⟨_, calls_lawful.update_apply h piece l, .of_split ?_ ?_ ?_ ?_⟩
  · rw [Sponge.variant_absorbAll]
    exact hh.variant
  · simp only [Sponge.bytes_absorbAll, hh.bytes_eq, hh.pending_eq, hh.variant, hs,
      stateAfter_append]
  · simp only [hh.pending_eq, hh.variant, hs]
  · rintro hn
    obtain ⟨hg, rfl⟩ := List.append_eq_nil_iff.1 hn
    obtain rfl := hh.asNew hg
    have h0 : split p.variant.rate [] = ([], []) := split_of_lt p.variant.rate_pos
    simp only [around, Sponge.fresh, List.append_nil, h0]
    rfl

theorem Holds.pending_lt {h : Hasher} {p : Past} (hh : Holds h p) :
    h.pending.length < h.inner.sponge.variant.rate := by
  rw [hh.variant]
  exact hh.short

theorem Holds.length_pending {h : Hasher} {p : Past} (hh : Holds h p) :
    h.pending.length = p.given.length % p.variant.rate := by
  rw [hh.pending_eq, length_snd_split]

/-- The sponge after the end of the message has its digest. -/
theorem Holds.digest_closed {h : Hasher} {p : Past} (hh : Holds h p) :
    h.closed.digest = digestOf p.variant p.given := by
  have hfull : ∀ b ∈ (split p.variant.rate p.given).1, b.length = h.inner.sponge.variant.rate := by
    rintro b hb
    rw [hh.variant]
    exact length_of_mem_split hb
  rw [closed, Sponge.digest_absorbAll hh.bytes_eq hfull, hh.pending_eq, flatten_split, hh.variant]

theorem Holds.finalize {h : Hasher} {p : Past} (hh : Holds h p) (l : List Event) :
    ∃ h', Hasher.finalize ⟨h, l⟩ =
      .ok (digestOf p.variant p.given) ⟨h', l ++ finalizing p.variant p.given⟩ := by
  obtain ⟨left, hf⟩ := calls_lawful.finalize_apply hh.pending_lt l
  rw [hh.digest_closed, hh.variant, hh.length_pending] at hf
  exact ⟨_, hf⟩

/-- The digest behind one piece more. -/
theorem Holds.update_finalize {h : Hasher} {p : Past} (hh : Holds h p) (piece : Bytes)
    (l : List Event) :
    ∃ h', (do Hasher.update piece; Hasher.finalize) ⟨h, l⟩ =
      .ok (digestOf p.variant (p.given ++ piece))
        ⟨h', l ++ finalizing p.variant (p.given ++ piece)⟩ := by
  obtain ⟨h₁, hu, hh₁⟩ := hh.update piece l
  obtain ⟨h₂, hf⟩ := hh₁.finalize l
  exact ⟨h₂, (Call.bind_ok hu).trans hf⟩

/-! ### Sessions -/

theorem alike_reset {h : Hasher} {p : Past} (hh : Holds h p) :
    Outcome.Alike Holds (h.perform .reset) (p.perform .reset) := by
  have hr : Hasher.reset ⟨h, []⟩ = _ := calls_lawful.reset_apply h []
  rw [Sponge.cleared, hh.variant] at hr
  rw [perform, Past.perform, Outcome.ofCall, hr]
  exact ⟨.some (holds_fresh _), rfl, rfl, rfl⟩

theorem alike_update {h : Hasher} {p : Past} (hh : Holds h p) (piece : Bytes) :
    Outcome.Alike Holds (h.perform (.update piece)) (p.perform (.update piece)) := by
  obtain ⟨h', hu, hh'⟩ := hh.update piece []
  rw [perform, Past.perform, Outcome.ofCall, hu]
  exact ⟨.some hh', rfl, rfl, rfl⟩

theorem alike_write {h : Hasher} {p : Past} (hh : Holds h p) (piece : Bytes) :
    Outcome.Alike Holds (h.perform (.write piece)) (p.perform (.write piece)) := by
  obtain ⟨h', hu, hh'⟩ := hh.update piece []
  have hw : Hasher.write piece ⟨h, []⟩ = .ok piece.length ⟨h', []⟩ := (Call.bind_ok hu).trans rfl
  rw [perform, Past.perform, Outcome.ofCall, hw]
  exact ⟨.some hh', rfl, rfl, rfl⟩

theorem alike_finalize {h : Hasher} {p : Past} (hh : Holds h p) :
    Outcome.Alike Holds (h.perform .finalize) (p.perform .finalize) := by
  obtain ⟨h', hf⟩ := hh.finalize []
  rw [perform, Past.perform, Outcome.ofCall, hf]
  exact ⟨.none, rfl, rfl, rfl⟩

theorem alike_finalizeReset {h : Hasher} {p : Past} (hh : Holds h p) :
    Outcome.Alike Holds (h.perform .finalizeReset) (p.perform .finalizeReset) := by
  have hf : Hasher.finalizeReset ⟨h, []⟩ = _ :=
    calls_lawful.finalizeReset_apply hh.pending_lt []
  rw [hh.digest_closed, hh.variant, hh.length_pending] at hf
  rw [perform, Past.perform, Outcome.ofCall, hf]
  exact ⟨.some (holds_fresh _), rfl, rfl, rfl⟩

theorem outputSize_eq {h : Hasher} {p : Past} (hh : Holds h p) :
    h.outputSize = p.variant.digestLength := by
  rw [outputSize, BlockHasher.outputSize_eq, hh.variant]

theorem alike_finalizeOver {h : Hasher} {p : Past} (hh : Holds h p) (output : Bytes) :
    Outcome.Alike Holds (h.perform (.finalizeOver output)) (p.perform (.finalizeOver output)) := by
  rw [perform, Past.perform, Outcome.ofCall, Past.finalizeOver, ← outputSize_eq hh]
  rcases eq_or_ne output.length h.outputSize with ho | ho
  · have hf : Hasher.finalizeOver output ⟨h, []⟩ = _ :=
      calls_lawful.finalizeOver_apply hh.pending_lt ho []
    rw [hh.digest_closed, hh.variant, hh.length_pending] at hf
    rw [hf, if_pos ho]
    exact ⟨.some (holds_fresh _), rfl, rfl, rfl⟩
  · have hr : Hasher.finalizeOver output ⟨h, []⟩ = _ := calls_lawful.refused h output [] ho
    rw [hr, if_neg ho]
    exact ⟨.some hh, rfl, rfl, rfl⟩

theorem alike_perform {h : Hasher} {p : Past} (hh : Holds h p) :
    ∀ op, Outcome.Alike Holds (h.perform op) (p.perform op)
  | .look => .ofLook hh _
  | .debug => by
    have hd : h.debug = p.variant.name ++ " \x7b .. \x7d" := by
      rw [Hasher.debug, BlockHasher.algorithmName, BlockHasher.params, Variant.variant_params,
        hh.variant]
    rw [perform, Past.perform, hd]
    exact .ofLook hh _
  | .outputSize => by
    rw [perform, Past.perform, outputSize_eq hh]
    exact .ofLook hh _
  | .reset => alike_reset hh
  | .update piece => alike_update hh piece
  | .write piece => alike_write hh piece
  | .finalize => alike_finalize hh
  | .finalizeReset => alike_finalizeReset hh
  | .finalizeOver output => alike_finalizeOver hh output

theorem createWith_apply {v : Variant} {start : Bytes} {h : Hasher} {l : List Event}
    (hu : Hasher.update start ⟨around ⟨Sponge.fresh v⟩, [.initialised v]⟩ = .ok () ⟨h, l⟩) :
    createWith v start ⟨(), []⟩ = .ok h ⟨(), l⟩ := by
  have hc : (do Hasher.update start; Call.current)
      ⟨around ⟨Sponge.fresh v⟩, [.initialised v]⟩ = .ok h ⟨h, l⟩ :=
    (Call.bind_ok hu).trans rfl
  rw [createWith]
  refine (Call.bind_ok (create_apply v _)).trans ?_
  exact Call.aside_ok (o := ⟨(), [.initialised v]⟩) hc

/-- A hasher that is made with the beginning of its message holds that beginning. -/
theorem made_createWith (v : Variant) (start : Bytes) :
    MadeAlike Holds (createWith v start ⟨(), []⟩) (Past.kind.create v start ⟨(), []⟩) := by
  obtain ⟨h, hu, hh⟩ := (holds_fresh v).update start [.initialised v]
  rw [createWith_apply hu]
  exact .ok hh

/-- Hashers are made, copied and called like their messages. -/
theorem kind_refines : kind.Refines Holds Past.kind where
  create := made_createWith
  copy hh := hh.copy
  perform hh op := .some (alike_perform hh op)

/-- Every session of streaming hashers is answered like the session of their messages, and every
    hasher in it holds its message. The digests of the messages are those of hashing. -/
theorem run_alike_messages (steps : List (Step Bytes Op)) :
    Option.Rel (fun r p => List.Forall₂ (Answer.Alike Holds) r.1 p.1 ∧ r.2.Alike Holds p.2)
      (kind.run [] steps) (Past.kind.run [] steps) ∧
    ∀ v m, hash v m ⟨(), []⟩ = .ok (digestOf v m) ⟨(), .initialised v :: finalizing v m⟩ :=
  ⟨kind_refines.run steps .nil, fun v m => hash_apply v m _⟩

end Sha3.Hasher
