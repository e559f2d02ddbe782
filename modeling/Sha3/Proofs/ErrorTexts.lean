import Sha3.Proofs.Lookup
import Sha3.Proofs.Text

/-! The two texts of an error tell which error it is. There are words around the fields of an error,
    and the fields are texts that end by themselves or before the next word:

        unknown SHA-3 algorithm name:   "name"
        incorrect pad size              pad      for rate    rate
        ────────── opening ──────────   field    words       field

    No opening begins another, so the opening tells the kind of the error. The words between two
    numbers do not begin with a digit, so they tell where the first number ends. This is all that is
    asked of a `Wording`, whatever its words are, and `Wording.text_injective` says that it is
    enough. Both texts of an error are of this form. -/

namespace Sha3

/-! ### Errors in words -/

/-- Neither of two texts begins with the other. -/
def Apart (p q : String) : Prop :=
  ¬p.toList <+: q.toList ∧ ¬q.toList <+: p.toList

/-- The words around the fields of an error. -/
structure Wording where
  beforeName : String
  afterName : String
  beforeBits : String
  afterBits : String
  beforePad : String
  beforeRate : String
  afterRate : String
  name_bits : Apart beforeName beforeBits
  name_pad : Apart beforeName beforePad
  bits_pad : Apart beforeBits beforePad
  pad_ends : ∃ c rest, beforeRate.toList = c :: rest ∧ ∀ k, Nat.digitChar k ≠ c

namespace Wording

/-- An error in words. -/
def text (w : Wording) : Error → String
  | .unknownVariant name => w.beforeName ++ Text.quote name ++ w.afterName
  | .unsupportedDigestBits bits => w.beforeBits ++ bits.repr ++ w.afterBits
  | .padSize pad rate => w.beforePad ++ pad.repr ++ w.beforeRate ++ rate.repr ++ w.afterRate

/-- The words before the first field. -/
def opening (w : Wording) : Error → String
  | .unknownVariant _ => w.beforeName
  | .unsupportedDigestBits _ => w.beforeBits
  | .padSize _ _ => w.beforePad

variable (w : Wording) {e f : Error}

theorem opening_isPrefix_text (e : Error) : (w.opening e).toList <+: (w.text e).toList := by
  cases e <;> simp [opening, text]

/-- Where two texts are one, an opening begins the other. -/
theorem not_apart_of_text_eq (h : w.text e = w.text f) : ¬Apart (w.opening e) (w.opening f) := by
  rintro ⟨hef, hfe⟩
  have he := w.opening_isPrefix_text e
  rw [h] at he
  rcases List.prefix_or_prefix_of_prefix he (w.opening_isPrefix_text f) with hp | hp
  · exact hef hp
  · exact hfe hp

/-- A text tells the error. -/
theorem text_injective : Function.Injective w.text := by
  intro e f h
  have hkind := w.not_apart_of_text_eq h
  have hl := congrArg String.toList h
  cases e with
  | unknownVariant s =>
    cases f with
    | unknownVariant t =>
      simp only [text, String.toList_append, List.append_assoc, List.append_cancel_left_eq] at hl
      rw [(Text.quote_append_inj hl).1]
    | unsupportedDigestBits n => exact absurd w.name_bits hkind
    | padSize q r => exact absurd w.name_pad hkind
  | unsupportedDigestBits m =>
    cases f with
    | unknownVariant t => exact absurd w.name_bits.symm hkind
    | unsupportedDigestBits n =>
      simp only [text, String.toList_append, List.append_assoc, List.append_cancel_left_eq,
        List.append_cancel_right_eq, Nat.toList_repr] at hl
      rw [Text.toDigits_inj (by decide) (by decide) hl]
    | padSize q r => exact absurd w.bits_pad hkind
  | padSize p r =>
    cases f with
    | unknownVariant t => exact absurd w.name_pad.symm hkind
    | unsupportedDigestBits n => exact absurd w.bits_pad.symm hkind
    | padSize q s =>
      obtain ⟨c, rest, hc, hdigit⟩ := w.pad_ends
      simp only [text, String.toList_append, List.append_assoc, List.append_cancel_left_eq,
        Nat.toList_repr, hc, List.cons_append] at hl
      obtain ⟨rfl, hrate⟩ := Text.toDigits_append_inj (by decide) (by decide) hdigit hl
      simp only [List.append_cancel_left_eq, List.append_cancel_right_eq] at hrate
      rw [Text.toDigits_inj (by decide) (by decide) hrate]

end Wording

/-! ### The two texts -/

namespace Error

/-- The words for a reader. -/
def messageWords : Wording where
  beforeName := "unknown SHA-3 algorithm name: "
  afterName := ""
  beforeBits := "unsupported SHA-3 digest length: "
  afterBits := " bits"
  beforePad := "incorrect pad size "
  beforeRate := " for rate "
  afterRate := ""
  name_bits := by simp [Apart]
  name_pad := by simp [Apart]
  bits_pad := by simp [Apart]
  pad_ends := ⟨' ', "for rate ".toList, by simp, by simp⟩

/-- The words for the value as it is built. -/
def debugWords : Wording where
  beforeName := "UnknownVariant("
  afterName := ")"
  beforeBits := "UnsupportedDigestBits("
  afterBits := ")"
  beforePad := "PadSize \x7b pad: "
  beforeRate := ", rate: "
  afterRate := " \x7d"
  name_bits := by simp [Apart]
  name_pad := by simp [Apart]
  bits_pad := by simp [Apart]
  pad_ends := ⟨',', " rate: ".toList, by simp, by simp⟩

theorem message_eq (e : Error) : e.message = messageWords.text e := by
  cases e with
  | unknownVariant name => exact String.append_empty.symm
  | unsupportedDigestBits bits => rfl
  | padSize pad rate => exact String.append_empty.symm

theorem debug_eq (e : Error) : e.debug = debugWords.text e := by
  cases e <;> rfl

theorem message_injective : Function.Injective message := by
  intro e f h
  rw [message_eq, message_eq] at h
  exact messageWords.text_injective h

theorem debug_injective : Function.Injective debug := by
  intro e f h
  rw [debug_eq, debug_eq] at h
  exact debugWords.text_injective h

/-- The error of a lookup holds the name that was looked up. -/
theorem eq_unknownVariant_of_ofName {s : String} {e : Error} (h : Variant.ofName s = .error e) :
    e = .unknownVariant s := by
  obtain ⟨hok, herror⟩ := Variant.ofName_iff s
  have hno : ∀ v : Variant, ¬v.SpelledBy s.toList := by
    intro v hv
    rw [(hok v).2 hv] at h
    cases h
  rw [herror.2 hno] at h
  exact (Except.error.inj h).symm

/-- Different errors have different texts, both for a reader and as they are built. So have the
    errors of different names that are refused. -/
theorem texts_tell_apart :
    (∀ e f : Error, e ≠ f → e.message ≠ f.message ∧ e.debug ≠ f.debug) ∧
    ∀ (s t : String) (e f : Error), Variant.ofName s = .error e → Variant.ofName t = .error f →
      s ≠ t → e.message ≠ f.message ∧ e.debug ≠ f.debug := by
  have hne (e f : Error) (h : e ≠ f) : e.message ≠ f.message ∧ e.debug ≠ f.debug :=
    ⟨message_injective.ne h, debug_injective.ne h⟩
  refine ⟨hne, fun s t e f hs ht hst => hne e f ?_⟩
  rw [eq_unknownVariant_of_ofName hs, eq_unknownVariant_of_ofName ht]
  exact fun h => hst (Error.unknownVariant.inj h)

/-- A character that is shown by its code point, and a name that reads just like what is shown. -/
theorem texts_tell_escape_from_spelling :
    let e := Error.unknownVariant "\x7f"
    let f := Error.unknownVariant "\\u\x7b7f\x7d"
    Text.escape '\x7f' = "\\u\x7b7f\x7d".toList ∧ Variant.ofName "\x7f" = .error e ∧
      Variant.ofName "\\u\x7b7f\x7d" = .error f ∧ e ≠ f ∧ e.message ≠ f.message ∧
      e.debug ≠ f.debug := by
  intro e f
  have hescape : Text.escape '\x7f' = "\\u\x7b7f\x7d".toList := by decide
  have hs : Variant.ofName "\x7f" = .error e := rfl
  have ht : Variant.ofName "\\u\x7b7f\x7d" = .error f := rfl
  have hst : "\x7f" ≠ "\\u\x7b7f\x7d" := by decide
  have hne : e ≠ f := fun h => hst (Error.unknownVariant.inj h)
  obtain ⟨herrors, hnames⟩ := texts_tell_apart
  exact ⟨hescape, hs, ht, hne, (herrors e f hne).1, (hnames _ _ e f hs ht hst).2⟩

end Error

end Sha3
