import Sha3.Lookup
import Sha3.Proofs.Text
import Sha3.Spelling

/-! Looking a variant up, by name and by bits. What is done to a text before it is compared loses
    the blanks around it, the case of its letters and the kind of its hyphen, and nothing else. So
    the texts that find a variant are the spellings of its name:

        blanks [sS] [hH] [aA] 3 [-_] digits blanks   ──canonical──▶   SHA3-digits

    and the way back holds too (`spelling_iff`). The digits are those of the bits, so looking up the
    number that they denote finds the same. -/

namespace Sha3

/-! ### Characters -/

/-- A character as it is compared. -/
def plain (c : Char) : Char :=
  if c = '_' then '-' else c.toUpper

theorem toNat_toUpper (c : Char) :
    c.toUpper.toNat = if 97 ≤ c.toNat ∧ c.toNat ≤ 122 then c.toNat - 32 else c.toNat := by
  have hiff : ('a'.val ≤ c.val ∧ c.val ≤ 'z'.val) ↔ 97 ≤ c.toNat ∧ c.toNat ≤ 122 := by
    rw [UInt32.le_iff_toNat_le, UInt32.le_iff_toNat_le]
    rfl
  unfold Char.toUpper
  by_cases h : 97 ≤ c.toNat ∧ c.toNat ≤ 122
  · rw [dif_pos (hiff.2 h), if_pos h]
    -- the difference of the letters is negative, and the sum with it goes around the end
    have hx : ('A'.val - 'a'.val).toNat = 4294967264 := by decide
    have hs : (c.val + ('A'.val - 'a'.val)).toNat = (c.toNat + 4294967264) % 4294967296 := by
      rw [UInt32.toNat_add, hx]
      rfl
    refine hs.trans ?_
    omega
  · rw [dif_neg (mt hiff.1 h), if_neg h]

/-- The code points of the two. -/
theorem toNat_plain (c : Char) :
    (c.toNat = 95 ∧ (plain c).toNat = 45) ∨
    (97 ≤ c.toNat ∧ c.toNat ≤ 122 ∧ (plain c).toNat = c.toNat - 32) ∨
    (c.toNat ≠ 95 ∧ ¬(97 ≤ c.toNat ∧ c.toNat ≤ 122) ∧ (plain c).toNat = c.toNat) := by
  have h95 : c.toNat = 95 ↔ c = '_' := Char.toNat_inj (d := '_')
  unfold plain
  by_cases h : c = '_'
  · rw [if_pos h]
    exact .inl ⟨h95.2 h, rfl⟩
  · rw [if_neg h, toNat_toUpper]
    split
    case isTrue hl => exact .inr (.inl ⟨hl.1, hl.2, rfl⟩)
    case isFalse hl => exact .inr (.inr ⟨mt h95.1 h, hl, rfl⟩)

/-- A capital letter stands for itself and for the small one. -/
theorem plain_eq_capital (small capital : Char) (h : small.toNat = capital.toNat + 32)
    (hc : 65 ≤ capital.toNat ∧ capital.toNat ≤ 90) (c : Char) :
    plain c = capital ↔ c ∈ [small, capital] := by
  have hp := toNat_plain c
  rw [List.mem_cons, List.mem_singleton, ← Char.toNat_inj, ← Char.toNat_inj, ← Char.toNat_inj, h]
  omega

theorem plain_eq_hyphen (c : Char) : plain c = '-' ↔ c ∈ ['-', '_'] := by
  have hp := toNat_plain c
  have h45 : '-'.toNat = 45 := by decide
  have h95 : '_'.toNat = 95 := by decide
  rw [List.mem_cons, List.mem_singleton, ← Char.toNat_inj, ← Char.toNat_inj, ← Char.toNat_inj,
    h45, h95]
  omega

theorem toNat_of_isDigit {d : Char} (hd : d.isDigit) : 48 ≤ d.toNat ∧ d.toNat ≤ 57 :=
  Char.isDigit_iff_toNat.1 hd

/-- A digit stands for itself alone. -/
theorem plain_eq_digit {d : Char} (hd : d.isDigit) (c : Char) : plain c = d ↔ c = d := by
  have hp := toNat_plain c
  have hr := toNat_of_isDigit hd
  rw [← Char.toNat_inj, ← Char.toNat_inj]
  omega

theorem map_plain_eq_iff {digits : List Char} (hd : ∀ d ∈ digits, d.isDigit) (s : List Char) :
    s.map plain = digits ↔ s = digits := by
  induction digits generalizing s with
  | nil => exact List.map_eq_nil_iff
  | cons d digits ih =>
    obtain ⟨hd, hds⟩ := List.forall_mem_cons.1 hd
    cases s with
    | nil => simp
    | cons c s =>
      rw [List.map_cons, List.cons.injEq, List.cons.injEq, plain_eq_digit hd, ih hds]

/-! ### Blanks -/

/-- Blanks, and what is left when they are dropped from the front. -/
theorem exists_dropWhile (s : List Char) :
    ∃ before, Blanks before ∧ s = before ++ s.dropWhile Text.isBlank :=
  ⟨s.takeWhile Text.isBlank, List.all_eq_true.1 List.all_takeWhile,
    List.takeWhile_append_dropWhile.symm⟩

theorem exists_trim (s : List Char) :
    ∃ before after, Blanks before ∧ Blanks after ∧ s = before ++ trim s ++ after := by
  obtain ⟨before, hb, hs⟩ := exists_dropWhile s
  obtain ⟨after, ha, hr⟩ := exists_dropWhile (s.dropWhile Text.isBlank).reverse
  refine ⟨before, after.reverse, hb, fun c hc => ha c (List.mem_reverse.1 hc), ?_⟩
  have hl := congrArg List.reverse hr
  rw [List.reverse_reverse, List.reverse_append] at hl
  rw [List.append_assoc, trim, ← hl, ← hs]

/-- Blanks are dropped as far as the first character that is none. -/
theorem dropWhile_blanks {before : List Char} (hb : Blanks before) {c : Char}
    (hc : Text.isBlank c = false) (rest : List Char) :
    (before ++ c :: rest).dropWhile Text.isBlank = c :: rest := by
  have hn : ¬Text.isBlank c := by rw [hc]; exact Bool.false_ne_true
  rw [List.dropWhile_append_of_pos hb, List.dropWhile_cons_of_neg hn]

/-- A text between blanks that has none at its own ends is what is left when they are dropped. -/
theorem trim_append {before after : List Char} (hb : Blanks before) (ha : Blanks after)
    {c d : Char} (hc : Text.isBlank c = false) (hd : Text.isBlank d = false)
    {m rest front : List Char} (hfirst : m = c :: rest) (hlast : m = front ++ [d]) :
    trim (before ++ m ++ after) = m := by
  have ha' : Blanks after.reverse := fun c hc => ha c (List.mem_reverse.1 hc)
  have hdrop : (before ++ m ++ after).dropWhile Text.isBlank = m ++ after := by
    rw [hfirst, List.append_assoc, List.cons_append, dropWhile_blanks hb hc]
  have hrev : (m ++ after).reverse = after.reverse ++ d :: front.reverse := by
    rw [hlast, List.reverse_append, List.reverse_append]
    rfl
  rw [trim, hdrop, hrev, dropWhile_blanks ha' hd, List.reverse_cons, List.reverse_reverse, hlast]

/-! ### Spellings -/

/-- No visible ASCII character is a blank. -/
theorem isBlank_eq_false {c : Char} (h : 33 ≤ c.toNat ∧ c.toNat ≤ 126) :
    Text.isBlank c = false := by
  simp only [Text.isBlank, Text.CharClass.has, Text.blanks, List.any_cons, List.any_nil,
    Bool.or_false, Bool.or_eq_false_iff, Bool.and_eq_false_iff, decide_eq_false_iff_not]
  omega

theorem isBlank_of_isDigit {d : Char} (hd : d.isDigit) : Text.isBlank d = false := by
  have hr := toNat_of_isDigit hd
  exact isBlank_eq_false (by omega)

/-- Of a name between blanks the name is left: it begins with a letter and ends with a digit. -/
theorem trim_name {before after : List Char} (hb : Blanks before) (ha : Blanks after)
    {s : Char} (hs : s ∈ ['s', 'S']) {rest digits : List Char} (hne : digits ≠ [])
    (hd : ∀ d ∈ digits, d.isDigit) :
    trim (before ++ (s :: rest ++ digits) ++ after) = s :: rest ++ digits := by
  have hblank : Text.isBlank s = false := by
    rcases List.mem_cons.1 hs with rfl | hs
    · decide
    · obtain rfl := List.mem_singleton.1 hs
      decide
  have hlast : s :: rest ++ digits = (s :: rest ++ digits.dropLast) ++ [digits.getLast hne] := by
    rw [List.append_assoc, List.dropLast_concat_getLast]
  exact trim_append hb ha hblank (isBlank_of_isDigit (hd _ (List.getLast_mem hne))) rfl hlast

/-- What is compared as a name is one, but for the case of its letters and the kind of its hyphen.
    -/
theorem map_plain_eq_name_iff {digits : List Char} (hd : ∀ d ∈ digits, d.isDigit) (t : List Char) :
    t.map plain = ['S', 'H', 'A', '3', '-'] ++ digits ↔
      ∃ s h a hyphen, (s ∈ ['s', 'S'] ∧ h ∈ ['h', 'H'] ∧ a ∈ ['a', 'A'] ∧ hyphen ∈ ['-', '_']) ∧
        t = [s, h, a, '3', hyphen] ++ digits := by
  have hs := plain_eq_capital 's' 'S' (by decide) (by decide)
  have hh := plain_eq_capital 'h' 'H' (by decide) (by decide)
  have ha := plain_eq_capital 'a' 'A' (by decide) (by decide)
  have h3 := plain_eq_digit (d := '3') (by decide)
  simp only [List.cons_append, List.nil_append]
  constructor
  · intro ht
    obtain ⟨s, t, rfl, ps, ht⟩ := List.map_eq_cons_iff.1 ht
    obtain ⟨h, t, rfl, ph, ht⟩ := List.map_eq_cons_iff.1 ht
    obtain ⟨a, t, rfl, pa, ht⟩ := List.map_eq_cons_iff.1 ht
    obtain ⟨three, t, rfl, p3, ht⟩ := List.map_eq_cons_iff.1 ht
    obtain ⟨hyphen, t, rfl, py, ht⟩ := List.map_eq_cons_iff.1 ht
    rw [(h3 three).1 p3, (map_plain_eq_iff hd t).1 ht]
    exact ⟨s, h, a, hyphen, ⟨(hs s).1 ps, (hh h).1 ph, (ha a).1 pa, (plain_eq_hyphen hyphen).1 py⟩,
      rfl⟩
  · rintro ⟨s, h, a, hyphen, ⟨ms, mh, ma, my⟩, rfl⟩
    simp only [List.map_cons]
    rw [(hs s).2 ms, (hh h).2 mh, (ha a).2 ma, (h3 '3').2 rfl, (plain_eq_hyphen hyphen).2 my,
      (map_plain_eq_iff hd digits).2 rfl]

/-- The spellings of a name are the texts that are compared as the name. -/
theorem spelling_iff (bits : Nat) (s : List Char) :
    Spelling bits s ↔ canonical s = ['S', 'H', 'A', '3', '-'] ++ Nat.toDigits 10 bits := by
  have hd : ∀ d ∈ Nat.toDigits 10 bits, d.isDigit := by
    intro d hd
    exact Nat.isDigit_of_mem_toDigits (by decide) (by decide) hd
  have hcanon : canonical s = (trim s).map plain := rfl
  rw [hcanon, map_plain_eq_name_iff hd]
  constructor
  · rintro ⟨hb, hs, hh, ha, hy, haf⟩
    rw [List.append_assoc _ _ (Nat.toDigits 10 bits)]
    exact ⟨_, _, _, _, ⟨hs, hh, ha, hy⟩, trim_name hb haf hs Nat.toDigits_ne_nil hd⟩
  · rintro ⟨c, h, a, hyphen, ⟨hc, hh, ha, hy⟩, ht⟩
    -- what is missing from the trimmed text are the blanks of a spelling
    obtain ⟨before, after, hb, haf, hs⟩ := exists_trim s
    rw [hs, ht, ← List.append_assoc]
    exact .intro hb hc hh ha hy haf

/-- A text spells the number of bits that its digits denote. -/
theorem spelling_inj {m n : Nat} {s : List Char} (hm : Spelling m s) (hn : Spelling n s) :
    m = n := by
  rw [spelling_iff] at hm hn
  exact Text.toDigits_inj (by decide) (by decide) (List.append_cancel_left (hm.symm.trans hn))

/-! ### Finding -/

section
variable {α : Type} [DecidableEq α] {key : Variant → α}

/-- Where different variants have different keys, a key finds the variant that has it. -/
theorem find?_all_eq_some_iff (hk : ∀ v w, key v = key w → v = w) (x : α) (v : Variant) :
    (Variant.all.find? fun v => key v = x) = some v ↔ key v = x := by
  constructor
  · intro h
    simpa using List.find?_some h
  · intro h
    cases hf : Variant.all.find? fun v => key v = x with
    | none => exact absurd h (by simpa using List.find?_eq_none.1 hf v v.mem_all)
    | some w =>
      have hw : key w = x := by simpa using List.find?_some hf
      rw [hk w v (hw.trans h.symm)]

/-- A search answers the variant with the key, and its error if there is none. -/
theorem search_iff (hk : ∀ v w, key v = key w → v = w) {x : α} {e : Error}
    {r : Except Error Variant}
    (hr : r = match Variant.all.find? fun v => key v = x with
      | some v => .ok v
      | none => .error e) :
    (∀ v, r = .ok v ↔ key v = x) ∧ (r = .error e ↔ ∀ v, key v ≠ x) := by
  have hf := find?_all_eq_some_iff hk x
  rw [hr]
  cases h : Variant.all.find? fun v => key v = x with
  | none =>
    simp only [h, reduceCtorEq, false_iff] at hf
    simp [hf]
  | some w =>
    simp only [h, Option.some.injEq] at hf
    refine ⟨fun v => ?_, iff_of_false (by simp) ?_⟩
    · rw [Except.ok.injEq, hf]
    · exact fun hne => hne w ((hf w).1 rfl)

end

namespace Variant

theorem name_eq (v : Variant) :
    v.name.toList = ['S', 'H', 'A', '3', '-'] ++ Nat.toDigits 10 (v.digestLength * 8) := by
  cases v <;> decide

theorem length_digits (v : Variant) : (Nat.toDigits 10 (v.digestLength * 8)).length = 3 := by
  cases v <;> rfl

theorem digestBits_inj (v w : Variant) (h : v.digestLength * 8 = w.digestLength * 8) : v = w := by
  revert h
  cases v <;> cases w <;> decide

theorem spelledBy_iff (v : Variant) (s : List Char) :
    v.SpelledBy s ↔ v.name.toList = canonical s := by
  rw [SpelledBy, spelling_iff, name_eq, eq_comm]

/-- A text spells the name of one variant at most. -/
theorem spelledBy_inj {v w : Variant} {s : List Char} (hv : v.SpelledBy s) (hw : w.SpelledBy s) :
    v = w :=
  digestBits_inj v w (spelling_inj hv hw)

theorem name_inj (v w : Variant) (h : v.name.toList = w.name.toList) : v = w := by
  rw [name_eq, name_eq] at h
  exact digestBits_inj v w (Text.toDigits_inj (by decide) (by decide) (List.append_cancel_left h))

theorem ofName_iff (s : String) :
    (∀ v, ofName s = .ok v ↔ v.SpelledBy s.toList) ∧
    (ofName s = .error (.unknownVariant s) ↔ ∀ v : Variant, ¬v.SpelledBy s.toList) := by
  simp only [spelledBy_iff]
  exact search_iff name_inj rfl

theorem ofDigestBits_iff (n : Nat) :
    (∀ v, ofDigestBits n = .ok v ↔ v.digestLength * 8 = n) ∧
    (ofDigestBits n = .error (.unsupportedDigestBits n) ↔ ∀ v : Variant, v.digestLength * 8 ≠ n) :=
  search_iff digestBits_inj rfl

/-- A text with digits for some bits finds what the bits find. -/
theorem ofName_eq_ok_iff_ofDigestBits {s : String} {bits : Nat} (h : Spelling bits s.toList)
    (v : Variant) : ofName s = .ok v ↔ ofDigestBits bits = .ok v := by
  rw [(ofName_iff s).1, (ofDigestBits_iff bits).1]
  constructor
  · intro hv
    exact spelling_inj hv h
  · rintro rfl
    exact h

/-- A name finds a variant just when it spells the variant's name, whose digits are three. There is
    one such variant at most, and the number that the digits denote finds the same. A name that
    spells none is refused as it was given. A number finds the variant with as many bits, and is
    refused if there is none. -/
theorem lookup_by_name_and_bits (s : String) (n : Nat) :
    (∀ v, ofName s = .ok v ↔ v.SpelledBy s.toList) ∧
    (∀ v : Variant, (Nat.toDigits 10 (v.digestLength * 8)).length = 3) ∧
    (∀ v w : Variant, v.SpelledBy s.toList → w.SpelledBy s.toList → v = w) ∧
    (∀ bits, Spelling bits s.toList → ∀ v, ofName s = .ok v ↔
      ofDigestBits (Nat.ofDigitChars 10 (Nat.toDigits 10 bits) 0) = .ok v) ∧
    (ofName s = .error (.unknownVariant s) ↔ ∀ v : Variant, ¬v.SpelledBy s.toList) ∧
    (∀ v, ofDigestBits n = .ok v ↔ n = 8 * v.digestLength) ∧
    (ofDigestBits n = .error (.unsupportedDigestBits n) ↔
      ∀ v : Variant, n ≠ 8 * v.digestLength) := by
  have hcomm (v : Variant) : n = 8 * v.digestLength ↔ v.digestLength * 8 = n := by omega
  simp only [hcomm, ne_eq, Nat.ofDigitChars_ten_toDigits]
  exact ⟨(ofName_iff s).1, length_digits, fun _ _ => spelledBy_inj,
    fun _ => ofName_eq_ok_iff_ofDigestBits, (ofName_iff s).2, (ofDigestBits_iff n).1,
    (ofDigestBits_iff n).2⟩

/-- A wide blank, mixed letters, an underscore and the end of a line. -/
theorem lookup_between_blanks : ofName "\u2003sHa3_384\n" = .ok .sha3_384 ∧
    ofDigestBits 384 = .ok .sha3_384 := by
  have hb : Blanks ['\u2003'] := List.forall_mem_singleton.2 (by decide)
  have ha : Blanks ['\n'] := List.forall_mem_singleton.2 (by decide)
  have hs : Spelling 384 "\u2003sHa3_384\n".toList :=
    @Spelling.intro 384 _ _ 's' 'H' 'a' '_' hb (by decide) (by decide) (by decide) (by decide) ha
  obtain ⟨hname, -, -, hbits, -⟩ := lookup_by_name_and_bits "\u2003sHa3_384\n" 384
  have hv := (hname .sha3_384).2 hs
  exact ⟨hv, (hbits 384 hs .sha3_384).1 hv⟩

end Variant

end Sha3
