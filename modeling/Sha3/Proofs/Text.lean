import Mathlib.Tactic.SplitIfs
import Sha3.Text.Quoted

/-! Texts that end by themselves. The digits of a number end before a character that is no digit,
    and a quoted string ends at its closing quote, wherever the two stand:

        144 for …      →  144  |  for …
        "a\"b" and …   →  a"b  |  and …

    For the string this is so because every escape ends by itself too, and none begins with a
    quote:

        x                             one character, no quote and no backslash
        \"  \\  \0  \t  \r  \n        a backslash and a letter, which is never u
        \u{200b}                      up to the brace, which is no digit

    So a text of this kind tells both what it shows and where it ends: in each lemma `…_append_inj`
    the texts go on as they like, and what follows them is one too. Which characters are written by
    their code point makes no difference to this. -/

namespace Sha3.Text

/-! ### Digits -/

theorem digitChar_inj {m n : Nat} (hm : m < 16) (hn : n < 16)
    (h : Nat.digitChar m = Nat.digitChar n) : m = n := by
  have hall : ∀ i j : Fin 16, Nat.digitChar i = Nat.digitChar j → i = j := by decide
  exact Fin.val_eq_of_eq (hall ⟨m, hm⟩ ⟨n, hn⟩ h)

section
variable {b : Nat} (hb : 1 < b)
include hb

/-- A character that is no digit is none of the digits of a number. -/
theorem notMem_toDigits {c : Char} (hc : ∀ k, Nat.digitChar k ≠ c) (n : Nat) :
    c ∉ Nat.toDigits b n := by
  induction n using Nat.strongRecOn with
  | ind n ih =>
    rcases Nat.lt_or_ge n b with hn | hn
    · rw [Nat.toDigits_of_lt_base hn, List.mem_singleton]
      exact (hc n).symm
    · rw [Nat.toDigits_of_base_le hb hn, List.mem_append, List.mem_singleton]
      rintro (hm | hm)
      · exact ih (n / b) (Nat.div_lt_self (by omega) hb) hm
      · exact hc (n % b) hm.symm

/-- Different numbers have different digits, as far as there are digits for the base. -/
theorem toDigits_inj (hb' : b ≤ 16) {m n : Nat} (h : Nat.toDigits b m = Nat.toDigits b n) :
    m = n := by
  have hmod (k : Nat) : k % b < 16 := Nat.lt_of_lt_of_le (Nat.mod_lt k (by omega)) hb'
  induction m using Nat.strongRecOn generalizing n with
  | ind m ih =>
    rcases Nat.lt_or_ge m b with hm | hm <;> rcases Nat.lt_or_ge n b with hn | hn
    · rw [Nat.toDigits_of_lt_base hm, Nat.toDigits_of_lt_base hn] at h
      exact digitChar_inj (by omega) (by omega) (List.singleton_inj.1 h)
    -- one digit against more
    · rw [Nat.toDigits_of_lt_base hm, Nat.toDigits_of_base_le hb hn] at h
      simp [List.singleton_eq_append_iff] at h
    · rw [Nat.toDigits_of_base_le hb hm, Nat.toDigits_of_lt_base hn] at h
      simp [List.append_eq_singleton_iff] at h
    · rw [Nat.toDigits_of_base_le hb hm, Nat.toDigits_of_base_le hb hn] at h
      obtain ⟨hinit, hlast⟩ := List.append_inj' h rfl
      have hq : m / b = n / b := ih (m / b) (Nat.div_lt_self (by omega) hb) hinit
      have hr : m % b = n % b := digitChar_inj (hmod m) (hmod n) (List.singleton_inj.1 hlast)
      rw [← Nat.div_add_mod m b, hq, hr, Nat.div_add_mod]

end

/-- A text is cut at its first `d` in one way only. -/
theorem append_cons_inj {d : Char} {l m x y : List Char} (hl : d ∉ l) (hm : d ∉ m)
    (h : l ++ d :: x = m ++ d :: y) : l = m ∧ x = y := by
  rcases List.append_eq_append_iff.1 h with ⟨a, rfl, ha⟩ | ⟨a, rfl, ha⟩
  · cases a with
    | nil => simpa using ha
    | cons c a =>
      obtain ⟨rfl, -⟩ := List.cons.inj ha
      exact absurd List.mem_append_cons_self hm
  · cases a with
    | nil => simpa [eq_comm] using ha
    | cons c a =>
      obtain ⟨rfl, -⟩ := List.cons.inj ha
      exact absurd List.mem_append_cons_self hl

theorem toDigits_append_inj {b : Nat} (hb : 1 < b) (hb' : b ≤ 16) {c : Char}
    (hc : ∀ k, Nat.digitChar k ≠ c) {m n : Nat} {x y : List Char}
    (h : Nat.toDigits b m ++ c :: x = Nat.toDigits b n ++ c :: y) : m = n ∧ x = y := by
  obtain ⟨hd, hxy⟩ := append_cons_inj (notMem_toDigits hb hc m) (notMem_toDigits hb hc n) h
  exact ⟨toDigits_inj hb hb' hd, hxy⟩

/-! ### Escapes -/

/-- The characters that have a letter each, and the letters. -/
def letters : List (Char × Char) :=
  [('"', '"'), ('\\', '\\'), ('\x00', '0'), ('\t', 't'), ('\r', 'r'), ('\n', 'n')]

theorem letters_inj : ∀ p ∈ letters, ∀ q ∈ letters, p.2 = q.2 → p.1 = q.1 := by decide

theorem letters_ne_u : ∀ p ∈ letters, p.2 ≠ 'u' := by decide

/-- The forms in which a character can stand between the quotes. -/
inductive Escaped (c : Char) : List Char → Prop where
  | plain : c ≠ '"' → c ≠ '\\' → Escaped c [c]
  | letter {e : Char} : (c, e) ∈ letters → Escaped c ['\\', e]
  | code : Escaped c (codePoint c)

theorem escaped_escape (c : Char) : Escaped c (escape c) := by
  unfold escape
  split_ifs with hquote hbackslash hnul htab hreturn hnewline
  · exact .letter (by simp [letters, hquote])
  · exact .letter (by simp [letters, hbackslash])
  · exact .letter (by simp [letters, hnul])
  · exact .letter (by simp [letters, htab])
  · exact .letter (by simp [letters, hreturn])
  · exact .letter (by simp [letters, hnewline])
  · exact .code
  · exact .plain hquote hbackslash

theorem codePoint_append_inj {c d : Char} {x y : List Char}
    (h : codePoint c ++ x = codePoint d ++ y) : c = d ∧ x = y := by
  have hbrace : ∀ k, Nat.digitChar k ≠ '}' := by simp
  simp only [codePoint, List.append_assoc, List.append_cancel_left_eq, List.singleton_append] at h
  obtain ⟨hcode, hxy⟩ := toDigits_append_inj (by decide) (by decide) hbrace h
  exact ⟨Char.toNat_inj.1 hcode, hxy⟩

namespace Escaped
variable {c d : Char} {l m x y : List Char}

/-- Where an escape stands the quoted string does not end. -/
theorem append_ne_quote (hl : Escaped c l) : l ++ x ≠ '"' :: y := by
  cases hl with
  | plain hquote => simp [hquote]
  | letter => simp
  | code => simp [codePoint]

/-- The first character tells a plain one from the others, and the second a letter from a code
    point. -/
theorem append_inj (hl : Escaped c l) (hm : Escaped d m) (h : l ++ x = m ++ y) : c = d ∧ x = y := by
  cases hl with
  | plain _ hc =>
    cases hm with
    | plain => simpa using h
    | letter => simp [hc] at h
    | code => simp [codePoint, hc] at h
  | @letter e hc =>
    cases hm with
    | plain _ hd => simp [hd.symm] at h
    | @letter e' hd =>
      obtain ⟨he, hxy⟩ : e = e' ∧ x = y := by simpa using h
      exact ⟨letters_inj _ hc _ hd he, hxy⟩
    | code => simp [codePoint, letters_ne_u _ hc] at h
  | code =>
    cases hm with
    | plain _ hd => simp [codePoint, hd.symm] at h
    | letter hd => simp [codePoint, (letters_ne_u _ hd).symm] at h
    | code => exact codePoint_append_inj h

end Escaped

/-! ### Quoted strings -/

theorem flatMap_escape_append_inj : ∀ {s t x y : List Char},
    s.flatMap escape ++ '"' :: x = t.flatMap escape ++ '"' :: y → s = t ∧ x = y
  | [], [], _, _, h => by simpa using h
  | [], d :: t, _, _, h => by
    rw [List.flatMap_cons, List.append_assoc] at h
    exact absurd h.symm (escaped_escape d).append_ne_quote
  | c :: s, [], _, _, h => by
    rw [List.flatMap_cons, List.append_assoc] at h
    exact absurd h (escaped_escape c).append_ne_quote
  | c :: s, d :: t, _, _, h => by
    rw [List.flatMap_cons, List.flatMap_cons, List.append_assoc, List.append_assoc] at h
    obtain ⟨rfl, ht⟩ := (escaped_escape c).append_inj (escaped_escape d) h
    obtain ⟨rfl, hxy⟩ := flatMap_escape_append_inj ht
    exact ⟨rfl, hxy⟩

theorem quote_append_inj {s t : String} {x y : List Char}
    (h : (quote s).toList ++ x = (quote t).toList ++ y) : s = t ∧ x = y := by
  simp only [quote, String.toList_ofList, List.cons_append, List.append_assoc, List.nil_append,
    List.cons.injEq, true_and] at h
  obtain ⟨hst, hxy⟩ := flatMap_escape_append_inj h
  exact ⟨String.toList_inj.1 hst, hxy⟩

end Sha3.Text
