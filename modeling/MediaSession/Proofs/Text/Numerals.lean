import MediaSession.Text.Numeral
import MediaSession.Proofs.Text.Pieces

/-!
# What numerals denote

The grammar of numerals, apart from the function that reads them: digits denote a number by themselves (`Text.Denotes`), and a
numeral is digits after at most one plus sign (`Text.IsNumeral`). A text is read as a number exactly when it is a numeral of
that number (`Text.readNat?_eq_some_iff`), and as a number of 16 bits when the number also fits.
-/

namespace MediaSession.Text

/-- The number that one or more decimal digits denote. There may be zeros before the others. -/
inductive Denotes : Text → Nat → Prop where
  | digit {d : Nat} (hd : d < 10) : Denotes [Nat.digitChar d] d
  | snoc {t : Text} {n d : Nat} (ht : Denotes t n) (hd : d < 10) : Denotes (t ++ [Nat.digitChar d]) (10 * n + d)

/-- A numeral of a number: digits that denote it, with or without one plus sign before them. -/
inductive IsNumeral : Text → Nat → Prop where
  | unsigned {t : Text} {n : Nat} (ht : Denotes t n) : IsNumeral t n
  | signed {t : Text} {n : Nat} (ht : Denotes t n) : IsNumeral ('+' :: t) n

/-- A numeral of a number with any blanks around it. -/
def IsPaddedNumeral (t : Text) (n : Nat) : Prop :=
  ∃ before numeral after, (∀ c ∈ before, isBlank c = true) ∧ (∀ c ∈ after, isBlank c = true) ∧ IsNumeral numeral n ∧
    t = before ++ numeral ++ after

/-- A digit is the character of the number that it denotes. -/
theorem digitChar_of_isDigit {c : Char} (h : c.isDigit = true) :
    c.toNat - '0'.toNat < 10 ∧ Nat.digitChar (c.toNat - '0'.toNat) = c := by
  obtain ⟨hlow, hhigh⟩ := Char.isDigit_iff_toNat.1 h
  have h0 : '0'.toNat = 48 := rfl
  have h9 : '9'.toNat = 57 := rfl
  have hlt : c.toNat - '0'.toNat < 10 := by omega
  refine ⟨hlt, Char.toNat_inj.1 ?_⟩
  rw [Nat.toNat_digitChar_of_lt_ten hlt]
  omega

/-- The value of digits grows by one digit at the end. -/
theorem ofDigitChars_concat (t : Text) (c : Char) :
    Nat.ofDigitChars 10 (t ++ [c]) 0 = 10 * Nat.ofDigitChars 10 t 0 + (c.toNat - '0'.toNat) := by
  rw [Nat.ofDigitChars_append, Nat.ofDigitChars_cons, Nat.ofDigitChars_nil]

theorem toNat_digitChar_sub {d : Nat} (hd : d < 10) : (Nat.digitChar d).toNat - '0'.toNat = d := by
  have h0 : '0'.toNat = 48 := rfl
  rw [Nat.toNat_digitChar_of_lt_ten hd]
  omega

/-- Digits denote their value and nothing else. -/
theorem denotes_iff {t : Text} {n : Nat} :
    Denotes t n ↔ t ≠ [] ∧ (∀ c ∈ t, c.isDigit = true) ∧ Nat.ofDigitChars 10 t 0 = n := by
  constructor
  · intro h
    induction h with
    | digit hd =>
      refine ⟨List.cons_ne_nil _ _, ?_, ?_⟩
      · simpa [Nat.isDigit_digitChar] using hd
      · rw [Nat.ofDigitChars_cons, Nat.ofDigitChars_nil, toNat_digitChar_sub hd, Nat.mul_zero, Nat.zero_add]
    | @snoc t n d ht hd ih =>
      obtain ⟨-, hdigits, hvalue⟩ := ih
      refine ⟨by simp, ?_, ?_⟩
      · intro c hc
        rcases List.mem_append.1 hc with hc | hc
        · exact hdigits c hc
        · rw [List.mem_singleton.1 hc, Nat.isDigit_digitChar]
          exact decide_eq_true hd
      · rw [ofDigitChars_concat, hvalue, toNat_digitChar_sub hd]
  · rintro ⟨hne, hdigits, rfl⟩
    induction t using List.reverseRecOn with
    | nil => exact absurd rfl hne
    | append_singleton t c ih =>
      obtain ⟨hlt, hchar⟩ := digitChar_of_isDigit (hdigits c (by simp))
      rw [ofDigitChars_concat]
      by_cases hnil : t = []
      · subst hnil
        have hone := Denotes.digit hlt
        rw [hchar] at hone
        simpa using hone
      · have hmore := (ih hnil fun d hd => hdigits d (List.mem_append_left _ hd)).snoc hlt
        rwa [hchar] at hmore

/-- What stands in digits is a digit. -/
theorem Denotes.isDigit {t : Text} {n : Nat} (h : Denotes t n) {c : Char} (hc : c ∈ t) : c.isDigit = true :=
  (denotes_iff.1 h).2.1 c hc

/-- A plus sign at the beginning does not count, and digits do not begin with one. -/
theorem isNumeral_iff {t : Text} {n : Nat} : IsNumeral t n ↔ Denotes (dropPlus t) n := by
  constructor
  · intro h
    cases h with
    | unsigned ht =>
      rwa [dropPlus_eq_self]
      intro hplus
      have hdigit := ht.isDigit (List.mem_of_mem_head? hplus)
      cases hdigit
    | signed ht => exact ht
  · intro h
    unfold dropPlus at h
    split at h
    · exact .signed h
    · exact .unsigned h

/-- A text is read as a number exactly when it is a numeral of that number. -/
theorem readNat?_eq_some_iff {t : Text} {n : Nat} : readNat? t = some n ↔ IsNumeral t n := by
  rw [isNumeral_iff, denotes_iff]
  simp only [readNat?, Option.ite_none_right_eq_some, Option.some.injEq, Bool.and_eq_true, Bool.not_eq_true',
    List.isEmpty_eq_false_iff, List.all_eq_true, and_assoc]

/-- A text is read as a number of 16 bits exactly when it is a numeral of that number: however many digits there are, no
number is cut to its size. -/
theorem readUInt16?_eq_some_iff {t : Text} {n : UInt16} : readUInt16? t = some n ↔ IsNumeral t n.toNat := by
  rw [← readNat?_eq_some_iff, readUInt16?, readBelow?]
  constructor
  · intro h
    obtain ⟨k, hk, rfl⟩ := Option.map_eq_some_iff.1 h
    obtain ⟨hread, hlt⟩ := Option.filter_eq_some_iff.1 hk
    rw [hread, UInt16.toNat_ofNat_of_lt' (by simpa using hlt)]
  · intro h
    rw [h, Option.filter_some, if_pos (by simpa using n.toNat_lt_size), Option.map_some, UInt16.ofNat_toNat]

/-- What stands in a numeral is a digit, or the plus sign. -/
theorem IsNumeral.eq_plus_or_isDigit {t : Text} {n : Nat} (h : IsNumeral t n) {c : Char} (hc : c ∈ t) :
    c = '+' ∨ c.isDigit = true := by
  cases h with
  | unsigned ht => exact Or.inr (ht.isDigit hc)
  | signed ht =>
    rcases List.mem_cons.1 hc with rfl | hc
    · exact Or.inl rfl
    · exact Or.inr (ht.isDigit hc)

theorem IsNumeral.isBlank_eq_false {t : Text} {n : Nat} (h : IsNumeral t n) {c : Char} (hc : c ∈ t) : isBlank c = false := by
  rcases h.eq_plus_or_isDigit hc with rfl | hdigit
  · decide
  · exact isBlank_eq_false_of_isDigit hdigit

theorem IsNumeral.hyphen_notMem {t : Text} {n : Nat} (h : IsNumeral t n) : '-' ∉ t := by
  intro hm
  rcases h.eq_plus_or_isDigit hm with hplus | hdigit
  · cases hplus
  · cases hdigit

/-- A trimmed text is read as a number of 16 bits exactly when the text is a numeral of it with blanks around. -/
theorem readUInt16?_trim_eq_some_iff {t : Text} {n : UInt16} :
    readUInt16? (trim t) = some n ↔ t.IsPaddedNumeral n.toNat := by
  rw [readUInt16?_eq_some_iff]
  constructor
  · intro h
    obtain ⟨before, after, hbefore, hafter, heq⟩ := exists_blanks_around t
    exact ⟨before, trim t, after, hbefore, hafter, h, heq⟩
  · rintro ⟨before, numeral, after, hbefore, hafter, hnumeral, rfl⟩
    rwa [trim_blanks_around hbefore hafter fun _ hc => hnumeral.isBlank_eq_false hc]

/-- A hyphen is not part of a numeral or of the blanks around it. -/
theorem IsPaddedNumeral.hyphen_notMem {t : Text} {n : Nat} (h : t.IsPaddedNumeral n) : '-' ∉ t := by
  obtain ⟨before, numeral, after, hbefore, hafter, hnumeral, rfl⟩ := h
  intro hm
  rcases List.mem_append.1 hm with hm | hm
  · rcases List.mem_append.1 hm with hm | hm
    · exact absurd (hbefore _ hm) (by decide)
    · exact hnumeral.hyphen_notMem hm
  · exact absurd (hafter _ hm) (by decide)

end MediaSession.Text
