import MediaSession.Ports.Range
import MediaSession.Proofs.Text.Numerals

/-!
# Ranges as texts

What texts write a range of ports: two numerals with a hyphen between them, blanks wherever they do not part a numeral, and the
smaller number first. A numeral holds no hyphen, so the first hyphen of the text is the one between them, and blanks around the
text are blanks around one of the numerals. From this it follows that a range is read from its texts and from no other.
-/

namespace MediaSession.PortRange

variable {text : Text} {r : PortRange}

/-- A text that writes a range. -/
structure IsWrittenAs (r : PortRange) (text : Text) : Prop where
  exists_bounds : ∃ lower upper : Text, text = lower ++ '-' :: upper ∧ lower.IsPaddedNumeral r.min.toNat ∧
    upper.IsPaddedNumeral r.max.toNat
  min_le_max : r.min ≤ r.max

/-- Without a hyphen there is nothing to read. -/
theorem read_of_notMem (h : '-' ∉ text) : read text = .error (.invalidPortRange text) := by
  have hcut : Text.cut? '-' (Text.trim text) = none := Text.cut?_eq_none_iff.2 fun hm => h (Text.mem_of_mem_trim hm)
  rw [read, hcut]

/-- With one, the numbers are read from the two sides of the first. -/
theorem read_append_cons_eq_ok_iff {lower : Text} (h : '-' ∉ lower) (upper : Text) :
    read (lower ++ '-' :: upper) = .ok r ↔ Text.readUInt16? (Text.trim lower) = some r.min ∧
      Text.readUInt16? (Text.trim upper) = some r.max ∧ r.min ≤ r.max := by
  rw [read, Text.cut?_trim (by decide) h]
  simp only [Text.trim_trimStart, Text.trim_trimEnd]
  cases Text.readUInt16? (Text.trim lower) with
  | none => simp
  | some min =>
    cases Text.readUInt16? (Text.trim upper) with
    | none => simp
    | some max =>
      obtain ⟨rmin, rmax⟩ := r
      by_cases hlt : max < min
      · simp only [if_pos hlt, Option.some.injEq, reduceCtorEq, false_iff]
        rintro ⟨rfl, rfl, hle⟩
        exact UInt16.not_lt.2 hle hlt
      · simp only [if_neg hlt, Except.ok.injEq, mk.injEq, Option.some.injEq]
        constructor
        · rintro ⟨rfl, rfl⟩
          exact ⟨rfl, rfl, UInt16.not_lt.1 hlt⟩
        · rintro ⟨rfl, rfl, -⟩
          exact ⟨rfl, rfl⟩

/-- A text that is refused is in the message. -/
theorem eq_of_read_eq_error {e : Error} (h : read text = .error e) : e = .invalidPortRange text := by
  unfold read at h
  split at h
  · exact (Except.error.inj h).symm
  · split at h
    · split at h
      · exact (Except.error.inj h).symm
      · cases h
    · exact (Except.error.inj h).symm

/-- A range is read from a text exactly when the text writes it. -/
theorem read_eq_ok_iff : read text = .ok r ↔ r.IsWrittenAs text := by
  constructor
  · intro h
    cases hcut : Text.cut? '-' text with
    | none =>
      rw [read_of_notMem (Text.cut?_eq_none_iff.1 hcut)] at h
      cases h
    | some sides =>
      obtain ⟨lower, upper⟩ := sides
      obtain ⟨hlower, rfl⟩ := Text.eq_of_cut? hcut
      obtain ⟨hmin, hmax, hle⟩ := (read_append_cons_eq_ok_iff hlower upper).1 h
      exact ⟨⟨lower, upper, rfl, Text.readUInt16?_trim_eq_some_iff.1 hmin, Text.readUInt16?_trim_eq_some_iff.1 hmax⟩, hle⟩
  · rintro ⟨⟨lower, upper, rfl, hmin, hmax⟩, hle⟩
    rw [read_append_cons_eq_ok_iff hmin.hyphen_notMem, Text.readUInt16?_trim_eq_some_iff, Text.readUInt16?_trim_eq_some_iff]
    exact ⟨hmin, hmax, hle⟩

/-- Numbers are written as numerals. -/
theorem isPaddedNumeral_ofNat (n : Nat) : (Text.ofNat n).IsPaddedNumeral n :=
  ⟨[], Text.ofNat n, [], by simp, by simp, Text.readNat?_eq_some_iff.1 (Text.readNat?_ofNat n), by simp⟩

/-- So the text of a range writes it. -/
theorem isWrittenAs_write (h : r.min ≤ r.max) : r.IsWrittenAs r.write :=
  ⟨⟨_, _, rfl, isPaddedNumeral_ofNat _, isPaddedNumeral_ofNat _⟩, h⟩

/-- What a configuration gives for a text that writes a range. -/
theorem ofSettings_of_isWrittenAs {settings : Settings} (hset : settings key = some text) (h : r.IsWrittenAs text) :
    ofSettings settings =
      if 36 ≤ (r.max.toNat : Int) - r.min.toNat + 1 then .ok r else .error (.portRangeTooNarrow r.min r.max) := by
  have hspan : minPortSpan = 36 := rfl
  have hwide : r.isWide = true ↔ 36 ≤ (r.max.toNat : Int) - r.min.toNat + 1 := by
    rw [isWide, decide_eq_true_iff]
    omega
  rw [ofSettings_eq, hset, Option.elim_some, read_eq_ok_iff.2 h, Except.bind, validate]
  simp only [← hwide]
  split <;> rfl

/-- Texts of ranges are read exactly, in three parts.
1. A range is read from a text exactly when the text writes it.
2. A text that writes no range is refused, and the message holds that text.
3. The text of a range gives the range back, and in a configuration it gives the range or, when that has fewer than 36 ports,
   the message with its two ends. -/
theorem read_text_exactly :
    (∀ (text : Text) (r : PortRange), read text = .ok r ↔ r.IsWrittenAs text) ∧
    (∀ text : Text, (∀ r : PortRange, ¬ r.IsWrittenAs text) → read text = .error (.invalidPortRange text)) ∧
    ∀ r : PortRange, r.min ≤ r.max → read r.write = .ok r ∧ ∀ settings : Settings, settings key = some r.write →
      ofSettings settings =
        if 36 ≤ (r.max.toNat : Int) - r.min.toNat + 1 then .ok r else .error (.portRangeTooNarrow r.min r.max) := by
  refine ⟨fun text r => read_eq_ok_iff, fun text hnone => ?_, fun r hle => ?_⟩
  · cases h : read text with
    | ok r => exact absurd (read_eq_ok_iff.1 h) (hnone r)
    | error e => rw [eq_of_read_eq_error h]
  · have hwritten : r.IsWrittenAs r.write := isWrittenAs_write hle
    exact ⟨read_eq_ok_iff.2 hwritten, fun settings hset => ofSettings_of_isWrittenAs hset hwritten⟩

/-- A range of 35 ports is read from a text with blanks, plus signs and zeros, which is not how it is written; in a
configuration it is too narrow. -/
theorem read_text_exactly_of_narrow :
    IsWrittenAs ⟨7, 41⟩ "\u3000+07 -\t+00041 ".toList ∧ write ⟨7, 41⟩ = "7-41".toList ∧
      ofSettings (fun _ => some (write ⟨7, 41⟩)) = .error (.portRangeTooNarrow 7 41) ∧
      read "7-65536".toList = .error (.invalidPortRange "7-65536".toList) := by
  obtain ⟨hread, hrefused, hwritten⟩ := read_text_exactly
  refine ⟨(hread _ _).1 (by decide +kernel), by decide, (hwritten ⟨7, 41⟩ (by decide)).2 _ rfl, hrefused _ fun r hr => ?_⟩
  have hnone : read "7-65536".toList = .error (.invalidPortRange "7-65536".toList) := by decide +kernel
  rw [(hread _ r).2 hr] at hnone
  cases hnone

end MediaSession.PortRange
