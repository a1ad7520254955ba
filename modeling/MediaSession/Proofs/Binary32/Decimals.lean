import MediaSession.Binary32.Reading
import MediaSession.Binary32.Shortest
import MediaSession.Proofs.Binary32.Rounding
import MediaSession.Proofs.Text.Pieces

/-!
# Numbers that are written and read again

The search for a shortest decimal always ends, because the finest grid has a point between the midpoints around any
magnitude. The decimal that is found rounds to the magnitude it was found for, and reading its text takes it apart into the
same digits and the same place. So every number is read back from its text, and so are both zeros, both infinities and the
value that is no number.
-/

namespace MediaSession.Binary32

/-! ## The search for a decimal -/

namespace Decimal

/-- The numerator of the decimal in units of `2 ^ -149`. -/
def num (d : Decimal) : Nat := (d.digits * Nat.pow 10 d.place.toNat) <<< 149

/-- The denominator of the decimal. -/
def den (d : Decimal) : Nat := Nat.pow 10 (-d.place).toNat

end Decimal

/-- A grid point in halves of a unit is twice the decimal in units. -/
theorem mul_shiftLeft_succ (n power k : Nat) : n * power <<< (k + 1) = 2 * (n * power) <<< k := by
  rw [Nat.shiftLeft_succ, Nat.shiftLeft_eq, Nat.shiftLeft_eq]
  ring

/-- A point of a grid that is taken for a magnitude rounds to it. -/
theorem roundsTo_of_gridPoint? {rank : Nat} {place : Int} {d : Decimal} (h : gridPoint? rank place = some d) :
    d.place = place ∧ RoundsTo rank d.num d.den := by
  unfold gridPoint? at h
  extract_lets scale step low value high rounds below at h
  have hrounds : ∀ n, rounds n = true → RoundsTo rank (Decimal.num ⟨n, place⟩) (Decimal.den ⟨n, place⟩) := by
    intro n hn
    have hnum : n * step = 2 * Decimal.num ⟨n, place⟩ := mul_shiftLeft_succ n _ 149
    simp only [rounds, hnum] at hn
    split at hn
    · rename_i heven
      rw [Bool.and_eq_true, decide_eq_true_eq, decide_eq_true_eq] at hn
      rw [RoundsTo, if_pos heven]
      exact hn
    · rename_i hodd
      rw [Bool.and_eq_true, decide_eq_true_eq, decide_eq_true_eq] at hn
      rw [RoundsTo, if_neg hodd]
      exact hn
  clear_value rounds
  split at h
  · rename_i hbelow
    obtain rfl := Option.some.inj h
    exact ⟨rfl, hrounds _ (Bool.and_eq_true _ _ ▸ hbelow).1⟩
  · split at h
    · rename_i habove
      obtain rfl := Option.some.inj h
      exact ⟨rfl, hrounds _ habove⟩
    · cases h

/-- The finest grid of the search has a point for every positive finite magnitude: its points are closer to each other
than a magnitude is to the midpoint below it. -/
theorem isSome_gridPoint?_finest {rank : Nat} (hpos : 0 < rank) : (gridPoint? rank (-60)).isSome := by
  unfold gridPoint?
  extract_lets scale step low value high rounds below
  obtain ⟨hbelow, habove⟩ := unitsOfRank_neighbours hpos
  have hfine : step < scale := by decide
  have hlow : low + scale ≤ value := by
    have hle := Nat.mul_le_mul_right scale (show unitsOfRank (rank - 1) + unitsOfRank rank + 1 ≤ 2 * unitsOfRank rank by omega)
    rwa [Nat.succ_mul] at hle
  have hhigh : value < high :=
    Nat.mul_lt_mul_of_pos_right (show 2 * unitsOfRank rank < unitsOfRank rank + unitsOfRank (rank + 1) by omega)
      (Nat.zero_lt_of_lt hfine)
  have hpoint : below * step + value % step = value := Nat.div_add_mod' value step
  have hrest := Nat.mod_lt value (show 0 < step by decide)
  have hrounds : rounds below = true := by
    have hlt : low < below * step ∧ below * step < high := by
      constructor <;> omega
    simp only [rounds]
    split
    · simpa only [Bool.and_eq_true, decide_eq_true_eq] using ⟨hlt.1.le, hlt.2.le⟩
    · simpa only [Bool.and_eq_true, decide_eq_true_eq] using hlt
  clear_value rounds
  rw [hrounds]
  cases hnext : rounds (below + 1) with
  | false => rfl
  | true =>
    simp only [Bool.not_true, Bool.true_and, Bool.false_or, if_true]
    split <;> rfl

/-- Every positive finite magnitude has a shortest decimal, and this rounds to it. -/
theorem exists_shortest?_eq_some {rank : Nat} (hpos : 0 < rank) :
    ∃ d, shortest? rank = some d ∧ RoundsTo rank d.num d.den := by
  have hsome : (shortest? rank).isSome := by
    rw [shortest?, List.findSome?_isSome_iff]
    exact ⟨98, by decide, isSome_gridPoint?_finest hpos⟩
  obtain ⟨d, hd⟩ := Option.isSome_iff_exists.1 hsome
  obtain ⟨i, -, hi⟩ := List.exists_of_findSome?_eq_some hd
  exact ⟨d, hd, (roundsTo_of_gridPoint? hi).2⟩

/-! ## Decimals in a text -/

/-- Digits alone are read as their value. -/
theorem readDigits?_of_forall {t : Text} (hne : t ≠ []) (ht : ∀ c ∈ t, c.isDigit = true) :
    readDigits? t = some (.ofDecimal (Nat.ofDigitChars 10 t 0) t.length 0) := by
  have htake : t.takeWhile Char.isDigit = t := List.takeWhile_eq_self_iff.2 ht
  have hdrop : t.dropWhile Char.isDigit = [] := List.dropWhile_eq_nil_iff.2 ht
  simp only [readDigits?, htake, hdrop, List.append_nil]
  simp [hne, readExponent?]

/-- Digits with a point among them are read as the value of all digits, as many places down as there are after the
point. -/
theorem readDigits?_point {whole fraction : Text} (hne : whole ≠ []) (hw : ∀ c ∈ whole, c.isDigit = true)
    (hf : ∀ c ∈ fraction, c.isDigit = true) :
    readDigits? (whole ++ '.' :: fraction) =
      some (.ofDecimal (Nat.ofDigitChars 10 (whole ++ fraction) 0) (whole ++ fraction).length (-fraction.length)) := by
  have hpoint : ¬ Char.isDigit '.' = true := by decide
  have htake : (whole ++ '.' :: fraction).takeWhile Char.isDigit = whole := by
    rw [List.takeWhile_append_of_pos hw, List.takeWhile_cons_of_neg hpoint, List.append_nil]
  have hdrop : (whole ++ '.' :: fraction).dropWhile Char.isDigit = '.' :: fraction := by
    rw [List.dropWhile_append_of_pos hw, List.dropWhile_cons_of_neg hpoint]
  have htake' : fraction.takeWhile Char.isDigit = fraction := List.takeWhile_eq_self_iff.2 hf
  have hdrop' : fraction.dropWhile Char.isDigit = [] := List.dropWhile_eq_nil_iff.2 hf
  simp only [readDigits?, htake, hdrop, htake', hdrop']
  simp [hne, readExponent?]

/-- A decimal within the range of exponents is rounded as it is. -/
theorem Magnitude.ofDecimal_eq {digits count : Nat} {exponent : Int} (hdigits : digits ≠ 0) (hhigh : exponent < 39)
    (hlow : -46 < count + exponent) :
    ofDecimal digits count exponent =
      .ofRatio ((digits * Nat.pow 10 exponent.toNat) <<< 149) (Nat.pow 10 (-exponent).toNat) := by
  rw [ofDecimal, if_neg hdigits, if_neg (by omega), if_neg (by omega)]

namespace Decimal

theorem isDigit_of_mem_zeros {k : Nat} {c : Char} (h : c ∈ List.replicate k '0') : c.isDigit = true := by
  rw [List.eq_of_mem_replicate h]
  rfl

/-- A numeral with zeros before it is made of digits. -/
theorem isDigit_of_mem_padded {n k : Nat} {c : Char} (h : c ∈ List.replicate k '0' ++ Text.ofNat n) :
    c.isDigit = true := by
  rcases List.mem_append.1 h with h | h
  · exact isDigit_of_mem_zeros h
  · exact Text.isDigit_of_mem_ofNat h

/-- A numeral with zeros after it is made of digits. -/
theorem isDigit_of_mem_shifted {n k : Nat} {c : Char} (h : c ∈ Text.ofNat n ++ List.replicate k '0') :
    c.isDigit = true := by
  rcases List.mem_append.1 h with h | h
  · exact Text.isDigit_of_mem_ofNat h
  · exact isDigit_of_mem_zeros h

/-- The text of a decimal that is not zero is read as the decimal. -/
theorem readDigits?_write {d : Decimal} (h : d.digits ≠ 0) : readDigits? d.write = some (.ofRatio d.num d.den) := by
  have hvalue : Nat.ofDigitChars 10 (Text.ofNat d.digits) 0 = d.digits := Nat.ofDigitChars_toDigits (by decide) (by decide)
  by_cases hplace : 0 ≤ d.place
  · -- The digits are followed by zeros, so the number that is read is whole.
    have hdigits : ∀ c ∈ Text.ofNat d.digits ++ List.replicate d.place.toNat '0', c.isDigit = true :=
      fun _ hc => isDigit_of_mem_shifted hc
    have hshift : Nat.ofDigitChars 10 (Text.ofNat d.digits ++ List.replicate d.place.toNat '0') 0 =
        d.digits * Nat.pow 10 d.place.toNat := by
      rw [Nat.ofDigitChars_append, hvalue, Nat.ofDigitChars_replicate_zero, Nat.mul_comm]
      rfl
    have hne : d.digits * Nat.pow 10 d.place.toNat ≠ 0 := Nat.mul_ne_zero h (Nat.pow_pos (by decide)).ne'
    have hone : ∀ n : Nat, n * Nat.pow 10 (Int.toNat 0) = n := Nat.mul_one
    have hden : d.den = Nat.pow 10 (Int.toNat (-0)) := by
      have hzero : (-d.place).toNat = Int.toNat (-0) := by omega
      rw [den, hzero]
    rw [write, if_pos hplace, readDigits?_of_forall (by simp [Text.ofNat_ne_nil]) hdigits, hshift,
      Magnitude.ofDecimal_eq hne (by decide) (by omega), hone, hden]
    rfl
  · -- There are as many digits after the point as the place is down, and at least one before it.
    obtain ⟨places, hplaces, hpos⟩ : ∃ places : Nat, d.place = -places ∧ 0 < places := ⟨(-d.place).toNat, by omega, by omega⟩
    have htoNat : (-d.place).toNat = places := by omega
    rw [write, if_neg hplace, htoNat]
    extract_lets digits padded
    have hlength : places + 1 ≤ padded.length := by
      simp only [padded, List.length_append, List.length_replicate]
      omega
    have hmem : ∀ c ∈ padded, c.isDigit = true := fun _ hc => isDigit_of_mem_padded hc
    have hread : Nat.ofDigitChars 10 padded 0 = d.digits := by
      simp only [padded, digits, Nat.ofDigitChars_append, Nat.ofDigitChars_replicate_zero, Nat.mul_zero, hvalue]
    have hfraction : (padded.drop (padded.length - places)).length = places := by
      rw [List.length_drop]
      omega
    have hwhole : padded.take (padded.length - places) ≠ [] := by
      rw [← List.length_pos_iff, List.length_take]
      omega
    rw [readDigits?_point hwhole (fun c hc => hmem c (List.mem_of_mem_take hc))
      (fun c hc => hmem c (List.mem_of_mem_drop hc)), List.take_append_drop, hfraction, hread,
      Magnitude.ofDecimal_eq h (by omega) (by omega), ← hplaces]
    rfl

/-- A decimal is written in digits and a point. -/
theorem isDigit_or_eq_of_mem_write {d : Decimal} {c : Char} (h : c ∈ d.write) : c.isDigit = true ∨ c = '.' := by
  simp only [write] at h
  split at h
  · exact Or.inl (isDigit_of_mem_shifted h)
  · rcases List.mem_append.1 h with h | h
    · exact Or.inl (isDigit_of_mem_padded (List.mem_of_mem_take h))
    · rcases List.mem_cons.1 h with h | h
      · exact Or.inr h
      · exact Or.inl (isDigit_of_mem_padded (List.mem_of_mem_drop h))

end Decimal

/-! ## Numbers in a text -/

/-- A magnitude is known by its rank. -/
theorem Magnitude.eq_of_rank_eq {a b : Magnitude} (h : a.rank = b.rank) : a = b := by
  obtain ⟨r, hr⟩ := a
  obtain ⟨q, hq⟩ := b
  obtain rfl : r = q := h
  rfl

/-- A positive finite magnitude is written as a decimal that rounds to it. -/
theorem Magnitude.exists_write_eq {a : Magnitude} (hpos : 0 < a.rank) (hfinite : a.rank < infiniteRank) :
    ∃ d : Decimal, a.write = d.write ∧ d.digits ≠ 0 ∧ .ofRatio d.num d.den = a := by
  obtain ⟨d, hd, hrounds⟩ := exists_shortest?_eq_some hpos
  have hden : 0 < d.den := Nat.pow_pos (by decide)
  refine ⟨d, ?_, ?_, ?_⟩
  · have hinfinite : a.isInfinite = false := beq_eq_false_iff_ne.2 hfinite.ne
    rw [write, hinfinite, if_neg Bool.false_ne_true, if_neg hpos.ne', hd]
    rfl
  · intro hzero
    have hnum : d.num = 0 := by
      unfold Decimal.num
      rw [hzero, Nat.zero_mul, Nat.zero_shiftLeft]
    have hlow : 0 < (unitsOfRank (a.rank - 1) + unitsOfRank a.rank) * d.den := by
      refine Nat.mul_pos (Nat.add_pos_right _ ?_) hden
      exact Nat.zero_lt_of_lt (unitsOfRank_strictMono hpos)
    rw [RoundsTo, hnum] at hrounds
    split at hrounds <;> omega
  · exact eq_of_rank_eq (rankOfRatio_of_roundsTo hpos hfinite hden hrounds)

/-- A magnitude is written in digits, points and the letters of the word for infinity. -/
theorem Magnitude.mem_write {a : Magnitude} {c : Char} (h : c ∈ a.write) : c.isDigit = true ∨ c ∈ ".inf".toList := by
  unfold write at h
  split at h
  · exact Or.inr ((by decide : "inf".toList ⊆ ".inf".toList) h)
  · split at h
    · rw [List.mem_singleton.1 h]
      exact Or.inl rfl
    · cases hd : shortest? a.rank with
      | none =>
        rw [hd] at h
        rw [List.mem_singleton.1 h]
        exact Or.inl rfl
      | some d =>
        rw [hd] at h
        rcases Decimal.isDigit_or_eq_of_mem_write h with hdigit | rfl
        · exact Or.inl hdigit
        · exact Or.inr (by decide)

/-- A finite magnitude is read back from its text. -/
theorem Magnitude.readDigits?_write {a : Magnitude} (h : a.rank < infiniteRank) : readDigits? a.write = some a := by
  rcases Nat.eq_zero_or_pos a.rank with hzero | hpos
  · obtain rfl : a = .zero := eq_of_rank_eq hzero
    decide
  · obtain ⟨d, hwrite, hdigits, hround⟩ := exists_write_eq hpos h
    rw [hwrite, Decimal.readDigits?_write hdigits, hround]

/-- The text of a magnitude has no sign. -/
theorem Magnitude.cutSign_write (negative : Bool) (a : Magnitude) :
    cutSign ((if negative then ['-'] else []) ++ a.write) = (negative, a.write) := by
  cases negative with
  | true => rfl
  | false =>
    cases hw : a.write with
    | nil => rfl
    | cons c t =>
      have hc : c ≠ '-' ∧ c ≠ '+' := by
        rcases mem_write (hw ▸ List.mem_cons_self) with hdigit | hletter
        · constructor
          · rintro rfl
            cases hdigit
          · rintro rfl
            cases hdigit
        · exact ⟨ne_of_mem_of_not_mem hletter (by decide), ne_of_mem_of_not_mem hletter (by decide)⟩
      simp [cutSign, hc]

/-- Every number is read back from its text. -/
theorem read?_write (x : Binary32) : read? x.write = some x := by
  cases x with
  | nan => decide
  | signed negative a =>
    simp only [read?, write, Magnitude.cutSign_write]
    rcases Nat.lt_or_eq_of_le a.rank_le with hfinite | hinfinite
    · rw [Magnitude.readDigits?_write hfinite]
    · obtain rfl : a = .infinite := Magnitude.eq_of_rank_eq hinfinite
      cases negative <;> rfl

/-- A number is written in digits, a sign, a point and the letters of the words for infinity and for no number. -/
theorem mem_write {x : Binary32} {c : Char} (h : c ∈ x.write) : c.isDigit = true ∨ c ∈ "-.infNaN".toList := by
  cases x with
  | nan => exact Or.inr ((by decide : "NaN".toList ⊆ "-.infNaN".toList) h)
  | signed negative a =>
    rcases List.mem_append.1 h with h | h
    · cases negative with
      | false => cases h
      | true =>
        rw [List.mem_singleton.1 h]
        exact Or.inr (by decide)
    · rcases Magnitude.mem_write h with hdigit | hletter
      · exact Or.inl hdigit
      · exact Or.inr ((by decide : ".inf".toList ⊆ "-.infNaN".toList) hletter)

theorem notMem_write {c : Char} (hdigit : c.isDigit = false) (hletter : c ∉ "-.infNaN".toList) (x : Binary32) :
    c ∉ x.write := by
  intro h
  rcases mem_write h with h | h
  · rw [hdigit] at h
    cases h
  · exact hletter h

/-- The text of a number is a single word. -/
theorem write_word (x : Binary32) : x.write ≠ [] ∧ ∀ c ∈ x.write, Text.isBlank c = false := by
  constructor
  · intro h
    have hread := read?_write x
    rw [h] at hread
    cases hread
  · intro c hc
    rcases mem_write hc with hdigit | hletter
    · exact Text.isBlank_eq_false_of_isDigit hdigit
    · exact Text.isBlank_eq_false_of_all (by decide) c hletter

/-! ## Differences from zero -/

/-- A number less zero is the number itself, with its sign. -/
theorem sub_zero (x : Binary32) : x - zero = x := by
  cases x with
  | nan => rfl
  | signed negative a =>
    have hself : a.rank < infiniteRank → Magnitude.ofRatio a.units 1 = a := fun h =>
      Magnitude.eq_of_rank_eq (rankOfRatio_unitsOfRank h)
    have hunits : a.units = 0 → a = .zero := by
      intro h
      refine Magnitude.eq_of_rank_eq (Nat.eq_zero_of_not_pos fun hpos => ?_)
      have hlt : unitsOfRank 0 < unitsOfRank a.rank := unitsOfRank_strictMono hpos
      exact absurd h (Nat.ne_zero_of_lt hlt)
    have hzero : Magnitude.zero.isInfinite = false ∧ Magnitude.zero.units = 0 := by decide
    have hdiff : signed negative a - zero = add (.signed negative a) (.signed true .zero) := rfl
    rw [hdiff]
    simp only [add, hzero, Bool.false_and, Bool.false_eq_true, if_false]
    split
    · rfl
    · rename_i hfinite
      have hlt : a.rank < infiniteRank := lt_of_le_of_ne a.rank_le fun heq => hfinite (beq_iff_eq.2 heq)
      cases negative with
      | true => simp only [addUnits, ofRatio, Nat.add_zero, if_true, hself hlt]
      | false =>
        rcases Nat.eq_zero_or_pos a.units with hzero | hpos
        · rw [hunits hzero]
          decide
        · simp only [addUnits, ofRatio, Nat.sub_zero, hpos, if_true, hself hlt, Bool.false_eq_true, if_false]

end MediaSession.Binary32
