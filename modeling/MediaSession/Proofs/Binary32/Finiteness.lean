import MediaSession.Proofs.Binary32.Rounding

/-!
# Where numbers become infinite

A ratio rounds to infinity from the midpoint on between the largest finite magnitude and the one that would follow it:
that magnitude has the even rank (`rankOfRatio_lt_infiniteRank_iff`). So the difference of two finite numbers that are not
below zero is finite, and a whole number of 32 bits added to a finite one does not reach the midpoint.
-/

namespace MediaSession.Binary32

/-! ## Bounds of rounding -/

theorem div_le_roundHalfEven (num den : Nat) : num / den ≤ roundHalfEven num den := by
  simp only [roundHalfEven]
  split
  · exact Nat.le_refl _
  · split
    · exact Nat.le_succ _
    · exact Nat.le_add_right _ _

/-- What is nearer to a number than to the next one rounds to at most this number. -/
theorem roundHalfEven_le {num den n : Nat} (hden : 0 < den) (h : 2 * num < (2 * n + 1) * den) :
    roundHalfEven num den ≤ n := by
  have hnum := Nat.div_add_mod' num den
  have hrest := Nat.mod_lt num hden
  have hn : (2 * n + 1) * den = 2 * (n * den) + den := by ring
  simp only [roundHalfEven]
  generalize num / den = q at hnum ⊢
  generalize num % den = r at hnum hrest ⊢
  have hle : q ≤ n := by
    by_contra hlt
    have := Nat.mul_le_mul_right den (Nat.lt_of_not_le hlt)
    rw [Nat.succ_mul] at this
    omega
  rcases Nat.lt_or_eq_of_le hle with hlt | rfl
  · split
    · omega
    · split <;> omega
  · split
    · exact Nat.le_refl _
    · omega

/-- What is at least as near to the number after an odd one rounds to at least that number. -/
theorem lt_roundHalfEven {num den n : Nat} (hden : 0 < den) (hodd : n % 2 = 1) (h : (2 * n + 1) * den ≤ 2 * num) :
    n < roundHalfEven num den := by
  have hnum := Nat.div_add_mod' num den
  have hrest := Nat.mod_lt num hden
  have hn : (2 * n + 1) * den = 2 * (n * den) + den := by ring
  simp only [roundHalfEven]
  generalize num / den = q at hnum ⊢
  generalize num % den = r at hnum hrest ⊢
  have hge : n ≤ q := by
    by_contra hlt
    have := Nat.mul_le_mul_right den (Nat.lt_of_not_le hlt)
    rw [Nat.succ_mul] at this
    omega
  rcases Nat.lt_or_eq_of_le hge with hlt | rfl
  · split
    · omega
    · split <;> omega
  · split
    · omega
    · split <;> omega

/-! ## The stretch of a ratio -/

/-- A number is less than the end of the stretch that its size gives. -/
theorem lt_end_of_stretch (q : Nat) : q < 2 ^ 24 * 2 ^ (Nat.log2 q - 23) := by
  rcases Nat.eq_zero_or_pos q with rfl | hq
  · decide
  · have hlt : q < 2 ^ (Nat.log2 q + 1) := (Nat.log2_lt hq.ne').1 (Nat.lt_succ_self _)
    rw [← Nat.pow_add]
    exact Nat.lt_of_lt_of_le hlt (Nat.pow_le_pow_right (by decide) (by omega))

/-- A number is in no later stretch than one whose end is above it. -/
theorem log2_sub_le {q k : Nat} (h : q < 2 ^ 24 * 2 ^ k) : Nat.log2 q - 23 ≤ k := by
  rcases Nat.eq_zero_or_pos q with rfl | hq
  · exact Nat.zero_le _
  · rw [← Nat.pow_add, ← Nat.log2_lt hq.ne'] at h
    omega

/-- A number is in no earlier stretch than one whose beginning is not above it. -/
theorem add_le_log2 {q j k : Nat} (h : 2 ^ j * 2 ^ k ≤ q) : j + k ≤ Nat.log2 q := by
  rw [← Nat.pow_add] at h
  exact (Nat.le_log2 (Nat.lt_of_lt_of_le (Nat.two_pow_pos _) h).ne').2 h

/-- Within its stretch a ratio rounds to at most the end of the stretch. -/
theorem roundHalfEven_stretch_le (num : Nat) {den : Nat} (hden : 0 < den) :
    roundHalfEven num (den <<< (Nat.log2 (num / den) - 23)) ≤ 2 * stretch := by
  have hlt := lt_end_of_stretch (num / den)
  generalize Nat.log2 (num / den) - 23 = d at hlt ⊢
  have hstep : 0 < den * 2 ^ d := Nat.mul_pos hden (Nat.two_pow_pos _)
  rw [Nat.div_lt_iff_lt_mul hden, Nat.mul_assoc, Nat.mul_comm (2 ^ d)] at hlt
  rw [Nat.shiftLeft_eq]
  refine roundHalfEven_le hstep ?_
  simp only [stretch]
  omega

/-- Rounding does not go beyond the end of a stretch that is above the ratio. -/
theorem unitsOfRank_rankOfRatio_le {num den k : Nat} (hden : 0 < den) (h : num / den < 2 ^ 24 * 2 ^ k) :
    unitsOfRank (rankOfRatio num den) ≤ 2 ^ 24 * 2 ^ k := by
  have hround := roundHalfEven_stretch_le num hden
  have hd := log2_sub_le h
  have hend : (k + 1) * stretch + stretch = k * stretch + 2 * stretch := by ring
  have hrank : rankOfRatio num den ≤ (k + 1) * stretch + stretch := by
    rw [hend]
    exact Nat.le_trans (Nat.min_le_right _ _) (Nat.add_le_add (Nat.mul_le_mul_right _ hd) hround)
  have hunits : unitsOfRank ((k + 1) * stretch + stretch) = 2 ^ 24 * 2 ^ k := by
    have hstretch : 2 ^ 24 = stretch * 2 := rfl
    rw [unitsOfRank_eq (by decide) (Or.inr (Nat.le_refl _)), hstretch, Nat.pow_succ, Nat.mul_assoc, Nat.mul_comm 2]
  exact hunits ▸ unitsOfRank_strictMono.monotone hrank

/-! ## From here on infinite -/

/-- The midpoint between the largest finite magnitude and the one that would follow it, in units. -/
def infiniteUnits : Nat := (2 ^ 25 - 1) * 2 ^ 252

/-- A ratio below the midpoint rounds to a finite magnitude. -/
theorem rankOfRatio_lt_infiniteRank {num den : Nat} (hden : 0 < den) (h : num < infiniteUnits * den) :
    rankOfRatio num den < infiniteRank := by
  have hsize : num / den < 2 ^ 24 * 2 ^ 253 := by
    rw [Nat.div_lt_iff_lt_mul hden]
    exact Nat.lt_of_lt_of_le h (Nat.mul_le_mul_right den (by decide))
  have hd := log2_sub_le hsize
  have hround := roundHalfEven_stretch_le num hden
  refine Nat.lt_of_le_of_lt (Nat.min_le_right _ _) ?_
  generalize Nat.log2 (num / den) - 23 = d at hd hround ⊢
  rcases Nat.lt_or_eq_of_le hd with hless | rfl
  · simp only [infiniteRank, stretch] at hround ⊢
    omega
  · -- In the last stretch the midpoint is what would round up to its end.
    have hlast : roundHalfEven num (den * 2 ^ 253) ≤ 2 ^ 24 - 1 := by
      refine roundHalfEven_le (Nat.mul_pos hden (Nat.two_pow_pos _)) ?_
      simp only [infiniteUnits] at h
      omega
    rw [Nat.shiftLeft_eq]
    simp only [infiniteRank, stretch]
    omega

/-- A ratio from the midpoint on rounds to infinity. -/
theorem rankOfRatio_eq_infiniteRank {num den : Nat} (hden : 0 < den) (h : infiniteUnits * den ≤ num) :
    rankOfRatio num den = infiniteRank := by
  have hsize : 2 ^ 23 * 2 ^ 253 ≤ num / den := by
    rw [Nat.le_div_iff_mul_le hden]
    exact Nat.le_trans (Nat.mul_le_mul_right den (by decide)) h
  have hpos : num / den ≠ 0 := (Nat.lt_of_lt_of_le (by decide) hsize).ne'
  have hlog := add_le_log2 hsize
  refine Nat.min_eq_left ?_
  obtain ⟨d, hd⟩ : ∃ d, Nat.log2 (num / den) = 23 + d := ⟨Nat.log2 (num / den) - 23, by omega⟩
  have hlow : 2 ^ (23 + d) ≤ num / den := hd ▸ Nat.log2_self_le hpos
  rw [hd, Nat.add_sub_cancel_left, Nat.shiftLeft_eq]
  have hstep : 0 < den * 2 ^ d := Nat.mul_pos hden (Nat.two_pow_pos _)
  rcases Nat.lt_or_eq_of_le (show 253 ≤ d by omega) with hmore | rfl
  · have hfirst : stretch ≤ num / (den * 2 ^ d) := by
      rw [Nat.le_div_iff_mul_le hden, Nat.pow_add, Nat.mul_assoc, Nat.mul_comm (2 ^ d)] at hlow
      rw [Nat.le_div_iff_mul_le hstep]
      exact hlow
    have hround := Nat.le_trans hfirst (div_le_roundHalfEven num (den * 2 ^ d))
    have hwhole := Nat.mul_le_mul_right stretch hmore
    simp only [infiniteRank]
    omega
  · have hround : 2 ^ 24 - 1 < roundHalfEven num (den * 2 ^ 253) := by
      refine lt_roundHalfEven hstep (by decide) ?_
      simp only [infiniteUnits] at h
      omega
    simp only [infiniteRank, stretch]
    omega

/-- A ratio rounds to a finite magnitude exactly when it is below the midpoint. -/
theorem rankOfRatio_lt_infiniteRank_iff {num den : Nat} (hden : 0 < den) :
    rankOfRatio num den < infiniteRank ↔ num < infiniteUnits * den := by
  constructor
  · intro h
    by_contra hge
    exact h.ne (rankOfRatio_eq_infiniteRank hden (Nat.le_of_not_lt hge))
  · exact rankOfRatio_lt_infiniteRank hden

namespace Magnitude

theorem isInfinite_eq_false_iff {a : Magnitude} : a.isInfinite = false ↔ a.rank < infiniteRank := by
  have hle := a.rank_le
  simp only [isInfinite, beq_eq_false_iff_ne]
  omega

/-- The largest finite magnitude is half a step below the midpoint. -/
theorem units_lt {a : Magnitude} (h : a.isInfinite = false) : a.units + 2 ^ 252 ≤ infiniteUnits := by
  have hlast : unitsOfRank (infiniteRank - 1) + 2 ^ 252 = infiniteUnits := by
    have hrank : infiniteRank - 1 = 253 * stretch + (2 * stretch - 1) := rfl
    rw [hrank, unitsOfRank_eq (by decide) (Or.inr (by decide))]
    decide
  rw [← hlast]
  have hrank : a.rank ≤ infiniteRank - 1 := Nat.le_sub_one_of_lt (isInfinite_eq_false_iff.1 h)
  exact Nat.add_le_add_right (unitsOfRank_strictMono.monotone hrank) _

/-- A whole number of units below the midpoint rounds to a finite magnitude. -/
theorem isInfinite_ofRatio_one {n : Nat} (h : n < infiniteUnits) : (ofRatio n 1).isInfinite = false :=
  isInfinite_eq_false_iff.2 (rankOfRatio_lt_infiniteRank Nat.one_pos (by omega))

end Magnitude

/-- The difference of finite numbers that are not below zero is finite. -/
theorem isFinite_sub {a b : Magnitude} (ha : a.isInfinite = false) (hb : b.isInfinite = false) :
    (signed false a - signed false b).isFinite = true := by
  have hua := Magnitude.units_lt ha
  have hub := Magnitude.units_lt hb
  have hsub : signed false a - signed false b = addUnits false a.units true b.units := by
    show add (signed false a) (signed true b) = _
    simp [add, ha, hb]
  rw [hsub, addUnits, if_neg Bool.false_ne_true]
  split
  · have hfinite := Magnitude.isInfinite_ofRatio_one (show a.units - b.units < infiniteUnits by omega)
    simp [ofRatio, isFinite, hfinite]
  · split
    · have hfinite := Magnitude.isInfinite_ofRatio_one (show b.units - a.units < infiniteUnits by omega)
      simp [ofRatio, isFinite, hfinite]
    · rfl

/-- A whole number of 32 bits added to a number that is not below zero is finite exactly when the number is. -/
theorem exists_ofNat_add_eq {n : Nat} (hn : n < UInt32.size) (b : Magnitude) :
    ∃ c : Magnitude, ofNat n + signed false b = signed false c ∧ c.isInfinite = b.isInfinite := by
  have hsize : (n <<< 149) / 1 < 2 ^ 24 * 2 ^ 157 := by
    simp only [UInt32.size] at hn
    rw [Nat.div_one, Nat.shiftLeft_eq]
    omega
  have hwhole : (Magnitude.ofRatio (n <<< 149) 1).units ≤ 2 ^ 24 * 2 ^ 157 := unitsOfRank_rankOfRatio_le Nat.one_pos hsize
  have hfinite : (Magnitude.ofRatio (n <<< 149) 1).isInfinite = false :=
    Magnitude.isInfinite_ofRatio_one (by simp only [infiniteUnits]; omega)
  cases hb : b.isInfinite with
  | true =>
    refine ⟨b, ?_, hb⟩
    show add (signed false _) (signed false b) = _
    simp [add, hfinite, hb]
  | false =>
    have hub := Magnitude.units_lt hb
    refine ⟨.ofRatio ((Magnitude.ofRatio (n <<< 149) 1).units + b.units) 1, ?_, ?_⟩
    · show add (signed false _) (signed false b) = _
      simp [add, hfinite, hb, addUnits, ofRatio]
    · exact Magnitude.isInfinite_ofRatio_one (by omega)

end MediaSession.Binary32
