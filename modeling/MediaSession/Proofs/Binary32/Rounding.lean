import MediaSession.Binary32.Basic
import Mathlib.Order.Monotone.Basic
import Mathlib.Tactic.Ring

/-!
# Rounding to the nearest magnitude

A ratio rounds to a magnitude exactly when it lies between the midpoints to the two neighbours; a midpoint itself rounds to
the magnitude of even rank. The stretch in which a ratio is rounded is found from the ratio, not from the magnitude, and
the two differ where a ratio lies just below the first magnitude of a stretch: it is rounded in the stretch before, and
rounds to the end of that one, which has the same rank.
-/

namespace MediaSession.Binary32

/-! ## Steps from rank to rank -/

/-- Every rank is a number of whole stretches and a number of steps. -/
theorem exists_rank_eq (rank : Nat) :
    ∃ e m, rank = e * stretch + m ∧ m < 2 * stretch ∧ (e = 0 ∨ stretch ≤ m) := by
  refine ⟨stepExponent rank, rank - stepExponent rank * stretch, ?_⟩
  simp only [stepExponent, stretch]
  omega

theorem stepExponent_eq {e m : Nat} (hm : m < 2 * stretch) (he : e = 0 ∨ stretch ≤ m) :
    stepExponent (e * stretch + m) = e := by
  simp only [stepExponent, stretch] at hm he ⊢
  omega

/-- The steps of a stretch are counted from zero on. -/
theorem unitsOfRank_eq {e m : Nat} (hm : m < 2 * stretch) (he : e = 0 ∨ stretch ≤ m) :
    unitsOfRank (e * stretch + m) = m * 2 ^ e := by
  rw [unitsOfRank, stepExponent_eq hm he, Nat.add_sub_cancel_left, Nat.shiftLeft_eq]

/-- The next magnitude is one step further. -/
theorem unitsOfRank_succ (rank : Nat) : unitsOfRank (rank + 1) = unitsOfRank rank + 2 ^ stepExponent rank := by
  obtain ⟨e, m, rfl, hm, he⟩ := exists_rank_eq rank
  rw [stepExponent_eq hm he, unitsOfRank_eq hm he]
  by_cases hlast : m + 1 < 2 * stretch
  · rw [Nat.add_assoc, unitsOfRank_eq hlast (he.imp_right Nat.le_succ_of_le)]
    ring
  · -- The last magnitude of a stretch is followed by the first of the next.
    have hnext : e * stretch + m + 1 = (e + 1) * stretch + stretch := by
      rw [Nat.succ_mul]
      omega
    have hm : m + 1 = 2 * stretch := by omega
    rw [hnext, unitsOfRank_eq (by decide) (Or.inr (Nat.le_refl _)), ← Nat.succ_mul, Nat.succ_eq_add_one, hm]
    ring

theorem unitsOfRank_strictMono : StrictMono unitsOfRank := by
  refine strictMono_nat_of_lt_succ fun rank => ?_
  rw [unitsOfRank_succ]
  exact Nat.lt_add_of_pos_right (Nat.two_pow_pos _)

/-- A positive magnitude lies between its two neighbours. -/
theorem unitsOfRank_neighbours {rank : Nat} (hpos : 0 < rank) :
    unitsOfRank (rank - 1) < unitsOfRank rank ∧ unitsOfRank rank < unitsOfRank (rank + 1) :=
  ⟨unitsOfRank_strictMono (Nat.sub_one_lt hpos.ne'), unitsOfRank_strictMono (Nat.lt_succ_self _)⟩

/-! ## Rounding to a natural number -/

/-- A ratio within half of a number rounds to it; one that is half away does when the number is even. -/
theorem roundHalfEven_eq {num den n : Nat} (hlow : 2 * (n * den) ≤ 2 * num + den) (hhigh : 2 * num ≤ 2 * (n * den) + den)
    (hodd : n % 2 = 0 ∨ 2 * (n * den) < 2 * num + den ∧ 2 * num < 2 * (n * den) + den) (hden : 0 < den) :
    roundHalfEven num den = n := by
  have hnum := Nat.div_add_mod' num den
  have hrest := Nat.mod_lt num hden
  simp only [roundHalfEven]
  generalize num / den = q at hnum ⊢
  generalize num % den = r at hnum hrest ⊢
  have hle : q ≤ n := by
    by_contra hlt
    have := Nat.mul_le_mul_right den (Nat.lt_of_not_le hlt)
    rw [Nat.succ_mul] at this
    omega
  have hge : n ≤ q + 1 := by
    by_contra hlt
    have := Nat.mul_le_mul_right den (Nat.lt_of_not_le hlt)
    rw [Nat.succ_mul, Nat.succ_mul] at this
    omega
  obtain rfl | rfl : n = q ∨ n = q + 1 := by omega
  · split
    · rfl
    · split
      · omega
      · omega
  · have hsucc : (q + 1) * den = q * den + den := Nat.succ_mul q den
    rw [hsucc] at hlow hhigh hodd
    split
    · omega
    · split
      · rfl
      · omega

/-! ## Rounding to a rank -/

/-- The ratios that round to the magnitude of a rank: those from the midpoint below it to the midpoint above it, without
the midpoints themselves when the rank is odd. -/
def RoundsTo (rank num den : Nat) : Prop :=
  if rank % 2 = 0 then
    (unitsOfRank (rank - 1) + unitsOfRank rank) * den ≤ 2 * num ∧
      2 * num ≤ (unitsOfRank rank + unitsOfRank (rank + 1)) * den
  else
    (unitsOfRank (rank - 1) + unitsOfRank rank) * den < 2 * num ∧
      2 * num < (unitsOfRank rank + unitsOfRank (rank + 1)) * den

/-- The stretch in which a number is rounded is known from its size. -/
theorem log2_sub_eq {q e : Nat} (hlow : e = 0 ∨ 2 ^ (23 + e) ≤ q) (hhigh : q < 2 ^ (24 + e)) : Nat.log2 q - 23 = e := by
  rcases Nat.eq_zero_or_pos q with rfl | hq
  · rcases hlow with rfl | hlow
    · decide
    · exact absurd hlow (Nat.not_le.2 (Nat.two_pow_pos _))
  · have hlt : Nat.log2 q < 24 + e := (Nat.log2_lt hq.ne').2 hhigh
    rcases hlow with rfl | hlow
    · omega
    · have hle : 23 + e ≤ Nat.log2 q := (Nat.le_log2 hq.ne').2 hlow
      omega

/-- A ratio is rounded in the stretch that its whole part lies in. -/
theorem rankOfRatio_eq {num den e n : Nat} (hlow : e = 0 ∨ 2 ^ (23 + e) ≤ num / den) (hhigh : num / den < 2 ^ (24 + e))
    (hround : roundHalfEven num (den * 2 ^ e) = n) (hle : e * stretch + n ≤ infiniteRank) :
    rankOfRatio num den = e * stretch + n := by
  simp only [rankOfRatio]
  rw [log2_sub_eq hlow hhigh, Nat.shiftLeft_eq, hround, Nat.min_eq_right hle]

/-- The whole part of a ratio is compared with powers of two through the steps of its stretch. -/
theorem two_pow_le_div {num den k e : Nat} (hden : 0 < den) (h : 2 ^ k * (den * 2 ^ e) ≤ num) :
    2 ^ (k + e) ≤ num / den := by
  rw [Nat.le_div_iff_mul_le hden, Nat.pow_add, Nat.mul_assoc, Nat.mul_comm (2 ^ e)]
  exact h

theorem div_lt_two_pow {num den k e : Nat} (hden : 0 < den) (h : num < 2 ^ k * (den * 2 ^ e)) :
    num / den < 2 ^ (k + e) := by
  rw [Nat.div_lt_iff_lt_mul hden, Nat.pow_add, Nat.mul_assoc, Nat.mul_comm (2 ^ e)]
  exact h

/-- A ratio rounds to a magnitude whose neighbours below and above are equally far away. -/
theorem rankOfRatio_of_roundsTo_inside {e k num den : Nat} (hk : k + 1 < 2 * stretch) (he : e = 0 ∨ stretch ≤ k)
    (hfinite : e * stretch + (k + 1) < infiniteRank) (hden : 0 < den) (h : RoundsTo (e * stretch + (k + 1)) num den) :
    rankOfRatio num den = e * stretch + (k + 1) := by
  have hstep : 0 < den * 2 ^ e := Nat.mul_pos hden (Nat.two_pow_pos _)
  have hunits := unitsOfRank_eq (e := e) hk (he.imp_right Nat.le_succ_of_le)
  have hbefore : unitsOfRank (e * stretch + (k + 1) - 1) = k * 2 ^ e := by
    rw [← Nat.add_assoc, Nat.add_sub_cancel, unitsOfRank_eq (Nat.lt_of_succ_lt hk) he]
  have hafter : unitsOfRank (e * stretch + (k + 1) + 1) = (k + 1) * 2 ^ e + 2 ^ e := by
    rw [unitsOfRank_succ, hunits, stepExponent_eq hk (he.imp_right Nat.le_succ_of_le)]
  have hlow : (k * 2 ^ e + (k + 1) * 2 ^ e) * den = 2 * (k * (den * 2 ^ e)) + den * 2 ^ e := by ring
  have hhigh : ((k + 1) * 2 ^ e + ((k + 1) * 2 ^ e + 2 ^ e)) * den = 2 * (k * (den * 2 ^ e)) + 3 * (den * 2 ^ e) := by ring
  have hparity : (e * stretch + (k + 1)) % 2 = (k + 1) % 2 := by
    have hstretch : stretch = 2 * 0x400000 := rfl
    rw [hstretch]
    omega
  rw [RoundsTo, hbefore, hunits, hafter, hlow, hhigh, hparity] at h
  have hfull : k * (den * 2 ^ e) + 2 * (den * 2 ^ e) ≤ 2 * stretch * (den * 2 ^ e) := by
    rw [← Nat.add_mul]
    exact Nat.mul_le_mul_right _ hk
  have hfirst : e ≠ 0 → stretch * (den * 2 ^ e) ≤ k * (den * 2 ^ e) := fun h0 =>
    Nat.mul_le_mul_right _ (he.resolve_left h0)
  have hsucc : (k + 1) * (den * 2 ^ e) = k * (den * 2 ^ e) + den * 2 ^ e := Nat.succ_mul _ _
  have hweak : 2 * (k * (den * 2 ^ e)) + den * 2 ^ e ≤ 2 * num ∧ 2 * num ≤ 2 * (k * (den * 2 ^ e)) + 3 * (den * 2 ^ e) := by
    split at h <;> omega
  refine rankOfRatio_eq ?_ ?_ (roundHalfEven_eq ?_ ?_ ?_ hstep) hfinite.le
  · by_cases h0 : e = 0
    · exact Or.inl h0
    · have := hfirst h0
      exact Or.inr (two_pow_le_div hden (by simp only [stretch] at this; omega))
  · exact div_lt_two_pow hden (by simp only [stretch] at hfull; omega)
  · omega
  · omega
  · split at h
    · rename_i heven
      exact Or.inl heven
    · omega

/-- A ratio rounds to the first magnitude of a stretch, whose neighbour below is nearer than that above: a ratio that is
less than the magnitude is rounded in the stretch before, to its end. -/
theorem rankOfRatio_of_roundsTo_first {e num den : Nat} (hfinite : (e + 1) * stretch + stretch < infiniteRank)
    (hden : 0 < den) (h : RoundsTo ((e + 1) * stretch + stretch) num den) :
    rankOfRatio num den = (e + 1) * stretch + stretch := by
  have hstep : 0 < den * 2 ^ e := Nat.mul_pos hden (Nat.two_pow_pos _)
  have hunits : unitsOfRank ((e + 1) * stretch + stretch) = stretch * 2 ^ (e + 1) :=
    unitsOfRank_eq (by decide) (Or.inr (Nat.le_refl _))
  have hbefore : unitsOfRank ((e + 1) * stretch + stretch - 1) = (2 * stretch - 1) * 2 ^ e := by
    have hrank : (e + 1) * stretch + stretch - 1 = e * stretch + (2 * stretch - 1) := by
      rw [Nat.succ_mul]
      simp only [stretch]
      omega
    rw [hrank, unitsOfRank_eq (by decide) (Or.inr (by decide))]
  have hafter : unitsOfRank ((e + 1) * stretch + stretch + 1) = stretch * 2 ^ (e + 1) + 2 ^ (e + 1) := by
    rw [unitsOfRank_succ, hunits, stepExponent_eq (by decide) (Or.inr (Nat.le_refl _))]
  have hparity : ((e + 1) * stretch + stretch) % 2 = 0 := by
    have hstretch : stretch = 2 * 0x400000 := rfl
    rw [hstretch]
    omega
  have hlow : ((2 * stretch - 1) * 2 ^ e + stretch * 2 ^ (e + 1)) * den = (4 * stretch - 1) * (den * 2 ^ e) := by
    simp only [stretch]
    ring
  have hhigh : (stretch * 2 ^ (e + 1) + (stretch * 2 ^ (e + 1) + 2 ^ (e + 1))) * den =
      (4 * stretch + 2) * (den * 2 ^ e) := by
    ring
  rw [RoundsTo, if_pos hparity, hbefore, hunits, hafter, hlow, hhigh] at h
  simp only [stretch] at h
  by_cases hless : num < 2 * stretch * (den * 2 ^ e)
  · have hend : (e + 1) * stretch + stretch = e * stretch + 2 * stretch := by ring
    rw [hend] at hfinite ⊢
    simp only [stretch] at hless
    refine rankOfRatio_eq (Or.inr (two_pow_le_div hden ?_)) (div_lt_two_pow hden ?_)
      (roundHalfEven_eq ?_ ?_ ?_ hstep) hfinite.le
    · omega
    · omega
    · simp only [stretch]
      omega
    · simp only [stretch]
      omega
    · exact Or.inl (by decide)
  · have hdouble : den * 2 ^ (e + 1) = 2 * (den * 2 ^ e) := by ring
    simp only [stretch] at hless
    refine rankOfRatio_eq (Or.inr (two_pow_le_div hden ?_)) (div_lt_two_pow hden ?_)
      (roundHalfEven_eq ?_ ?_ ?_ (hdouble ▸ Nat.mul_pos Nat.two_pos hstep)) hfinite.le
    · rw [hdouble]
      omega
    · rw [hdouble]
      omega
    · rw [hdouble]
      simp only [stretch]
      omega
    · rw [hdouble]
      simp only [stretch]
      omega
    · exact Or.inl (by decide)

/-- A ratio between the midpoints around a positive finite magnitude rounds to it. -/
theorem rankOfRatio_of_roundsTo {rank num den : Nat} (hpos : 0 < rank) (hfinite : rank < infiniteRank) (hden : 0 < den)
    (h : RoundsTo rank num den) : rankOfRatio num den = rank := by
  obtain ⟨e, m, rfl, hm, he⟩ := exists_rank_eq rank
  by_cases hfirst : e ≠ 0 ∧ m = stretch
  · obtain ⟨e, rfl⟩ := Nat.exists_eq_succ_of_ne_zero hfirst.1
    rw [hfirst.2] at hfinite h ⊢
    exact rankOfRatio_of_roundsTo_first hfinite hden h
  · obtain ⟨k, rfl⟩ : ∃ k, m = k + 1 := Nat.exists_eq_succ_of_ne_zero (by
      rintro rfl
      rcases he with rfl | he
      · simp at hpos
      · exact absurd he (by decide))
    exact rankOfRatio_of_roundsTo_inside hm (by omega) hfinite hden h

/-- A magnitude rounds to itself. -/
theorem rankOfRatio_unitsOfRank {rank : Nat} (hfinite : rank < infiniteRank) : rankOfRatio (unitsOfRank rank) 1 = rank := by
  rcases Nat.eq_zero_or_pos rank with rfl | hpos
  · decide
  · obtain ⟨hbelow, habove⟩ := unitsOfRank_neighbours hpos
    refine rankOfRatio_of_roundsTo hpos hfinite Nat.one_pos ?_
    rw [RoundsTo]
    split <;> constructor <;> omega

end MediaSession.Binary32
