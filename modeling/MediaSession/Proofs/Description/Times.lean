import MediaSession.Proofs.Binary32.Finiteness
import MediaSession.Proofs.Description.EncodingFold
import MediaSession.Proofs.Description.RoundTrip

/-!
# Times of the grammar

A time of the grammar is digits with an optional fraction, or hours, minutes and seconds of which the seconds are such a
number. It is finite exactly when the digits before the point are below `secondsLimit`
(`TimeRange.readTime?_of_isTime`). So a range of such times gives a track finite times, and its title a range line that is
open or ends in a plain positive decimal (`Session.times_finite`). Numbers are read by more than the grammar, and a range
with a word for infinity or for no number, or with too many digits, gives times that are not finite
(`Session.exists_times_not_finite`).
-/

namespace MediaSession

namespace TimeRange

/-- One or more digits. -/
def Digits (t : Text) : Prop := t ≠ [] ∧ ∀ c ∈ t, c.isDigit = true

instance (t : Text) : Decidable (Digits t) :=
  decidable_of_iff (t ≠ [] ∧ t.all Char.isDigit = true) (by rw [Digits, List.all_eq_true])

/-- Seconds: digits, and a point with further digits after it or not. -/
def IsSeconds (whole t : Text) : Prop :=
  Digits whole ∧ (t = whole ∨ ∃ fraction, (∀ c ∈ fraction, c.isDigit = true) ∧ t = whole ++ '.' :: fraction)

/-- A time of the grammar, with the digits before the point of its seconds. -/
inductive IsTime (whole : Text) : Text → Prop where
  | seconds {t : Text} : IsSeconds whole t → IsTime whole t
  | clock {hours minutes seconds : Text} : Digits hours → Digits minutes → IsSeconds whole seconds →
      IsTime whole (hours ++ ':' :: (minutes ++ ':' :: seconds))

/-- From here on seconds round to infinity, `2 ^ 128 - 2 ^ 103`. -/
def secondsLimit : Nat := (2 ^ 25 - 1) * 2 ^ 103

/-! ## Digits -/

/-- The value of digits has no more digits. -/
theorem ofDigitChars_lt {t : Text} (h : ∀ c ∈ t, c.isDigit = true) : Nat.ofDigitChars 10 t 0 < 10 ^ t.length := by
  induction t using List.reverseRecOn with
  | nil => decide
  | append_singleton t c ih =>
    have hrest := ih fun d hd => h d (List.mem_append_left _ hd)
    obtain ⟨hlow, hhigh⟩ := Char.isDigit_iff_toNat.1 (h c (by simp))
    have h0 : '0'.toNat = 48 := rfl
    have h9 : '9'.toNat = 57 := rfl
    rw [Nat.ofDigitChars_append, List.length_append, List.length_singleton, Nat.pow_succ, Nat.ofDigitChars_cons,
      Nat.ofDigitChars_nil]
    omega

/-- A text that begins with digits has no sign. -/
theorem cutSign_of_digits {t : Text} (h : Digits t) (rest : Text) : Binary32.cutSign (t ++ rest) = (false, t ++ rest) := by
  obtain ⟨c, t, rfl⟩ := List.exists_cons_of_ne_nil h.1
  have hc := h.2 c List.mem_cons_self
  have hminus : c ≠ '-' := by
    rintro rfl
    cases hc
  have hplus : c ≠ '+' := by
    rintro rfl
    cases hc
  simp [Binary32.cutSign, hminus, hplus]

/-- Digits that stand `places` places down are finite exactly when their whole part is below the limit. -/
theorem isInfinite_ofDecimal {whole fraction : Text} (hfraction : ∀ c ∈ fraction, c.isDigit = true) :
    (Binary32.Magnitude.ofDecimal (Nat.ofDigitChars 10 (whole ++ fraction) 0) (whole ++ fraction).length
        (-fraction.length)).isInfinite = false ↔
      Nat.ofDigitChars 10 whole 0 < secondsLimit := by
  have hlt := ofDigitChars_lt hfraction
  have hvalue : Nat.ofDigitChars 10 (whole ++ fraction) 0 =
      Nat.ofDigitChars 10 whole 0 * 10 ^ fraction.length + Nat.ofDigitChars 10 fraction 0 := by
    rw [Nat.ofDigitChars_append, Nat.ofDigitChars_eq_ofDigitChars_zero, Nat.mul_comm]
  have hpos : 0 < 10 ^ fraction.length := Nat.pow_pos (by decide)
  generalize Nat.ofDigitChars 10 whole 0 = w at hvalue ⊢
  generalize Nat.ofDigitChars 10 fraction 0 = f at hlt hvalue
  rw [hvalue]
  by_cases hzero : w * 10 ^ fraction.length + f = 0
  · have hw : w = 0 := by
      rcases Nat.eq_zero_or_pos w with hw | hw
      · exact hw
      · have := Nat.mul_pos hw hpos
        omega
    rw [hzero, hw, Binary32.Magnitude.ofDecimal, if_pos rfl]
    decide
  · have hplaces : (- -(fraction.length : Int)).toNat = fraction.length := by omega
    have hshift : (-(fraction.length : Int)).toNat = 0 := by omega
    rw [Binary32.Magnitude.ofDecimal_eq hzero (by omega) (by rw [List.length_append]; omega), hplaces, hshift,
      Binary32.Magnitude.isInfinite_eq_false_iff]
    refine (Binary32.rankOfRatio_lt_infiniteRank_iff hpos).trans ?_
    have hunits : Binary32.infiniteUnits * 10 ^ fraction.length = secondsLimit * 10 ^ fraction.length * 2 ^ 149 := by
      have hlimit : Binary32.infiniteUnits = secondsLimit * 2 ^ 149 := by decide
      rw [hlimit]
      ring
    have hone : (w * 10 ^ fraction.length + f) * Nat.pow 10 0 = w * 10 ^ fraction.length + f := Nat.mul_one _
    have hwhole : (w * 10 ^ fraction.length + f) / 10 ^ fraction.length = w := by
      rw [Nat.mul_comm, Nat.mul_add_div hpos, Nat.div_eq_of_lt hlt, Nat.add_zero]
    rw [Nat.shiftLeft_eq, hunits, hone, Nat.mul_lt_mul_right (Nat.two_pow_pos 149), ← Nat.div_lt_iff_lt_mul hpos, hwhole]

/-- Seconds are read, and finite exactly when their whole part is below the limit. -/
theorem read?_of_isSeconds {whole t : Text} (h : IsSeconds whole t) :
    ∃ a : Binary32.Magnitude, Binary32.read? t = some (.signed false a) ∧
      (a.isInfinite = false ↔ Nat.ofDigitChars 10 whole 0 < secondsLimit) := by
  -- Without a point the fraction is empty, and the exponent is zero either way.
  have hread : ∃ fraction, (∀ c ∈ fraction, c.isDigit = true) ∧ Binary32.readDigits? t =
      some (.ofDecimal (Nat.ofDigitChars 10 (whole ++ fraction) 0) (whole ++ fraction).length (-fraction.length)) := by
    obtain ⟨⟨hne, hwhole⟩, rfl | ⟨fraction, hfraction, rfl⟩⟩ := h
    · refine ⟨[], fun _ hc => absurd hc List.not_mem_nil, ?_⟩
      rw [List.append_nil]
      exact Binary32.readDigits?_of_forall hne hwhole
    · exact ⟨fraction, hfraction, Binary32.readDigits?_point hne hwhole hfraction⟩
  have hsign : Binary32.cutSign t = (false, t) := by
    obtain ⟨hwhole, rfl | ⟨fraction, -, rfl⟩⟩ := h
    · simpa using cutSign_of_digits hwhole []
    · exact cutSign_of_digits hwhole _
  obtain ⟨fraction, hfraction, hdigits⟩ := hread
  refine ⟨_, ?_, isInfinite_ofDecimal hfraction⟩
  rw [Binary32.read?, hsign]
  simp only [hdigits]

/-! ## Times -/

theorem notMem_of_digits {t : Text} (h : ∀ c ∈ t, c.isDigit = true) {mark : Char} (hm : mark.isDigit = false) :
    mark ∉ t := by
  intro hmem
  rw [h mark hmem] at hm
  cases hm

/-- Seconds hold no colon. -/
theorem colon_notMem_of_isSeconds {whole t : Text} (h : IsSeconds whole t) : ':' ∉ t := by
  obtain ⟨⟨-, hwhole⟩, rfl | ⟨fraction, hfraction, rfl⟩⟩ := h
  · exact notMem_of_digits hwhole (by decide)
  · simp [notMem_of_digits hwhole (show ':'.isDigit = false by decide),
      notMem_of_digits hfraction (show ':'.isDigit = false by decide)]

/-- A time of the grammar that is read is not below zero, and finite exactly when its seconds are below the limit: whole
hours and minutes are too few to matter. -/
theorem readTime?_of_isTime {whole t : Text} (h : IsTime whole t) {x : Binary32} (hx : readTime? t = some x) :
    ∃ a : Binary32.Magnitude, x = .signed false a ∧
      (a.isInfinite = false ↔ Nat.ofDigitChars 10 whole 0 < secondsLimit) := by
  cases h with
  | seconds hseconds =>
    obtain ⟨a, ha, hfinite⟩ := read?_of_isSeconds hseconds
    rw [readTime?, List.splitOn_eq_singleton (colon_notMem_of_isSeconds hseconds)] at hx
    exact ⟨a, (Option.some.inj (ha.symm.trans hx)).symm, hfinite⟩
  | @clock hours minutes seconds hhours hminutes hseconds =>
    obtain ⟨a, ha, hfinite⟩ := read?_of_isSeconds hseconds
    have hpieces : (hours ++ ':' :: (minutes ++ ':' :: seconds)).splitOn ':' = [hours, minutes, seconds] := by
      rw [List.splitOn_append_cons_self_of_not_mem (notMem_of_digits hhours.2 (by decide)),
        List.splitOn_append_cons_self_of_not_mem (notMem_of_digits hminutes.2 (by decide)),
        List.splitOn_eq_singleton (colon_notMem_of_isSeconds hseconds)]
    rw [readTime?, hpieces] at hx
    simp only [readClock?, ha, Option.bind_some] at hx
    obtain ⟨m, -, hx⟩ := Option.bind_eq_some_iff.1 hx
    obtain ⟨h, -, hx⟩ := Option.bind_eq_some_iff.1 hx
    obtain ⟨n, hn, rfl⟩ := Option.map_eq_some_iff.1 hx
    have hsize : n < UInt32.size := by
      simp only [wholeSeconds?] at hn
      split at hn
      · rename_i hlt
        exact Option.some.inj hn ▸ hlt
      · cases hn
    obtain ⟨c, hc, hsame⟩ := Binary32.exists_ofNat_add_eq hsize a
    exact ⟨c, hc, hsame ▸ hfinite⟩

/-! ## Ranges -/

/-- The start and the end of a range as they are written. -/
def times (value : Text) : List Text :=
  let times := ((Text.cut? '=' value).getD ([], [])).2
  let (start, stop) := (Text.cut? '-' times).getD (times, [])
  [Text.trim start, (Text.words stop).headD []]

/-- A time that stands for zero, because it is left out or now, or one of the grammar that is below the limit. -/
def IsFiniteTime (t : Text) : Prop :=
  t = [] ∨ t = "now".toList ∨ ∃ whole, IsTime whole t ∧ Nat.ofDigitChars 10 whole 0 < secondsLimit

/-- The times of a range that is read are read. -/
theorem readTime?_of_read? {value : Text} {r : TimeRange} (h : read? value = some r) :
    ∃ start stop, times value = [start, stop] ∧
      (r.start = .zero ∨ readTime? start = some r.start) ∧ (r.stop = .zero ∨ readTime? stop = some r.stop) := by
  obtain ⟨⟨unit, written⟩, hcut, h⟩ := Option.bind_eq_some_iff.1 h
  simp only at h
  split at h
  · cases h
  · obtain ⟨start, hstart, h⟩ := Option.bind_eq_some_iff.1 h
    obtain ⟨stop, hstop, rfl⟩ := Option.map_eq_some_iff.1 h
    refine ⟨_, _, by rw [times, hcut], ?_, ?_⟩
    · simp only [readStart?] at hstart
      split at hstart
      · cases hstart
      · split at hstart
        · exact Or.inl (Option.some.inj hstart).symm
        · exact Or.inr hstart
    · simp only [readStop?] at hstop
      split at hstop
      · exact Or.inl (Option.some.inj hstop).symm
      · rename_i hwords
        rw [Option.getD_some, hwords]
        exact Or.inr hstop

/-- A time that is read as one that is finite. -/
theorem exists_magnitude_of_isFiniteTime {t : Text} (h : IsFiniteTime t) {x : Binary32}
    (hx : x = .zero ∨ readTime? t = some x) :
    ∃ a : Binary32.Magnitude, x = .signed false a ∧ a.isInfinite = false := by
  rcases hx with rfl | hx
  · exact ⟨.zero, rfl, by decide⟩
  · rcases h with rfl | rfl | ⟨whole, htime, hlt⟩
    · cases hx
    · have hnow : readTime? "now".toList = none := by decide
      rw [hnow] at hx
      cases hx
    · obtain ⟨a, rfl, hfinite⟩ := readTime?_of_isTime htime hx
      exact ⟨a, rfl, hfinite.2 hlt⟩

end TimeRange

/-! ## Positive numbers -/

namespace Binary32

/-- A number above zero. -/
def IsPositive (x : Binary32) : Prop := ∃ a : Magnitude, x = .signed false a ∧ 0 < a.rank

/-- A finite number that is not zero or less is above zero. -/
theorem isPositive_of_isFinite {x : Binary32} (hfinite : x.isFinite = true) (h : x.isNonpositive = false) :
    x.IsPositive := by
  cases x with
  | nan => cases hfinite
  | signed negative a =>
    simp only [isNonpositive, Bool.or_eq_false_iff, beq_eq_false_iff_ne] at h
    exact ⟨a, by rw [h.1], Nat.pos_of_ne_zero h.2⟩

/-- A decimal is written as digits with a fraction or without. -/
theorem Decimal.exists_isSeconds_write (d : Decimal) : ∃ whole, TimeRange.IsSeconds whole d.write := by
  rw [write]
  split
  · exact ⟨_, ⟨by simp [Text.ofNat_ne_nil], fun _ hc => isDigit_of_mem_shifted hc⟩, Or.inl rfl⟩
  · extract_lets places padded
    have hlength : places + 1 ≤ padded.length := by
      simp only [padded, List.length_append, List.length_replicate]
      omega
    have hwhole : padded.take (padded.length - places) ≠ [] := by
      rw [← List.length_pos_iff, List.length_take]
      omega
    exact ⟨_, ⟨hwhole, fun _ hc => isDigit_of_mem_padded (List.mem_of_mem_take hc)⟩,
      Or.inr ⟨_, fun _ hc => isDigit_of_mem_padded (List.mem_of_mem_drop hc), rfl⟩⟩

/-- A finite number above zero is written as a plain decimal. -/
theorem exists_isSeconds_write {x : Binary32} (hfinite : x.isFinite = true) (hpos : x.IsPositive) :
    ∃ whole, TimeRange.IsSeconds whole x.write := by
  obtain ⟨a, rfl, ha⟩ := hpos
  have hrank : a.rank < infiniteRank := Magnitude.isInfinite_eq_false_iff.1 (by simpa [isFinite] using hfinite)
  obtain ⟨d, hwrite, -⟩ := Magnitude.exists_write_eq ha hrank
  rw [write, hwrite]
  exact d.exists_isSeconds_write

end Binary32

/-! ## The times of a track -/

namespace Track

/-- The start, the end and the length of a track. -/
def span (t : Track) : Binary32 × Binary32 × Binary32 := (t.start, t.stop, t.duration)

theorem span_addLines (t : Track) (lines : List Line) : (t.addLines lines).span = t.span := by
  induction lines generalizing t with
  | nil => rfl
  | cons line rest ih =>
    refine (ih (t.addLine line)).trans ?_
    cases line <;> rfl

theorem span_applyRtpmap (t : Track) (value : Text) : (t.applyRtpmap value).span = t.span := by
  unfold applyRtpmap
  split <;> rfl

theorem span_applyFormat (t : Track) (value : Text) : (t.applyFormat value).span = t.span := rfl

theorem span_winnow {apply : Track → Text → Track} (h : ∀ t value, (apply t value).span = t.span) (name : Text)
    (t : Track) : (t.winnow name apply).span = t.span :=
  winnowFrom_invariant h name t t.attributes

/-- What the encodings, the control address and the rate of a track are does not change its times or its ranges. -/
theorem span_resolve (source : RateSource Id) (t : Track) :
    (Id.run (t.resolve source)).span = t.resolveRange.span ∧
      (Id.run (t.resolve source)).valueOf? "range".toList = t.valueOf? "range".toList := by
  have hencoding : ∀ u : Track, u.resolveEncoding.span = u.span ∧
      u.resolveEncoding.valuesOf "range".toList = u.valuesOf "range".toList := by
    intro u
    unfold resolveEncoding
    split
    · exact ⟨rfl, rfl⟩
    · constructor
      · exact (span_winnow span_applyFormat _ _).trans (span_winnow span_applyRtpmap _ _)
      · rw [valuesOf_winnow_of_ne (by decide), valuesOf_winnow_of_ne (by decide)]
  obtain ⟨hspan, hvalues⟩ := hencoding t.resolveRange
  obtain ⟨start, stop, duration, hrange⟩ := t.exists_resolveRange_eq
  have hsame : t.resolveRange.valuesOf "range".toList = t.valuesOf "range".toList := by
    rw [hrange]
    rfl
  rw [resolve_eq, resolveAttributes, resolveControl_eq]
  exact ⟨hspan, congrArg List.head? (hvalues.trans hsame)⟩

/-- The times of a track are those of its first range, or zero when there is none or it cannot be read. -/
def statedSpan (t : Track) : Binary32 × Binary32 × Binary32 :=
  ((t.valueOf? "range".toList).bind TimeRange.read?).elim (.zero, .zero, .zero) fun r => (r.start, r.stop, r.duration)

/-- A track without times has those of its range after it has been resolved. -/
theorem span_resolve_eq_statedSpan (source : RateSource Id) {t : Track} (ht : t.span = (.zero, .zero, .zero)) :
    (Id.run (t.resolve source)).span = (Id.run (t.resolve source)).statedSpan := by
  obtain ⟨hspan, hvalue⟩ := span_resolve source t
  rw [hspan, statedSpan, hvalue, resolveRange]
  split
  · rename_i hread
    rw [hread]
    rfl
  · rename_i hread
    rw [hread]
    exact ht

end Track

namespace Session

/-- Every track of a description has the times of its first range. -/
theorem span_of_mem_read {text : Text} {t : Track} (ht : t ∈ (read text).tracks) : t.span = t.statedSpan := by
  rw [tracks_read, tracksWith_eq] at ht
  obtain ⟨raw, hraw, rfl⟩ := List.mem_map.1 ht
  refine Track.span_resolve_eq_statedSpan _ ?_
  obtain rfl | ⟨block, -, m, -, rfl⟩ := eq_of_mem_rawTracks hraw
  · exact Track.span_addLines _ _
  · exact Track.span_addLines _ _

/-- A track whose range is of the grammar has finite times. -/
theorem isFinite_of_isFiniteTime {text : Text} {t : Track} (ht : t ∈ (read text).tracks)
    (h : ∀ value, t.valueOf? "range".toList = some value →
      TimeRange.read? value = none ∨ ∀ time ∈ TimeRange.times value, TimeRange.IsFiniteTime time) :
    t.start.isFinite = true ∧ t.stop.isFinite = true ∧ t.duration.isFinite = true := by
  have hspan := span_of_mem_read ht
  simp only [Track.span, Track.statedSpan] at hspan
  cases hread : (t.valueOf? "range".toList).bind TimeRange.read? with
  | none =>
    simp only [hread, Option.elim, Prod.mk.injEq] at hspan
    obtain ⟨hstart, hstop, hduration⟩ := hspan
    rw [hstart, hstop, hduration]
    exact ⟨rfl, rfl, rfl⟩
  | some r =>
    simp only [hread, Option.elim, Prod.mk.injEq] at hspan
    obtain ⟨hstart, hstop, hduration⟩ := hspan
    obtain ⟨value, hvalue, hr⟩ := Option.bind_eq_some_iff.1 hread
    have hgrammar : ∀ time ∈ TimeRange.times value, TimeRange.IsFiniteTime time := by
      rcases h value hvalue with hnone | hgrammar
      · rw [hnone] at hr
        cases hr
      · exact hgrammar
    obtain ⟨first, second, htimes, hfirst, hsecond⟩ := TimeRange.readTime?_of_read? hr
    rw [htimes] at hgrammar
    obtain ⟨a, ha, hafinite⟩ := TimeRange.exists_magnitude_of_isFiniteTime (hgrammar first (by simp)) hfirst
    obtain ⟨b, hb, hbfinite⟩ := TimeRange.exists_magnitude_of_isFiniteTime (hgrammar second (by simp)) hsecond
    rw [hstart, hstop, hduration, TimeRange.duration, ha, hb]
    exact ⟨by simp [Binary32.isFinite, hafinite], by simp [Binary32.isFinite, hbfinite],
      Binary32.isFinite_sub hbfinite hafinite⟩

/-- The title of a description is written with the range that its length gives. -/
theorem text_read_of_title {text : Text} {t : Track} (ht : t ∈ (read text).tracks) (hk : t.kind = .title) :
    ∃ rest, (read text).text = Text.ofLines ("v=0".toList :: TitleBlock.usualHeader ++
      ["a=range:".toList ++ TitleBlock.range { duration := t.duration }, "a=control:*".toList]) ++ rest := by
  have hversion : "v=".toList ++ Text.ofNat (0 : UInt32).toNat = "v=0".toList := by decide
  have hlines : TitleBlock.lines { duration := t.duration } = ("v=".toList ++ Text.ofNat (0 : UInt32).toNat) ::
      (TitleBlock.usualHeader ++ ["a=range:".toList ++ TitleBlock.range { duration := t.duration }, "a=control:*".toList]) :=
    rfl
  rw [text_of_title (last?_title_of_mem ht hk) hk, Text.ofLines_append, hlines, hversion]
  exact ⟨_, rfl⟩

/-- Times of the grammar are real times, in three parts. The range that counts for a track, if it is read, has times that are
left out, or now, or of the grammar with seconds below the limit.
1. The start, the end and the length of the track are finite.
2. The track is live or longer than zero.
3. When it is the title, the description is written with a range that is open for a live title, and otherwise ends in a plain
   decimal that is read as the length. -/
theorem times_finite {text : Text} {t : Track} (ht : t ∈ (read text).tracks)
    (h : ∀ value, t.valueOf? "range".toList = some value →
      TimeRange.read? value = none ∨ ∀ time ∈ TimeRange.times value, TimeRange.IsFiniteTime time) :
    (t.start.isFinite = true ∧ t.stop.isFinite = true ∧ t.duration.isFinite = true) ∧
    (t.isLive = false → t.duration.IsPositive) ∧
    (t.kind = .title → ∃ range rest, (read text).text = Text.ofLines ("v=0".toList :: TitleBlock.usualHeader ++
        ["a=range:".toList ++ range, "a=control:*".toList]) ++ rest ∧
      (range = "npt=now-".toList ∨ ∃ whole number, range = "npt=0-".toList ++ number ∧
        TimeRange.IsSeconds whole number ∧ Binary32.read? number = some t.duration ∧ t.duration.IsPositive)) := by
  have hfinite := isFinite_of_isFiniteTime ht h
  have hpositive : t.isLive = false → t.duration.IsPositive := Binary32.isPositive_of_isFinite hfinite.2.2
  refine ⟨hfinite, hpositive, ?_⟩
  intro hk
  obtain ⟨rest, htext⟩ := text_read_of_title ht hk
  refine ⟨_, rest, htext, ?_⟩
  rw [TitleBlock.range]
  cases hlive : t.isLive with
  | true => exact Or.inl (if_pos hlive)
  | false =>
    have hpos := hpositive hlive
    obtain ⟨whole, hwhole⟩ := Binary32.exists_isSeconds_write hfinite.2.2 hpos
    have hnot : ¬ t.duration.isNonpositive = true := Bool.eq_false_iff.1 hlive
    exact Or.inr ⟨whole, _, if_neg hnot, hwhole, Binary32.read?_write _, hpos⟩

/-- A description with the longest time that is finite, after a start in hours, minutes and seconds. -/
def longestOffer : Text :=
  "a=range:npt= 0:01:00 -340282356779733661637539395458142568447.9 s\r\nm=audio 0 RTP/AVP 0\r\na=range:npt=now-\r\n".toList

theorem times_finite_of_longestOffer :
    let value := "npt= 0:01:00 -340282356779733661637539395458142568447.9 s".toList
    ∃ t ∈ (read longestOffer).tracks, t.kind = .title ∧ t.valueOf? "range".toList = some value ∧
      (∀ time ∈ TimeRange.times value, TimeRange.IsFiniteTime time) ∧
      t.duration.isFinite = true ∧ t.isLive = false ∧ t.duration.IsPositive := by
  intro value
  have hmem : ∃ t ∈ (read longestOffer).tracks, t.kind = .title ∧ t.valueOf? "range".toList = some value ∧
      t.isLive = false := by decide +kernel
  obtain ⟨t, ht, hk, hvalue, hlive⟩ := hmem
  have hgrammar : ∀ time ∈ TimeRange.times value, TimeRange.IsFiniteTime time := by
    have htimes : TimeRange.times value =
        ["0:01:00".toList, "340282356779733661637539395458142568447.9".toList] := by decide +kernel
    have hclock : TimeRange.IsTime "00".toList ("0".toList ++ ':' :: ("01".toList ++ ':' :: "00".toList)) :=
      .clock (by decide) (by decide) ⟨by decide, Or.inl rfl⟩
    have hfraction : TimeRange.Digits "9".toList := by decide
    have hseconds : TimeRange.IsSeconds "340282356779733661637539395458142568447".toList
        "340282356779733661637539395458142568447.9".toList := ⟨by decide, Or.inr ⟨_, hfraction.2, by decide⟩⟩
    have hstart : TimeRange.IsFiniteTime "0:01:00".toList := Or.inr (Or.inr ⟨_, hclock, by decide⟩)
    have hstop : TimeRange.IsFiniteTime "340282356779733661637539395458142568447.9".toList :=
      Or.inr (Or.inr ⟨_, .seconds hseconds, by decide⟩)
    rw [htimes]
    intro time htime
    rcases List.mem_cons.1 htime with rfl | htime
    · exact hstart
    · rw [List.mem_singleton.1 htime]
      exact hstop
  obtain ⟨⟨-, -, hfinite⟩, hpositive, -⟩ := times_finite ht fun v hv => by
    obtain rfl := Option.some.inj (hvalue.symm.trans hv)
    exact Or.inr hgrammar
  exact ⟨t, ht, hk, hvalue, hgrammar, hfinite, hlive, hpositive hlive⟩

/-- A word for no number, and a number with one digit too many, give a title without a finite length that does not count for
live. -/
theorem exists_times_not_finite :
    let noNumber := "v=0\r\na=range:npt=0-nan\r\nm=audio 0 RTP/AVP 0\r\n".toList
    let tooLong := "v=0\r\na=range:npt=0-340282356779733661637539395458142568448\r\nm=audio 0 RTP/AVP 0\r\n".toList
    (∃ t ∈ (read noNumber).tracks, t.kind = .title ∧ t.stop = .nan ∧ t.duration = .nan ∧
      t.duration.isFinite = false ∧ t.isLive = false) ∧
    (read noNumber).text = "v=0\r\no=- 0 0 IN IP4 0.0.0.0\r\ns=Streamed by rtsp-media\r\nc=IN IP4 0.0.0.0\r\n".toList ++
      "t=0 0\r\na=range:npt=0-NaN\r\na=control:*\r\nm=audio 0 RTP/AVP 0\r\n".toList ∧
    (∃ t ∈ (read tooLong).tracks, t.kind = .title ∧ t.stop = .infinity false ∧ t.duration = .infinity false ∧
      t.duration.isFinite = false ∧ t.isLive = false) := by
  decide +kernel

end Session

end MediaSession
