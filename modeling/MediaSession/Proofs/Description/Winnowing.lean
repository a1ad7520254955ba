import MediaSession.Description.Resolve
import MediaSession.Proofs.Text.Pieces

/-!
# Winnowed attributes

What winnowing leaves of a track. The medium, the port and the lines that are no attributes stay what they were. When the
payload type is declared it stays declared too, because an encoding is applied only under the type it begins with. So
winnowing is a filter on the attributes and a fold over the values that pass it, and what a track says of its medium
depends on three things only: the encodings and the format parameters of its own payload type, and the last control
address.
-/

namespace MediaSession

namespace Track

/-! ## The rate at the end -/

/-- The rate of a track after a rate of zero has been replaced, for a source without effects. -/
def suppliedRate (source : RateSource Id) (t : Track) : UInt32 :=
  if t.sampleRate = 0 then
    match t.kind with
    | .video => defaultClockRate
    | .audio => (Id.run (source t)).getD 0
    | _ => 0
  else t.sampleRate

/-- Replacing a rate of zero changes the rate alone. -/
theorem resolveRate_eq (source : RateSource Id) (t : Track) :
    Id.run (t.resolveRate source) = { t with sampleRate := suppliedRate source t } := by
  obtain ⟨kind, _, rate, _, _, _, _, _, _, _, _, _, _, _, _⟩ := t
  unfold resolveRate suppliedRate
  split
  · rename_i hr
    obtain rfl : rate = 0 := hr
    cases kind with
    | audio =>
      simp only [Id.run_bind]
      split
      · rename_i hs
        rw [hs]
        rfl
      · rename_i hs
        rw [hs]
        rfl
    | _ => rfl
  · rfl

/-- Resolving is looking at the attributes and replacing a rate of zero. -/
theorem resolve_eq (source : RateSource Id) (t : Track) :
    Id.run (t.resolve source) =
      { t.resolveAttributes with sampleRate := suppliedRate source t.resolveAttributes } :=
  resolveRate_eq source t.resolveAttributes

/-! ## What the attributes cannot change -/

/-- What the lines of a block give that are no attributes. -/
def given (t : Track) : TrackKind × UInt16 × Text × Text × List (Char × Text) :=
  (t.kind, t.port, t.timing, t.bandwidth, t.other)

theorem given_applyRtpmap (t : Track) (value : Text) : (t.applyRtpmap value).given = t.given := by
  unfold applyRtpmap
  split <;> rfl

theorem given_applyFormat (t : Track) (value : Text) : (t.applyFormat value).given = t.given := rfl

/-- What no application of a value changes, winnowing does not change. -/
theorem winnowFrom_invariant {β : Type} {f : Track → β} {apply : Track → Text → Track}
    (h : ∀ t value, f (apply t value) = f t) (name : Text) (t : Track) (attrs : List Attribute) :
    f (winnowFrom name apply t attrs).1 = f t := by
  induction attrs generalizing t with
  | nil => rfl
  | cons a rest ih =>
    rw [winnowFrom]
    split
    · split
      · exact ih t
      · exact (ih (apply t a.value)).trans (h t a.value)
    · exact ih t

theorem given_winnow {apply : Track → Text → Track} (h : ∀ t value, (apply t value).given = t.given) (name : Text)
    (t : Track) : (t.winnow name apply).given = t.given :=
  winnowFrom_invariant h name t t.attributes

/-- The range changes the times alone. -/
theorem exists_resolveRange_eq (t : Track) :
    ∃ start stop duration, t.resolveRange = { t with start := start, stop := stop, duration := duration } := by
  unfold resolveRange
  split
  · exact ⟨_, _, _, rfl⟩
  · exact ⟨t.start, t.stop, t.duration, rfl⟩

/-- The control address is that of the last control attribute, if there is one. -/
theorem resolveControl_eq (t : Track) :
    t.resolveControl = { t with control := (t.valuesOf "control".toList).getLast?.getD t.control } := by
  unfold resolveControl
  split
  · rename_i hc
    rw [hc]
    rfl
  · rename_i hc
    rw [hc]
    rfl

theorem given_resolveAttributes (t : Track) : t.resolveAttributes.given = t.given := by
  have hencoding : ∀ u : Track, u.resolveEncoding.given = u.given := by
    intro u
    unfold resolveEncoding
    split
    · rfl
    · exact (given_winnow given_applyFormat _ _).trans (given_winnow given_applyRtpmap _ _)
  obtain ⟨start, stop, duration, hrange⟩ := t.exists_resolveRange_eq
  rw [resolveAttributes, resolveControl_eq, hrange]
  exact hencoding _

/-- Resolving changes nothing that its lines give a track directly. -/
theorem given_resolve (source : RateSource Id) (t : Track) : (Id.run (t.resolve source)).given = t.given := by
  rw [resolve_eq]
  exact given_resolveAttributes t

theorem kind_resolve (source : RateSource Id) (t : Track) : (Id.run (t.resolve source)).kind = t.kind :=
  congrArg (·.1) (given_resolve source t)

theorem port_resolve (source : RateSource Id) (t : Track) : (Id.run (t.resolve source)).port = t.port :=
  congrArg (·.2.1) (given_resolve source t)

theorem bandwidth_resolve (source : RateSource Id) (t : Track) : (Id.run (t.resolve source)).bandwidth = t.bandwidth :=
  congrArg (·.2.2.2.1) (given_resolve source t)

/-- Winnowing adds no attribute and keeps the order of those it leaves. -/
theorem sublist_winnowFrom (name : Text) (apply : Track → Text → Track) (t : Track) (attrs : List Attribute) :
    (winnowFrom name apply t attrs).2.Sublist attrs := by
  induction attrs generalizing t with
  | nil => exact List.Sublist.slnil
  | cons a rest ih =>
    rw [winnowFrom]
    split
    · split
      · exact (ih t).cons a
      · exact (ih _).cons_cons a
    · exact (ih t).cons_cons a

/-- Resolving adds no attribute. -/
theorem sublist_resolveAttributes (t : Track) : t.resolveAttributes.attributes.Sublist t.attributes := by
  have hencoding : ∀ u : Track, u.resolveEncoding.attributes.Sublist u.attributes := by
    intro u
    unfold resolveEncoding
    split
    · exact List.Sublist.refl _
    · exact (sublist_winnowFrom _ _ _ _).trans (sublist_winnowFrom _ _ _ _)
  obtain ⟨start, stop, duration, hrange⟩ := t.exists_resolveRange_eq
  rw [resolveAttributes, resolveControl_eq, hrange]
  exact hencoding _

/-! ## Payload types -/

/-- Reading the encoding keeps the payload type that stands before it. -/
theorem payloadType_of_readEncoding? {p : UInt8} {encoding : Text} {r : Rtpmap}
    (h : Rtpmap.readEncoding? p encoding = some r) : r.payloadType = p := by
  unfold Rtpmap.readEncoding? at h
  split at h
  · obtain ⟨rate, -, rfl⟩ := Option.map_eq_some_iff.1 h
    rfl
  · obtain ⟨rate, -, h⟩ := Option.bind_eq_some_iff.1 h
    obtain ⟨channels, -, rfl⟩ := Option.map_eq_some_iff.1 h
    rfl
  · cases h

/-- Digits up to a blank are read as the payload type that a value begins with. -/
theorem leadingPayloadType?_of_digits {value digits rest : Text} {blank : Char}
    (hd : ∀ c ∈ digits, c.isDigit = true) (hb : Text.isBlank blank = true)
    (hv : Text.trimStart value = digits ++ blank :: rest) :
    leadingPayloadType? value = Text.readUInt8? digits := by
  rw [leadingPayloadType?, hv, List.takeWhile_append_of_pos hd,
    List.takeWhile_cons_of_neg (by simp [Text.isDigit_eq_false_of_isBlank hb]), List.append_nil]

/-- An encoding is for the payload type that its value begins with. A numeral with a plus sign is read as a payload type
too, but no value begins with the type it denotes. -/
theorem payloadType_of_read? {value : Text} {p : UInt8} {r : Rtpmap} (hl : leadingPayloadType? value = some p)
    (hr : Rtpmap.read? value = some r) : r.payloadType = p := by
  obtain ⟨⟨word, encoding⟩, hcut, hr⟩ := Option.bind_eq_some_iff.1 hr
  obtain ⟨q, hq, hr⟩ := Option.bind_eq_some_iff.1 hr
  rw [payloadType_of_readEncoding? hr]
  obtain ⟨-, blank, hb, htrim⟩ := Text.eq_of_cutWhere? hcut
  obtain ⟨rest, hstart⟩ : ∃ rest, Text.trimStart value = word ++ blank :: rest := by
    obtain ⟨blanks, hblanks⟩ := List.rdropWhile_prefix Text.isBlank (Text.trimStart value)
    refine ⟨encoding ++ blanks, ?_⟩
    rw [← hblanks, ← Text.trimEnd_eq_rdropWhile]
    show Text.trim value ++ blanks = _
    rw [htrim, List.append_assoc, List.cons_append]
  obtain ⟨hne, hall⟩ : (Text.dropPlus word).isEmpty = false ∧ (Text.dropPlus word).all Char.isDigit = true := by
    obtain ⟨n, hn, -⟩ := Option.map_eq_some_iff.1 hq
    obtain ⟨hn, -⟩ := Option.filter_eq_some_iff.1 hn
    rw [Text.readNat?] at hn
    split at hn
    · rename_i hdigits
      simpa using hdigits
    · cases hn
  by_cases hplus : word.head? = some '+'
  · obtain ⟨digits, rfl⟩ : ∃ digits, word = '+' :: digits := List.head?_eq_some_iff.1 hplus
    rw [leadingPayloadType?, hstart, List.cons_append, List.takeWhile_cons_of_neg (by decide)] at hl
    cases hl
  · rw [Text.dropPlus_eq_self hplus] at hall
    rw [leadingPayloadType?_of_digits (List.all_eq_true.1 hall) hb hstart, hq] at hl
    exact Option.some.inj hl

/-- An encoding for the declared payload type leaves it declared. -/
theorem payloadType_applyRtpmap {t : Track} {value : Text} (h : leadingPayloadType? value = some t.payloadType) :
    (t.applyRtpmap value).payloadType = t.payloadType := by
  unfold applyRtpmap
  split
  · rfl
  · rename_i hr
    exact payloadType_of_read? h hr
  · rfl

/-! ## Winnowing as a filter and a fold -/

/-- Whether winnowing under a declared payload type keeps the attribute. -/
def keeps (name : Text) (p : UInt8) (a : Attribute) : Bool := a.name != name || leadingPayloadType? a.value == some p

/-- The values of the attributes of the given name that begin with the given payload type. -/
def valuesFor (name : Text) (p : UInt8) (attrs : List Attribute) : List Text :=
  (attrs.filter fun a => a.name == name && leadingPayloadType? a.value == some p).map (·.value)

/-- A value is foreign to a track of declared payload type exactly when it does not begin with that type. -/
theorem isForeign_iff_of_declared {t : Track} (ht : t.payloadType ≠ unsetPayloadType) (value : Text) :
    t.isForeign value = true ↔ leadingPayloadType? value ≠ some t.payloadType := by
  simp [isForeign, ht]

/-- Under a declared payload type, winnowing keeps what names another attribute or begins with that type, and applies the
latter in order. -/
theorem winnowFrom_of_declared (apply : Track → Text → Track)
    (happly : ∀ t value, leadingPayloadType? value = some t.payloadType → (apply t value).payloadType = t.payloadType)
    (name : Text) {t : Track} (ht : t.payloadType ≠ unsetPayloadType) (attrs : List Attribute) :
    winnowFrom name apply t attrs =
      ((valuesFor name t.payloadType attrs).foldl apply t, attrs.filter (keeps name t.payloadType)) := by
  induction attrs generalizing t with
  | nil => rfl
  | cons a rest ih =>
    rw [winnowFrom]
    by_cases hn : a.name = name
    · rw [if_pos hn]
      by_cases hl : leadingPayloadType? a.value = some t.payloadType
      · have hstay := happly t a.value hl
        have hkept : ¬ t.isForeign a.value = true := by
          rw [isForeign_iff_of_declared ht]
          exact not_not_intro hl
        rw [if_neg hkept, ih (by rw [hstay]; exact ht), hstay]
        simp [valuesFor, keeps, hn, hl]
      · rw [if_pos ((isForeign_iff_of_declared ht _).2 hl), ih ht]
        simp [valuesFor, keeps, hn, hl]
    · have hkept : keeps name t.payloadType a = true := by simp [keeps, hn]
      rw [if_neg hn, ih ht, List.filter_cons_of_pos hkept]
      simp [valuesFor, hn]

theorem winnow_of_declared (apply : Track → Text → Track)
    (happly : ∀ t value, leadingPayloadType? value = some t.payloadType → (apply t value).payloadType = t.payloadType)
    (name : Text) {t : Track} (ht : t.payloadType ≠ unsetPayloadType) :
    t.winnow name apply =
      { (valuesFor name t.payloadType t.attributes).foldl apply t with
        attributes := t.attributes.filter (keeps name t.payloadType) } := by
  rw [winnow, winnowFrom_of_declared apply happly name ht]

/-- What is kept under one name has all the values under every name. -/
theorem valuesFor_filter_keeps (name name' : Text) (p : UInt8) (attrs : List Attribute) :
    valuesFor name p (attrs.filter (keeps name' p)) = valuesFor name p attrs := by
  rw [valuesFor, List.filter_filter]
  congr 1
  apply List.filter_congr
  intro a _
  cases hl : leadingPayloadType? a.value == some p <;> simp [keeps, hl]

/-- What is kept under one name has all attributes of any other name. -/
theorem filter_name_filter_keeps {name name' : Text} (h : name ≠ name') (p : UInt8) (attrs : List Attribute) :
    (attrs.filter (keeps name' p)).filter (·.name == name) = attrs.filter (·.name == name) := by
  rw [List.filter_filter]
  apply List.filter_congr
  intro a _
  by_cases hn : a.name = name
  · simp [keeps, hn, h]
  · simp [hn]

end Track

end MediaSession
