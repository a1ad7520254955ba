import MediaSession.Proofs.Description.Winnowing

/-!
# Tracks that say the same of their medium

Two tracks say the same of their medium when they differ at most in the port, the timing, the times of the range and the
lines as they were given. Every step of resolving keeps that, so two tracks that are alike before say the same of their
medium after, as soon as their attributes agree on the encodings and the format parameters of the payload type and on the
last control address. What else stands among the attributes does not count.
-/

namespace MediaSession

namespace Track

/-- The rate that replaces a rate of zero depends on the kind, the encoding and the format parameters alone. -/
theorem suppliedRate_congr {t u : Track} (hkind : t.kind = u.kind) (hcodec : t.codec = u.codec)
    (hrate : t.sampleRate = u.sampleRate) (hformat : t.format = u.format) :
    suppliedRate configuredRate? t = suppliedRate configuredRate? u := by
  have hconfigured : configuredRate? t = configuredRate? u := by
    unfold configuredRate?
    rw [hcodec, hformat]
  unfold suppliedRate
  rw [hrate, hkind, hconfigured]

/-- Tracks of one kind that agree on the payload type, the encoding with its rate, channels and parameters, the bandwidth
and the control address. -/
structure SameMedia (t u : Track) : Prop where
  kind : t.kind = u.kind
  payloadType : t.payloadType = u.payloadType
  codec : t.codec = u.codec
  sampleRate : t.sampleRate = u.sampleRate
  channels : t.channels = u.channels
  format : t.format = u.format
  bandwidth : t.bandwidth = u.bandwidth
  control : t.control = u.control

namespace SameMedia

variable {t u v : Track}

theorem refl (t : Track) : SameMedia t t := ⟨rfl, rfl, rfl, rfl, rfl, rfl, rfl, rfl⟩

theorem symm (h : SameMedia t u) : SameMedia u t :=
  ⟨h.kind.symm, h.payloadType.symm, h.codec.symm, h.sampleRate.symm, h.channels.symm, h.format.symm, h.bandwidth.symm,
    h.control.symm⟩

theorem trans (h : SameMedia t u) (h' : SameMedia u v) : SameMedia t v :=
  ⟨h.kind.trans h'.kind, h.payloadType.trans h'.payloadType, h.codec.trans h'.codec,
    h.sampleRate.trans h'.sampleRate, h.channels.trans h'.channels, h.format.trans h'.format,
    h.bandwidth.trans h'.bandwidth, h.control.trans h'.control⟩

/-! ## One step after the other -/

theorem applyRtpmap (h : SameMedia t u) (value : Text) : SameMedia (t.applyRtpmap value) (u.applyRtpmap value) := by
  unfold Track.applyRtpmap
  split
  · exact { h with codec := rfl, sampleRate := rfl, channels := rfl }
  · exact { h with payloadType := rfl, codec := rfl, sampleRate := rfl }
  · exact h

theorem applyFormat (h : SameMedia t u) (value : Text) : SameMedia (t.applyFormat value) (u.applyFormat value) :=
  { h with format := rfl }

/-- The rate that replaces a rate of zero depends on what is said of the medium alone. -/
theorem suppliedRate (h : SameMedia t u) :
    Track.suppliedRate configuredRate? t = Track.suppliedRate configuredRate? u :=
  suppliedRate_congr h.kind h.codec h.sampleRate h.format

end SameMedia

/-! ## What a declared track says -/

/-- The encodings and then the format parameters of the declared payload type, applied to the track. -/
def encoded (t : Track) : Track :=
  (valuesFor "fmtp".toList t.payloadType t.attributes).foldl applyFormat
    ((valuesFor "rtpmap".toList t.payloadType t.attributes).foldl applyRtpmap t)

/-- The attributes that resolving leaves to a track of declared payload type. -/
def keptAttributes (t : Track) : List Attribute :=
  (t.attributes.filter (keeps "rtpmap".toList t.payloadType)).filter (keeps "fmtp".toList t.payloadType)

theorem valuesFor_keptAttributes (name : Text) (t : Track) :
    valuesFor name t.payloadType t.keptAttributes = valuesFor name t.payloadType t.attributes := by
  rw [keptAttributes, valuesFor_filter_keeps, valuesFor_filter_keeps]

/-- Tracks whose attributes agree on the encodings and the format parameters say the same of their medium. -/
theorem SameMedia.encoded {t u : Track} (h : SameMedia t u)
    (hmap : valuesFor "rtpmap".toList t.payloadType t.attributes = valuesFor "rtpmap".toList t.payloadType u.attributes)
    (hfmt : valuesFor "fmtp".toList t.payloadType t.attributes = valuesFor "fmtp".toList t.payloadType u.attributes) :
    SameMedia t.encoded u.encoded := by
  rw [Track.encoded, Track.encoded, hmap, hfmt, h.payloadType]
  refine List.foldl_rel (r := SameMedia) (List.foldl_rel (r := SameMedia) h ?_) ?_
  · intro value _ _ _ h'
    exact h'.applyRtpmap value
  · intro value _ _ _ h'
    exact h'.applyFormat value

/-- No encoding and no format parameters change the control address. -/
theorem control_encoded (t : Track) : t.encoded.control = t.control := by
  have hmap : ∀ (u : Track) (value : Text), (u.applyRtpmap value).control = u.control := by
    intro u value
    unfold applyRtpmap
    split <;> rfl
  unfold encoded
  refine List.foldlRecOn (motive := fun u : Track => u.control = t.control) _ _
    (List.foldlRecOn (motive := fun u : Track => u.control = t.control) _ _ rfl ?_) fun _ hu _ _ => hu
  intro u hu value _
  exact (hmap u value).trans hu

/-- Encodings for the declared payload type leave it declared, however many there are. -/
theorem payloadType_foldl_applyRtpmap {t : Track} {values : List Text}
    (h : ∀ value ∈ values, leadingPayloadType? value = some t.payloadType) :
    (values.foldl applyRtpmap t).payloadType = t.payloadType := by
  refine List.foldlRecOn (motive := fun u : Track => u.payloadType = t.payloadType) _ _ rfl ?_
  intro u hu value hv
  rw [← hu]
  exact payloadType_applyRtpmap (by rw [hu]; exact h value hv)

theorem leadingPayloadType?_of_mem_valuesFor {name value : Text} {p : UInt8} {attrs : List Attribute}
    (h : value ∈ valuesFor name p attrs) : leadingPayloadType? value = some p := by
  obtain ⟨a, ha, rfl⟩ := List.mem_map.1 h
  have hp := (List.mem_filter.1 ha).2
  rw [Bool.and_eq_true] at hp
  exact beq_iff_eq.1 hp.2

/-- Where an application of values looks at no attribute, it can be done under other attributes. -/
theorem foldl_attributes {apply : Track → Text → Track}
    (happly : ∀ (t : Track) attrs value,
      apply { t with attributes := attrs } value = { apply t value with attributes := attrs })
    (values : List Text) (t : Track) (attrs : List Attribute) :
    values.foldl apply { t with attributes := attrs } = { values.foldl apply t with attributes := attrs } := by
  induction values generalizing t with
  | nil => rfl
  | cons value rest ih => rw [List.foldl_cons, happly, ih, List.foldl_cons]

theorem applyRtpmap_attributes (t : Track) (attrs : List Attribute) (value : Text) :
    applyRtpmap { t with attributes := attrs } value = { t.applyRtpmap value with attributes := attrs } := by
  unfold applyRtpmap
  split <;> rfl

theorem applyFormat_attributes (t : Track) (attrs : List Attribute) (value : Text) :
    applyFormat { t with attributes := attrs } value = { t.applyFormat value with attributes := attrs } := rfl

/-- Under a declared payload type the encodings and the format parameters of that type are applied, and those of other
types are dropped. -/
theorem resolveEncoding_of_declared {t : Track} (hk : t.kind ≠ .title) (ht : t.payloadType ≠ unsetPayloadType) :
    t.resolveEncoding = { t.encoded with attributes := t.keptAttributes } := by
  have hmap := winnow_of_declared applyRtpmap (fun _ _ => payloadType_applyRtpmap) "rtpmap".toList ht
  have hp : (t.winnow "rtpmap".toList applyRtpmap).payloadType = t.payloadType := by
    rw [hmap]
    exact payloadType_foldl_applyRtpmap fun _ hv => leadingPayloadType?_of_mem_valuesFor hv
  have hfmt := winnow_of_declared applyFormat (fun _ _ _ => rfl) "fmtp".toList (by rw [hp]; exact ht)
  rw [resolveEncoding, if_neg hk, hfmt, hp, hmap]
  simp only [valuesFor_filter_keeps]
  rw [foldl_attributes applyFormat_attributes]
  rfl

/-- Resolving drops no control attribute. -/
theorem filter_control_keptAttributes (t : Track) :
    t.keptAttributes.filter (·.name == "control".toList) = t.attributes.filter (·.name == "control".toList) := by
  rw [keptAttributes, filter_name_filter_keeps (by decide), filter_name_filter_keeps (by decide)]

/-- What a track of declared payload type says: its encodings, its format parameters and its last control address. -/
theorem resolveAttributes_of_declared {t : Track} (hk : t.kind ≠ .title) (ht : t.payloadType ≠ unsetPayloadType) :
    SameMedia t.resolveAttributes
        { t.encoded with control := (t.valuesOf "control".toList).getLast?.getD t.control } ∧
      t.resolveAttributes.attributes = t.keptAttributes := by
  obtain ⟨hsame, hattrs⟩ : SameMedia t.resolveRange t ∧ t.resolveRange.attributes = t.attributes := by
    obtain ⟨start, stop, duration, hrange⟩ := t.exists_resolveRange_eq
    rw [hrange]
    exact ⟨⟨rfl, rfl, rfl, rfl, rfl, rfl, rfl, rfl⟩, rfl⟩
  have hencoding := resolveEncoding_of_declared (t := t.resolveRange)
    (by rw [hsame.kind]; exact hk) (by rw [hsame.payloadType]; exact ht)
  have hkept : t.resolveRange.resolveEncoding.attributes = t.keptAttributes := by
    rw [hencoding, keptAttributes, hattrs, hsame.payloadType, ← keptAttributes]
  have hencoded : SameMedia t.resolveRange.resolveEncoding t.encoded := by
    refine SameMedia.trans ?_ (hsame.encoded (by rw [hattrs]) (by rw [hattrs]))
    rw [hencoding]
    exact ⟨rfl, rfl, rfl, rfl, rfl, rfl, rfl, rfl⟩
  have hvalues : t.resolveRange.resolveEncoding.valuesOf "control".toList = t.valuesOf "control".toList := by
    rw [valuesOf, hkept, filter_control_keptAttributes, ← valuesOf]
  rw [resolveAttributes, resolveControl_eq, hvalues, hencoded.control, control_encoded]
  exact ⟨{ hencoded with control := rfl }, hkept⟩

/-- Looking at the attributes leaves a declared payload type declared. -/
theorem payloadType_resolveAttributes {t : Track} (hk : t.kind ≠ .title) (ht : t.payloadType ≠ unsetPayloadType) :
    t.resolveAttributes.payloadType = t.payloadType := by
  refine (resolveAttributes_of_declared hk ht).1.payloadType.trans ?_
  refine List.foldlRecOn (motive := fun u : Track => u.payloadType = t.payloadType) _ _ ?_ fun _ hu _ _ => hu
  exact payloadType_foldl_applyRtpmap fun _ hv => leadingPayloadType?_of_mem_valuesFor hv

/-- Resolving leaves a declared payload type declared. -/
theorem payloadType_resolve {t : Track} (source : RateSource Id) (hk : t.kind ≠ .title)
    (ht : t.payloadType ≠ unsetPayloadType) : (Id.run (t.resolve source)).payloadType = t.payloadType := by
  rw [resolve_eq]
  exact payloadType_resolveAttributes hk ht

/-- Resolving keeps the attributes of a track of declared payload type but the encodings and the format parameters of
other types. -/
theorem attributes_resolve {t : Track} (source : RateSource Id) (hk : t.kind ≠ .title)
    (ht : t.payloadType ≠ unsetPayloadType) : (Id.run (t.resolve source)).attributes = t.keptAttributes := by
  rw [resolve_eq]
  exact (resolveAttributes_of_declared hk ht).2

/-- Tracks that are alike before, and whose attributes agree on the encodings, the format parameters and the control
address, say the same of their medium when they are resolved. -/
theorem SameMedia.resolve {t u : Track} (h : SameMedia t u) (hk : t.kind ≠ .title) (ht : t.payloadType ≠ unsetPayloadType)
    (hmap : valuesFor "rtpmap".toList t.payloadType t.attributes = valuesFor "rtpmap".toList t.payloadType u.attributes)
    (hfmt : valuesFor "fmtp".toList t.payloadType t.attributes = valuesFor "fmtp".toList t.payloadType u.attributes)
    (hcontrol : (t.valuesOf "control".toList).getLast?.getD t.control =
      (u.valuesOf "control".toList).getLast?.getD u.control) :
    SameMedia (Id.run (t.resolve configuredRate?)) (Id.run (u.resolve configuredRate?)) := by
  have htu : SameMedia t.resolveAttributes u.resolveAttributes := by
    refine (resolveAttributes_of_declared hk ht).1.trans (SameMedia.trans ?_ (resolveAttributes_of_declared
      (by rw [← h.kind]; exact hk) (by rw [← h.payloadType]; exact ht)).1.symm)
    exact { h.encoded hmap hfmt with control := hcontrol }
  rw [resolve_eq, resolve_eq]
  exact { htu with sampleRate := htu.suppliedRate }

end Track

end MediaSession
