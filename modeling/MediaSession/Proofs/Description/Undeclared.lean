import MediaSession.Proofs.Description.SameMedia

/-!
# Tracks that declare no payload type

While a track has declared no payload type, nothing is foreign to it and nothing is dropped. An encoding may declare the
type on the way; from then on it stays declared. So the track has the type that the first such encoding declares
(`payloadType_winnowFrom_of_undeclared`), and if it has none when all attributes have been looked at it has had none
throughout: it has kept every attribute, and none of them could declare a type.
-/

namespace MediaSession

/-- Whether the attribute is an encoding that sets a payload type: one that can be read and has no number of channels. -/
def Attribute.Declares (a : Attribute) : Prop :=
  a.name = "rtpmap".toList ∧
    ∃ r, Rtpmap.read? a.value = some r ∧ r.channels = none ∧ r.payloadType ≠ unsetPayloadType

/-- The payload type that the attribute declares, if it declares one. -/
def Attribute.declared? (a : Attribute) : Option UInt8 :=
  if a.name = "rtpmap".toList then
    ((Rtpmap.read? a.value).filter fun r => r.channels = none ∧ r.payloadType ≠ unsetPayloadType).map (·.payloadType)
  else none

namespace Attribute

variable {a : Attribute}

theorem declared?_eq_some_iff {p : UInt8} :
    a.declared? = some p ↔ a.name = "rtpmap".toList ∧
      ∃ r, Rtpmap.read? a.value = some r ∧ (r.channels = none ∧ r.payloadType ≠ unsetPayloadType) ∧ r.payloadType = p := by
  unfold declared?
  split
  · rename_i hname
    simp [hname, Option.map_eq_some_iff, Option.filter_eq_some_iff, and_assoc]
  · rename_i hname
    exact ⟨fun h => absurd h (by simp), fun h => absurd h.1 hname⟩

/-- A type that is declared is not the one that stands for none. -/
theorem ne_of_declared?_eq_some {p : UInt8} (h : a.declared? = some p) : p ≠ unsetPayloadType := by
  obtain ⟨-, r, -, ⟨-, hp⟩, rfl⟩ := declared?_eq_some_iff.1 h
  exact hp

theorem declared?_eq_none_iff : a.declared? = none ↔ ¬ a.Declares := by
  rw [Option.eq_none_iff_forall_ne_some]
  constructor
  · rintro h ⟨hname, r, hread, hchannels, hp⟩
    exact h r.payloadType (declared?_eq_some_iff.2 ⟨hname, r, hread, ⟨hchannels, hp⟩, rfl⟩)
  · intro h p hp
    obtain ⟨hname, r, hread, ⟨hchannels, hp⟩, -⟩ := declared?_eq_some_iff.1 hp
    exact h ⟨hname, r, hread, hchannels, hp⟩

/-- Where the first type that is declared is none, no attribute declares one. -/
theorem not_declares_of_findSome? {attrs : List Attribute}
    (h : (attrs.findSome? declared?).getD unsetPayloadType = unsetPayloadType) : ∀ a ∈ attrs, ¬ a.Declares := by
  cases hfirst : attrs.findSome? declared? with
  | none => exact fun a ha => declared?_eq_none_iff.1 (List.findSome?_eq_none_iff.1 hfirst a ha)
  | some p =>
    rw [hfirst] at h
    obtain ⟨a, -, ha⟩ := List.exists_of_findSome?_eq_some hfirst
    exact absurd h (ne_of_declared?_eq_some ha)

end Attribute

namespace Track

/-- An encoding declares the payload type of a track that had none, or leaves it without one. -/
theorem payloadType_applyRtpmap_of_undeclared {t : Track} (ht : t.payloadType = unsetPayloadType) {a : Attribute}
    (hname : a.name = "rtpmap".toList) : (t.applyRtpmap a.value).payloadType = a.declared?.getD unsetPayloadType := by
  rw [applyRtpmap, Attribute.declared?, if_pos hname]
  cases hread : Rtpmap.read? a.value with
  | none => exact ht
  | some r =>
    obtain ⟨p, codec, rate, channels⟩ := r
    cases channels with
    | some n => simpa [Option.filter_some] using ht
    | none =>
      by_cases hp : p = unsetPayloadType
      · simp [Option.filter_some, hp]
      · simp [Option.filter_some, hp]

/-- Under no payload type winnowing keeps every attribute, as long as no application declares one. -/
theorem winnowFrom_of_undeclared (name : Text) (apply : Track → Text → Track) {t : Track} {attrs : List Attribute}
    (ht : t.payloadType = unsetPayloadType)
    (happly : ∀ a ∈ attrs, a.name = name → ∀ u : Track, u.payloadType = unsetPayloadType →
      (apply u a.value).payloadType = unsetPayloadType) :
    (winnowFrom name apply t attrs).1.payloadType = unsetPayloadType ∧ (winnowFrom name apply t attrs).2 = attrs := by
  induction attrs generalizing t with
  | nil => exact ⟨ht, rfl⟩
  | cons a rest ih =>
    have hrest : ∀ b ∈ rest, b.name = name → ∀ u : Track, u.payloadType = unsetPayloadType →
        (apply u b.value).payloadType = unsetPayloadType := fun b hb => happly b (List.mem_cons_of_mem _ hb)
    rw [winnowFrom]
    split
    · rename_i hname
      have hown : ¬ t.isForeign a.value = true := by simp [isForeign, ht]
      obtain ⟨hp, hkept⟩ := ih (happly a List.mem_cons_self hname t ht) hrest
      rw [if_neg hown]
      exact ⟨hp, congrArg (a :: ·) hkept⟩
    · obtain ⟨hp, hkept⟩ := ih ht hrest
      exact ⟨hp, congrArg (a :: ·) hkept⟩

/-- A track without a payload type takes the first one that an encoding declares. -/
theorem payloadType_winnowFrom_of_undeclared {t : Track} (ht : t.payloadType = unsetPayloadType) (attrs : List Attribute) :
    (winnowFrom "rtpmap".toList applyRtpmap t attrs).1.payloadType =
      (attrs.findSome? Attribute.declared?).getD unsetPayloadType := by
  induction attrs generalizing t with
  | nil => exact ht
  | cons a rest ih =>
    rw [winnowFrom, List.findSome?_cons]
    split
    · rename_i hname
      have hown : ¬ t.isForeign a.value = true := by simp [isForeign, ht]
      have hstep := payloadType_applyRtpmap_of_undeclared ht hname
      rw [if_neg hown]
      cases ha : a.declared? with
      | none =>
        rw [ha] at hstep
        exact ih hstep
      | some p =>
        -- Once declared, the payload type stays declared.
        rw [ha] at hstep
        have hdeclared : (t.applyRtpmap a.value).payloadType ≠ unsetPayloadType := by
          rw [hstep]
          exact Attribute.ne_of_declared?_eq_some ha
        rw [winnowFrom_of_declared applyRtpmap (fun _ _ => payloadType_applyRtpmap) _ hdeclared]
        exact (payloadType_foldl_applyRtpmap fun _ hv => leadingPayloadType?_of_mem_valuesFor hv).trans hstep
    · rename_i hname
      have ha : a.declared? = none := if_neg hname
      rw [ha]
      exact ih ht

/-- A track without a payload type whose attributes declare none stays without one and keeps all attributes. -/
theorem resolveAttributes_of_undeclared {t : Track} (ht : t.payloadType = unsetPayloadType)
    (hattrs : ∀ a ∈ t.attributes, ¬ a.Declares) :
    t.resolveAttributes.payloadType = unsetPayloadType ∧ t.resolveAttributes.attributes = t.attributes := by
  have hencoding : ∀ u : Track, u.payloadType = unsetPayloadType → u.attributes = t.attributes →
      u.resolveEncoding.payloadType = unsetPayloadType ∧ u.resolveEncoding.attributes = t.attributes := by
    intro u hu hattrsu
    unfold resolveEncoding
    split
    · exact ⟨hu, hattrsu⟩
    · have hmap : (u.winnow "rtpmap".toList applyRtpmap).payloadType = unsetPayloadType ∧
          (u.winnow "rtpmap".toList applyRtpmap).attributes = u.attributes :=
        winnowFrom_of_undeclared _ _ hu fun a ha hname v hv => by
          rw [payloadType_applyRtpmap_of_undeclared hv hname, Attribute.declared?_eq_none_iff.2 (hattrs a (hattrsu ▸ ha))]
          rfl
      obtain ⟨hp, hkept⟩ := winnowFrom_of_undeclared "fmtp".toList applyFormat hmap.1 fun _ _ _ _ hv => hv
      exact ⟨hp, hkept.trans (hmap.2.trans hattrsu)⟩
  obtain ⟨start, stop, duration, hrange⟩ := t.exists_resolveRange_eq
  rw [resolveAttributes, resolveControl_eq, hrange]
  exact hencoding _ ht rfl

/-- A medium without a payload type takes the first one that its attributes declare. -/
theorem payloadType_resolveAttributes_of_undeclared {t : Track} (hk : t.kind ≠ .title)
    (ht : t.payloadType = unsetPayloadType) :
    t.resolveAttributes.payloadType = (t.attributes.findSome? Attribute.declared?).getD unsetPayloadType := by
  -- Format parameters declare no type, so it is declared by the encodings before them.
  have hformat : ∀ (u : Track) (value : Text), (u.applyFormat value).payloadType = u.payloadType := fun _ _ => rfl
  obtain ⟨start, stop, duration, hrange⟩ := t.exists_resolveRange_eq
  rw [resolveAttributes, resolveControl_eq, hrange, resolveEncoding, if_neg hk]
  refine (winnowFrom_invariant (f := payloadType) hformat _ _ _).trans ?_
  exact payloadType_winnowFrom_of_undeclared (by exact ht) _

/-- A medium that has no payload type when its attributes have been looked at had none before, and its attributes declare
none. -/
theorem undeclared_of_resolveAttributes {t : Track} (hk : t.kind ≠ .title)
    (h : t.resolveAttributes.payloadType = unsetPayloadType) :
    t.payloadType = unsetPayloadType ∧ ∀ a ∈ t.attributes, ¬ a.Declares := by
  by_cases ht : t.payloadType = unsetPayloadType
  · rw [payloadType_resolveAttributes_of_undeclared hk ht] at h
    exact ⟨ht, Attribute.not_declares_of_findSome? h⟩
  · rw [payloadType_resolveAttributes hk ht] at h
    exact absurd h ht

end Track

end MediaSession
