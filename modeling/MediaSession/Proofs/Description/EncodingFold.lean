import MediaSession.Proofs.Description.AudioRates

/-!
# Winnowing as a fold

Attributes are winnowed in place: a loop goes over them by position, removes what is foreign where it stands, and applies
the rest to the very track whose payload type decides what is foreign. `pruneStep` is that loop. It takes one step for each
attribute and ends in the winnowed track (`prunesTo_winnow`), and what it does to the encoding is a left fold over the
values alone: over what has been said so far, `Encoding`, and the values that were kept. The payload type changes in it at
most once, because a value that is kept under a declared type begins with the number of the type, and it is read as an
encoding of that type or not at all.
-/

namespace MediaSession

/-! ## The fold -/

/-- What the encodings of a block have said so far. -/
structure Encoding where
  payloadType : UInt8
  codec : Text
  sampleRate : UInt32
  channels : UInt32
  deriving DecidableEq, Repr

namespace Encoding

/-- What a payload type says by itself: no name, and the rate and the channels of the table. -/
def ofType (p : UInt8) : Encoding := ⟨p, [], PayloadTable.clockRate p, PayloadTable.channels p⟩

/-- Whether a value is dropped: a payload type has been declared, and the value does not begin with its number. -/
def drops (e : Encoding) (value : Text) : Bool :=
  e.payloadType != unsetPayloadType && Track.leadingPayloadType? value != some e.payloadType

/-- What has been said after a value that is kept. With a number of channels it leaves the payload type, and without one it
leaves the channels. -/
def hear (e : Encoding) (value : Text) : Encoding :=
  match Rtpmap.read? value with
  | some ⟨_, codec, sampleRate, some channels⟩ => { e with codec, sampleRate, channels }
  | some ⟨payloadType, codec, sampleRate, none⟩ => { e with payloadType, codec, sampleRate }
  | none => e

/-- One value more: it is dropped, or it is kept and heard. -/
def step (s : Encoding × List Text) (value : Text) : Encoding × List Text :=
  if s.1.drops value then s else (s.1.hear value, s.2 ++ [value])

/-- What the values say under a payload type, and which of them are kept. -/
def fold (p : UInt8) (values : List Text) : Encoding × List Text := values.foldl step (ofType p, [])

theorem fold_concat (p : UInt8) (values : List Text) (value : Text) :
    fold p (values ++ [value]) = step (fold p values) value := by
  rw [fold, List.foldl_append]
  rfl

/-- A value that is kept under a declared payload type leaves it. -/
theorem payloadType_hear {e : Encoding} {value : Text} (he : e.payloadType ≠ unsetPayloadType)
    (hkept : e.drops value = false) : (e.hear value).payloadType = e.payloadType := by
  have hlead : Track.leadingPayloadType? value = some e.payloadType := by simpa [drops, he] using hkept
  unfold hear
  split
  · rfl
  · rename_i hread
    exact Track.payloadType_of_read? hlead hread
  · rfl

/-- One value more leaves a declared payload type, whether it is dropped or kept. -/
theorem payloadType_step {s : Encoding × List Text} (hs : s.1.payloadType ≠ unsetPayloadType) (value : Text) :
    (step s value).1.payloadType = s.1.payloadType := by
  unfold step
  split
  · rfl
  · rename_i hkept
    exact payloadType_hear hs (by simpa using hkept)

/-- A declared payload type is never changed, and every value that is kept begins with its number. -/
theorem fold_of_declared {p : UInt8} (hp : p ≠ unsetPayloadType) (values : List Text) :
    (fold p values).1.payloadType = p ∧ ∀ value ∈ (fold p values).2, Track.leadingPayloadType? value = some p := by
  induction values using List.reverseRecOn with
  | nil => exact ⟨rfl, fun _ h => absurd h List.not_mem_nil⟩
  | append_singleton values value ih =>
    obtain ⟨htype, hkept⟩ := ih
    rw [fold_concat]
    refine ⟨(payloadType_step (by rw [htype]; exact hp) value).trans htype, ?_⟩
    intro v hv
    unfold step at hv
    split at hv
    · exact hkept v hv
    · rename_i hkeep
      rcases List.mem_append.1 hv with hv | hv
      · exact hkept v hv
      · rw [List.mem_singleton.1 hv]
        simpa [drops, htype, hp] using hkeep

/-- The payload type changes at most once: there is a number of values up to which it is the one at the beginning, and after
which it is the one at the end. -/
theorem exists_change (p : UInt8) (values : List Text) :
    ∃ k ≤ values.length, ∀ n, (fold p (values.take n)).1.payloadType =
      if n ≤ k then p else (fold p values).1.payloadType := by
  induction values using List.reverseRecOn with
  | nil => exact ⟨0, Nat.le_refl 0, fun n => by simp [fold, ofType]⟩
  | append_singleton values value ih =>
    obtain ⟨k, hk, hbefore⟩ := ih
    have hwhole : ∀ n, values.length < n → (values ++ [value]).take n = values ++ [value] := fun n hn =>
      List.take_of_length_le (by rw [List.length_append]; exact hn)
    have hpart : ∀ n, n ≤ values.length → (values ++ [value]).take n = values.take n := fun n hn =>
      List.take_append_of_le_length hn
    by_cases hset : (fold p values).1.payloadType = p
    · -- Nothing has changed so far, so the last value is the only one that may change it.
      refine ⟨values.length, by simp, fun n => ?_⟩
      by_cases hn : n ≤ values.length
      · rw [hpart n hn, if_pos hn, hbefore, hset, ite_self]
      · rw [hwhole n (Nat.lt_of_not_le hn), if_neg hn]
    · -- The type has been declared, so it stays.
      have hunset : p = unsetPayloadType := by
        by_contra hp
        exact hset (fold_of_declared hp values).1
      have hstays : (fold p (values ++ [value])).1.payloadType = (fold p values).1.payloadType := by
        rw [fold_concat]
        exact payloadType_step (by rw [← hunset]; exact hset) value
      refine ⟨k, by simp; omega, fun n => ?_⟩
      by_cases hn : n ≤ values.length
      · rw [hpart n hn, hbefore, hstays]
      · rw [hwhole n (Nat.lt_of_not_le hn), if_neg (by omega)]

/-- Name and rate come from the last value that is kept and read, the channels from the last one that gives any, and what no
value gives is what the payload type says by itself. -/
theorem fold_says (p : UInt8) (values : List Text) :
    (fold p values).1.codec = (((fold p values).2.filterMap Rtpmap.read?).getLast?.elim [] (·.codec)) ∧
      (fold p values).1.sampleRate =
        (((fold p values).2.filterMap Rtpmap.read?).getLast?.elim (PayloadTable.clockRate p) (·.sampleRate)) ∧
      (fold p values).1.channels =
        ((fold p values).2.filterMap fun value => (Rtpmap.read? value).bind (·.channels)).getLast?.getD
          (PayloadTable.channels p) := by
  induction values using List.reverseRecOn with
  | nil => exact ⟨rfl, rfl, rfl⟩
  | append_singleton values value ih =>
    rw [fold_concat]
    unfold step
    split
    · exact ih
    · obtain ⟨hcodec, hrate, hchannels⟩ := ih
      simp only [List.filterMap_append, List.filterMap_cons, List.filterMap_nil, hear]
      cases hread : Rtpmap.read? value with
      | none =>
        simp only [Option.bind_none, List.append_nil]
        exact ⟨hcodec, hrate, hchannels⟩
      | some r =>
        obtain ⟨payloadType, codec, sampleRate, channels⟩ := r
        cases channels with
        | none => simpa using hchannels
        | some n => simp

end Encoding

namespace Track

/-! ## The loop -/

/-- One step of the loop over the attributes of a name. At a position, an attribute of another name is passed, a foreign one
is removed, and any other is applied and passed. Behind the last attribute there is no step. -/
def pruneStep (name : Text) (apply : Track → Text → Track) : Track × Nat → Option (Track × Nat)
  | (t, i) =>
    (t.attributes[i]?).map fun a =>
      if a.name ≠ name then (t, i + 1)
      else if t.isForeign a.value then ({ t with attributes := t.attributes.eraseIdx i }, i)
      else (apply t a.value, i + 1)

/-- The loop after a number of steps, if it takes so many. -/
def pruneAfter (name : Text) (apply : Track → Text → Track) : Nat → Track × Nat → Option (Track × Nat)
  | 0, s => some s
  | n + 1, s => (pruneStep name apply s).bind (pruneAfter name apply n)

/-- From the first attribute on, the loop takes one step for each attribute and ends in a track. -/
def PrunesTo (name : Text) (apply : Track → Text → Track) (t u : Track) : Prop :=
  ∃ i, pruneAfter name apply t.attributes.length (t, 0) = some (u, i) ∧ pruneStep name apply (u, i) = none

section

variable {apply : Track → Text → Track}
  (happly : ∀ (t : Track) attrs value, apply { t with attributes := attrs } value = { apply t value with attributes := attrs })
include happly

/-- An application that looks at no attribute changes none. -/
theorem attributes_apply (t : Track) (value : Text) : (apply t value).attributes = t.attributes := by
  have hsame := congrArg attributes (happly t t.attributes value)
  exact hsame

/-- Winnowing goes by the attributes it is given, whatever attributes the track has. -/
theorem winnowFrom_attributes (name : Text) (t : Track) (attrs rest : List Attribute) :
    winnowFrom name apply { t with attributes := attrs } rest =
      ({ (winnowFrom name apply t rest).1 with attributes := attrs }, (winnowFrom name apply t rest).2) := by
  induction rest generalizing t with
  | nil => rfl
  | cons a rest ih =>
    have hforeign : isForeign { t with attributes := attrs } a.value = t.isForeign a.value := rfl
    rw [winnowFrom, winnowFrom, hforeign]
    split
    · split
      · exact ih t
      · rw [happly, ih]
    · rw [ih]

/-- With the first attributes behind it, the loop takes one step for each of the rest, and leaves of these what winnowing
leaves. -/
theorem pruneAfter_eq (name : Text) (t : Track) (done : List Attribute) {rest : List Attribute}
    (ht : t.attributes = done ++ rest) :
    pruneAfter name apply rest.length (t, done.length) =
      some ({ (winnowFrom name apply t rest).1 with attributes := done ++ (winnowFrom name apply t rest).2 },
        (done ++ (winnowFrom name apply t rest).2).length) := by
  induction rest generalizing t done with
  | nil =>
    rw [List.append_nil] at ht
    simp [pruneAfter, winnowFrom, ← ht]
  | cons a rest ih =>
    have hat : t.attributes[done.length]? = some a := by simp [ht]
    rw [List.length_cons, pruneAfter, pruneStep, hat, Option.map_some, Option.bind_some, winnowFrom]
    by_cases hname : a.name = name
    · rw [if_neg (not_not_intro hname), if_pos hname]
      by_cases hforeign : t.isForeign a.value = true
      · -- The attribute is gone, and the next one stands in its place.
        have herase : t.attributes.eraseIdx done.length = done ++ rest := by simp [ht, List.eraseIdx_append_of_length_le]
        rw [if_pos hforeign, if_pos hforeign, herase, ih _ _ rfl, winnowFrom_attributes happly]
      · rw [if_neg hforeign, if_neg hforeign]
        have hnext := ih (apply t a.value) (done ++ [a]) (by
          rw [attributes_apply happly, ht]
          simp)
        simpa using hnext
    · have hnext := ih t (done ++ [a]) (by simp [ht])
      rw [if_pos hname, if_neg hname]
      simpa using hnext

/-- The loop ends in the winnowed track. -/
theorem prunesTo_winnow (name : Text) (t : Track) : PrunesTo name apply t (t.winnow name apply) := by
  refine ⟨_, pruneAfter_eq happly name t [] rfl, ?_⟩
  simp [pruneStep, winnow]

end

/-! ## The loop as the fold -/

/-- What the attributes of a track have said so far. -/
def encoding (t : Track) : Encoding := ⟨t.payloadType, t.codec, t.sampleRate, t.channels⟩

/-- The track with another encoding. -/
def withEncoding (t : Track) (e : Encoding) : Track :=
  { t with payloadType := e.payloadType, codec := e.codec, sampleRate := e.sampleRate, channels := e.channels }

theorem applyRtpmap_eq (t : Track) (value : Text) : t.applyRtpmap value = t.withEncoding (t.encoding.hear value) := by
  unfold applyRtpmap Encoding.hear
  cases Rtpmap.read? value with
  | none => rfl
  | some r =>
    obtain ⟨payloadType, codec, sampleRate, channels⟩ := r
    cases channels with
    | none => rfl
    | some _ => rfl

/-- The values of the attributes of a name, in order. -/
def valuesIn (name : Text) (attrs : List Attribute) : List Text := (attrs.filter (·.name == name)).map (·.value)

theorem valuesIn_cons_of_eq {name : Text} {a : Attribute} (h : a.name = name) (rest : List Attribute) :
    valuesIn name (a :: rest) = a.value :: valuesIn name rest := by
  simp [valuesIn, h]

theorem valuesIn_cons_of_ne {name : Text} {a : Attribute} (h : a.name ≠ name) (rest : List Attribute) :
    valuesIn name (a :: rest) = valuesIn name rest := by
  simp [valuesIn, h]

/-- Winnowing leaves the attributes of other names. -/
theorem filter_ne_winnowFrom (name : Text) (apply : Track → Text → Track) (t : Track) (attrs : List Attribute) :
    (winnowFrom name apply t attrs).2.filter (·.name != name) = attrs.filter (·.name != name) := by
  induction attrs generalizing t with
  | nil => rfl
  | cons a rest ih =>
    rw [winnowFrom]
    split
    · rename_i hname
      split
      · simpa [hname] using ih t
      · simpa [hname] using ih (apply t a.value)
    · rename_i hname
      simpa [hname] using ih t

/-- Attributes that agree but for one name have the same values of every other name. -/
theorem valuesIn_congr_of_ne {name name' : Text} {before after : List Attribute}
    (h : after.filter (·.name != name) = before.filter (·.name != name)) (hne : name' ≠ name) :
    valuesIn name' after = valuesIn name' before := by
  have hamong : ∀ attrs : List Attribute, attrs.filter (·.name == name') =
      (attrs.filter (·.name != name)).filter (·.name == name') := by
    intro attrs
    rw [List.filter_filter]
    refine List.filter_congr fun a _ => ?_
    by_cases ha : a.name = name' <;> simp [ha, hne]
  rw [valuesIn, valuesIn, hamong after, hamong before, h]

/-- Winnowing one name leaves the values of the others. -/
theorem valuesOf_winnow_of_ne {name name' : Text} (hne : name' ≠ name) (apply : Track → Text → Track) (t : Track) :
    (t.winnow name apply).valuesOf name' = t.valuesOf name' :=
  valuesIn_congr_of_ne (filter_ne_winnowFrom name apply t t.attributes) hne

/-- Winnowing encodings changes the encoding alone, and by the fold over their values: it goes on from what has been said
and kept before. -/
theorem winnowFrom_applyRtpmap (name : Text) (t : Track) (attrs : List Attribute) (before : List Text) :
    (winnowFrom name applyRtpmap t attrs).1 = t.withEncoding (winnowFrom name applyRtpmap t attrs).1.encoding ∧
      (valuesIn name attrs).foldl Encoding.step (t.encoding, before) =
        ((winnowFrom name applyRtpmap t attrs).1.encoding, before ++ valuesIn name (winnowFrom name applyRtpmap t attrs).2) := by
  induction attrs generalizing t before with
  | nil => exact ⟨rfl, by simp [winnowFrom, valuesIn]⟩
  | cons a rest ih =>
    rw [winnowFrom]
    by_cases hname : a.name = name
    · rw [if_pos hname, valuesIn_cons_of_eq hname, List.foldl_cons, Encoding.step]
      split
      · rename_i hforeign
        have hdrops : t.encoding.drops a.value = true := hforeign
        rw [if_pos hdrops]
        exact ih t before
      · rename_i hforeign
        have hkept : ¬ t.encoding.drops a.value = true := hforeign
        have hheard : (t.applyRtpmap a.value).encoding = t.encoding.hear a.value := by
          rw [applyRtpmap_eq]
          rfl
        obtain ⟨htrack, hfold⟩ := ih (t.applyRtpmap a.value) (before ++ [a.value])
        rw [if_neg hkept, ← hheard, hfold, valuesIn_cons_of_eq hname]
        refine ⟨htrack.trans ?_, by simp⟩
        rw [applyRtpmap_eq]
        rfl
    · obtain ⟨htrack, hfold⟩ := ih t before
      rw [if_neg hname, valuesIn_cons_of_ne hname, valuesIn_cons_of_ne hname]
      exact ⟨htrack, hfold⟩

/-- Winnowing format parameters applies the values that are not foreign, under the one payload type that the track has. -/
theorem winnowFrom_applyFormat (name : Text) (t : Track) (attrs : List Attribute) :
    (winnowFrom name applyFormat t attrs).1 =
        ((valuesIn name attrs).filter fun value => !t.isForeign value).foldl applyFormat t ∧
      valuesIn name (winnowFrom name applyFormat t attrs).2 = (valuesIn name attrs).filter fun value => !t.isForeign value := by
  induction attrs generalizing t with
  | nil => exact ⟨rfl, rfl⟩
  | cons a rest ih =>
    rw [winnowFrom]
    by_cases hname : a.name = name
    · rw [if_pos hname, valuesIn_cons_of_eq hname]
      by_cases hforeign : t.isForeign a.value = true
      · rw [if_pos hforeign, List.filter_cons_of_neg (by simp [hforeign])]
        exact ih t
      · obtain ⟨htrack, hkept⟩ := ih (t.applyFormat a.value)
        rw [if_neg hforeign, List.filter_cons_of_pos (by simp [hforeign]), List.foldl_cons, valuesIn_cons_of_eq hname]
        exact ⟨htrack, congrArg (a.value :: ·) hkept⟩
    · obtain ⟨htrack, hkept⟩ := ih t
      rw [if_neg hname, valuesIn_cons_of_ne hname, valuesIn_cons_of_ne hname]
      exact ⟨htrack, hkept⟩

/-- Attributes of which those of a name are reduced to the given values: none is added or moved, and those of other names
are all there. -/
structure Reduced (name : Text) (kept : List Text) (before after : List Attribute) : Prop where
  sublist : after.Sublist before
  values_eq : valuesIn name after = kept
  others_eq : after.filter (·.name != name) = before.filter (·.name != name)

/-- A value of the name that is still there is one of those that were kept. -/
theorem Reduced.mem_kept {name : Text} {kept : List Text} {before after : List Attribute} (h : Reduced name kept before after)
    {a : Attribute} (ha : a ∈ after) (hname : a.name = name) : a.value ∈ kept := by
  rw [← h.values_eq]
  exact List.mem_map_of_mem (List.mem_filter.2 ⟨ha, by simp [hname]⟩)

/-- Before its attributes are looked at, the track of a block has said what its payload type says by itself. -/
theorem encoding_addLines (m : MediaLine) (lines : List Line) :
    ((ofMediaLine m).addLines lines).encoding = .ofType m.payloadType := by
  have hsame := sameMedia_addLines (ofMediaLine m) lines
  rw [encoding, hsame.payloadType, hsame.codec, hsame.sampleRate, hsame.channels]
  rfl

/-- Winnowing the encodings of a track that has said what a payload type says by itself gives what the fold over their values
says, and keeps what the fold keeps. -/
theorem winnow_rtpmap {t : Track} {p : UInt8} (h : t.encoding = .ofType p) :
    let u := t.winnow "rtpmap".toList applyRtpmap
    let folded := Encoding.fold p (t.valuesOf "rtpmap".toList)
    u = { t.withEncoding folded.1 with attributes := u.attributes } ∧
      Reduced "rtpmap".toList folded.2 t.attributes u.attributes := by
  intro u folded
  obtain ⟨htrack, hfold⟩ := winnowFrom_applyRtpmap "rtpmap".toList t t.attributes []
  have hfolded : folded = ((winnowFrom "rtpmap".toList applyRtpmap t t.attributes).1.encoding, valuesIn "rtpmap".toList u.attributes) := by
    rw [h] at hfold
    exact hfold
  rw [hfolded]
  refine ⟨?_, sublist_winnowFrom _ _ _ _, rfl, filter_ne_winnowFrom _ _ _ _⟩
  exact congrArg (fun w : Track => { w with attributes := u.attributes }) htrack

/-- So it does for the track of a block before its attributes are looked at. -/
theorem winnow_rtpmap_of_block (m : MediaLine) (lines : List Line) :
    let t := (ofMediaLine m).addLines lines
    let u := t.winnow "rtpmap".toList applyRtpmap
    let folded := Encoding.fold m.payloadType (t.valuesOf "rtpmap".toList)
    u = { t.withEncoding folded.1 with attributes := u.attributes } ∧
      Reduced "rtpmap".toList folded.2 t.attributes u.attributes :=
  winnow_rtpmap (encoding_addLines m lines)

/-- Winnowing the format parameters of a track keeps those that are not foreign, and takes what the last of them gives. -/
theorem winnow_fmtp (t : Track) :
    let v := t.winnow "fmtp".toList applyFormat
    let kept := (t.valuesOf "fmtp".toList).filter fun value => !t.encoding.drops value
    v = { t with
      format := kept.getLast?.elim t.format fun value => Text.trimStart (value.dropWhile Char.isDigit)
      attributes := v.attributes } ∧ Reduced "fmtp".toList kept t.attributes v.attributes := by
  intro v kept
  obtain ⟨htrack, hkept⟩ := winnowFrom_applyFormat "fmtp".toList t t.attributes
  refine ⟨?_, sublist_winnowFrom _ _ _ _, hkept, filter_ne_winnowFrom _ _ _ _⟩
  have hv : v = { kept.foldl applyFormat t with attributes := v.attributes } :=
    congrArg (fun w : Track => { w with attributes := v.attributes }) htrack
  refine hv.trans ?_
  cases hlast : kept.getLast? with
  | none =>
    rw [List.getLast?_eq_none_iff.1 hlast]
    rfl
  | some value =>
    rw [foldl_applyFormat hlast]
    rfl

/-- What the attributes of a block make of its track is a plain fold over their values, in six parts. Let `values` be those of
the encodings, `e` what the fold over them says and `encodings` what it keeps, and `formats` the format parameters that are
not dropped under the payload type in the end.
1. Both loops take one step for each attribute and end.
2. The first leaves the encoding `e`, of the encodings those that the fold keeps, and everything else as it was.
3. The second leaves the format parameters that the last of `formats` gives, of the format parameters `formats`, and
   everything else as it was.
4. If the media line declares a payload type, the track keeps it, and every encoding and all format parameters that are left
   begin with its number.
5. If it declares none, the type changes once or never: there is a number of values up to which it is the one of the media
   line and after which it is that of `e`.
6. Name and rate come from the last encoding that is left and read, the channels from the last that gives any, and what none
   gives is that of the table, without a name. -/
theorem winnow_eq_fold (m : MediaLine) (lines : List Line) :
    let t := (ofMediaLine m).addLines lines
    let values := t.valuesOf "rtpmap".toList
    let e := (Encoding.fold m.payloadType values).1
    let encodings := (Encoding.fold m.payloadType values).2
    let formats := (t.valuesOf "fmtp".toList).filter fun value => !e.drops value
    let u := t.winnow "rtpmap".toList applyRtpmap
    let v := u.winnow "fmtp".toList applyFormat
    (PrunesTo "rtpmap".toList applyRtpmap t u ∧ PrunesTo "fmtp".toList applyFormat u v) ∧
    (u = { t.withEncoding e with attributes := u.attributes } ∧
      Reduced "rtpmap".toList encodings t.attributes u.attributes) ∧
    (v = { u with
        format := formats.getLast?.elim [] fun value => Text.trimStart (value.dropWhile Char.isDigit)
        attributes := v.attributes } ∧
      Reduced "fmtp".toList formats u.attributes v.attributes) ∧
    (m.payloadType = unsetPayloadType ∨ (v.payloadType = m.payloadType ∧ ∀ a ∈ v.attributes,
      a.name = "rtpmap".toList ∨ a.name = "fmtp".toList → leadingPayloadType? a.value = some m.payloadType)) ∧
    (∃ k ≤ values.length, ∀ n, (Encoding.fold m.payloadType (values.take n)).1.payloadType =
      if n ≤ k then m.payloadType else v.payloadType) ∧
    (v.codec = (encodings.filterMap Rtpmap.read?).getLast?.elim [] (·.codec) ∧
      v.sampleRate = (encodings.filterMap Rtpmap.read?).getLast?.elim (PayloadTable.clockRate m.payloadType) (·.sampleRate) ∧
      v.channels = (encodings.filterMap fun value => (Rtpmap.read? value).bind (·.channels)).getLast?.getD
        (PayloadTable.channels m.payloadType)) := by
  intro t values e encodings formats u v
  obtain ⟨hu, hmaps⟩ := winnow_rtpmap_of_block m lines
  obtain ⟨hv, hformats⟩ := winnow_fmtp u
  have hencoding : u.encoding = e := congrArg encoding hu
  have hformat : u.format = [] := (congrArg format hu).trans (sameMedia_addLines (ofMediaLine m) lines).format
  have hvalues : u.valuesOf "fmtp".toList = t.valuesOf "fmtp".toList := valuesOf_winnow_of_ne (by decide) applyRtpmap t
  rw [hencoding, hvalues] at hv hformats
  rw [hformat] at hv
  have hsaid : v.encoding = e := (congrArg encoding hv).trans hencoding
  have htype : v.payloadType = e.payloadType := congrArg Encoding.payloadType hsaid
  refine ⟨⟨prunesTo_winnow applyRtpmap_attributes _ t, prunesTo_winnow applyFormat_attributes _ u⟩, ⟨hu, hmaps⟩,
    ⟨hv, hformats⟩, ?_, ?_, ?_⟩
  · by_cases hm : m.payloadType = unsetPayloadType
    · exact Or.inl hm
    · obtain ⟨hstays, hlead⟩ := Encoding.fold_of_declared hm values
      refine Or.inr ⟨htype.trans hstays, fun a ha hname => ?_⟩
      rcases hname with hname | hname
      · exact hlead _ (hmaps.mem_kept (hformats.sublist.subset ha) hname)
      · have hkept := (List.mem_filter.1 (hformats.mem_kept ha hname)).2
        have hp : e.payloadType = m.payloadType := hstays
        simpa [Encoding.drops, hp, hm] using hkept
  · rw [htype]
    exact Encoding.exists_change m.payloadType values
  · obtain ⟨hcodec, hrate, hchannels⟩ := Encoding.fold_says m.payloadType values
    exact ⟨(congrArg Encoding.codec hsaid).trans hcodec, (congrArg Encoding.sampleRate hsaid).trans hrate,
      (congrArg Encoding.channels hsaid).trans hchannels⟩

end Track

/-- Without a payload type nothing is dropped until an encoding without channels declares one. The first value leaves the type
open, the second declares it, the third is dropped for it and the last is heard again. -/
example :
    Encoding.fold unsetPayloadType (["96 L16/8000/2", "+97 H264/90000", "98 H265/1", "097 H265/90000"].map String.toList) =
      (⟨97, "H265".toList, 90000, 2⟩, ["96 L16/8000/2", "+97 H264/90000", "097 H265/90000"].map String.toList) := by
  decide +kernel

end MediaSession
