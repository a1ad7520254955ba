import MediaSession.Proofs.Description.Rereading

/-!
# Encodings of other payload types

An `rtpmap` or `fmtp` line that does not begin with the payload type of its block leaves no trace: the description with the
line and the description without it are read as the same tracks, and the source of sample rates is asked the same. Such a
line is dropped before it could be applied, and the attributes that are kept decide by themselves what a track of declared
payload type says. So the two descriptions are compared block by block: only one block differs, by one attribute that is not
kept.
-/

namespace MediaSession

namespace Track

/-! ## Kept attributes decide -/

theorem keptAttributes_keptAttributes (t : Track) :
    keptAttributes { t with attributes := t.keptAttributes } = t.keptAttributes := by
  simp only [keptAttributes, List.filter_filter]
  apply List.filter_congr
  intro a _
  cases keeps "rtpmap".toList t.payloadType a <;> simp

/-- The times of a track come from an attribute that is kept. -/
theorem resolveRange_keptAttributes (t : Track) :
    resolveRange { t with attributes := t.keptAttributes } = { t.resolveRange with attributes := t.keptAttributes } := by
  have hrange : valueOf? { t with attributes := t.keptAttributes } "range".toList = t.valueOf? "range".toList := by
    simp only [valueOf?, valuesOf, keptAttributes]
    rw [filter_name_filter_keeps (by decide), filter_name_filter_keeps (by decide)]
  unfold resolveRange
  rw [hrange]
  split <;> rfl

/-- The encoding of a track of declared payload type comes from attributes that are kept. -/
theorem resolveEncoding_keptAttributes {t : Track} (hk : t.kind ≠ .title) (ht : t.payloadType ≠ unsetPayloadType) :
    resolveEncoding { t with attributes := t.keptAttributes } = t.resolveEncoding := by
  have hencoded : encoded { t with attributes := t.keptAttributes } = { t.encoded with attributes := t.keptAttributes } := by
    simp only [encoded, valuesFor_keptAttributes]
    rw [foldl_attributes applyRtpmap_attributes, foldl_attributes applyFormat_attributes]
  rw [resolveEncoding_of_declared hk ht,
    resolveEncoding_of_declared (t := { t with attributes := t.keptAttributes }) hk ht, hencoded,
    keptAttributes_keptAttributes]

/-- The attributes that are kept decide what a track of declared payload type says. -/
theorem resolveAttributes_keptAttributes {t : Track} (hk : t.kind ≠ .title) (ht : t.payloadType ≠ unsetPayloadType) :
    resolveAttributes { t with attributes := t.keptAttributes } = t.resolveAttributes := by
  obtain ⟨hkind, hp, hkept⟩ : t.resolveRange.kind = t.kind ∧ t.resolveRange.payloadType = t.payloadType ∧
      t.resolveRange.keptAttributes = t.keptAttributes := by
    obtain ⟨start, stop, duration, hrange⟩ := t.exists_resolveRange_eq
    rw [hrange]
    exact ⟨rfl, rfl, rfl⟩
  rw [resolveAttributes, resolveAttributes, resolveRange_keptAttributes, ← hkept,
    resolveEncoding_keptAttributes (by rw [hkind]; exact hk) (by rw [hp]; exact ht)]

/-- Tracks of one declared payload type that keep the same attributes say the same. -/
theorem resolveAttributes_congr {t u : Track} (hk : t.kind ≠ .title) (ht : t.payloadType ≠ unsetPayloadType)
    (hu : u = { t with attributes := u.attributes }) (h : u.keptAttributes = t.keptAttributes) :
    u.resolveAttributes = t.resolveAttributes := by
  have hkind : u.kind = t.kind := by rw [hu]
  have hp : u.payloadType = t.payloadType := by rw [hu]
  rw [← resolveAttributes_keptAttributes hk ht,
    ← resolveAttributes_keptAttributes (by rw [hkind]; exact hk) (by rw [hp]; exact ht), h]
  congr 1
  rw [hu]

/-! ## Values of other payload types -/

/-- Blanks at the end of a value do not count for the payload type that it begins with. -/
theorem leadingPayloadType?_trimEnd (value : Text) :
    leadingPayloadType? (Text.trimEnd value) = leadingPayloadType? value := by
  obtain ⟨blanks, hvalue, hblanks⟩ : ∃ blanks : Text, Text.trimEnd value ++ blanks = value ∧
      ∀ c ∈ blanks, Text.isBlank c = true :=
    ⟨value.rtakeWhile Text.isBlank, List.rdropWhile_append_rtakeWhile, fun _ hc => List.mem_rtakeWhile_imp hc⟩
  have hdrop : blanks.dropWhile Text.isBlank = [] := List.dropWhile_eq_nil_iff.2 hblanks
  have htake : blanks.takeWhile Char.isDigit = [] := by
    cases blanks with
    | nil => rfl
    | cons c rest =>
      exact List.takeWhile_cons_of_neg (by simp [Text.isDigit_eq_false_of_isBlank (hblanks c List.mem_cons_self)])
  rw [leadingPayloadType?, leadingPayloadType?]
  conv_rhs => rw [← hvalue]
  rw [Text.trimStart, Text.trimStart, List.dropWhile_append]
  split
  · rename_i hempty
    rw [hdrop, List.isEmpty_iff.1 hempty]
  · rw [List.takeWhile_append, htake, List.append_nil]
    split
    · rename_i hall
      rw [(List.takeWhile_prefix _).eq_of_length hall]
    · rfl

/-- The names of the attributes that name a payload type. -/
def encodingNames : List Text := ["rtpmap".toList, "fmtp".toList]

/-- An attribute under one of these names that does not begin with the declared payload type is not kept. -/
theorem keptAttributes_append_cons {t : Track} {before after : List Attribute} {a : Attribute}
    (hname : a.name ∈ encodingNames) (hforeign : leadingPayloadType? a.value ≠ some t.payloadType) :
    keptAttributes { t with attributes := before ++ a :: after } =
      keptAttributes { t with attributes := before ++ after } := by
  have hdropped : (keeps "rtpmap".toList t.payloadType a && keeps "fmtp".toList t.payloadType a) = false := by
    simp only [encodingNames, List.mem_cons, List.not_mem_nil, or_false] at hname
    rcases hname with hname | hname <;> simp [keeps, hname, hforeign]
  simp only [keptAttributes, List.filter_filter, List.filter_append]
  rw [List.filter_cons_of_neg (by rw [Bool.and_comm, hdropped]; decide)]

end Track

/-! ## Lines of a block -/

/-- A foreign attribute anywhere among the lines of a track of declared payload type changes nothing that it says. -/
theorem Track.resolveAttributes_addLines_of_foreign {t : Track} {a : Attribute} (hk : t.kind ≠ .title)
    (ht : t.payloadType ≠ unsetPayloadType) (hname : a.name ∈ encodingNames)
    (hforeign : leadingPayloadType? a.value ≠ some t.payloadType) (lines : List Line) :
    (t.addLines (.attribute a :: lines)).resolveAttributes = (t.addLines lines).resolveAttributes := by
  have hwith : t.addLines (.attribute a :: lines) = { t.addLines lines with
      attributes := t.attributes ++ a :: lines.filterMap Line.attribute? } := by
    have hadd : t.addLines (.attribute a :: lines) = addLines { t with attributes := t.attributes ++ [a] } lines := rfl
    rw [hadd, addLines_of_attributes, List.append_assoc, List.singleton_append]
  have hsame := sameMedia_addLines t lines
  have hp : (t.addLines lines).payloadType = t.payloadType := hsame.payloadType
  rw [hwith]
  refine resolveAttributes_congr (by rw [hsame.kind]; exact hk) (by rw [hp]; exact ht) rfl ?_
  rw [keptAttributes_append_cons hname (by rw [hp]; exact hforeign), ← attributes_addLines]

/-- The last `m` line cuts lines in two: what comes before it, and what belongs to its block. -/
theorem Line.exists_append_of_getLast? {lines : List Line} {value : Text}
    (h : (lines.filterMap mediaValue?).getLast? = some value) :
    ∃ before own, lines = before ++ .media value :: own ∧ ∀ line ∈ own, line.isMedia = false := by
  induction lines using List.reverseRecOn with
  | nil => cases h
  | append_singleton lines line ih =>
    cases hm : line.isMedia with
    | true =>
      obtain ⟨v, rfl⟩ := eq_media_of_isMedia hm
      have hlast : [Line.media v].filterMap mediaValue? = [v] := rfl
      rw [List.filterMap_append, hlast, List.getLast?_concat] at h
      obtain rfl := Option.some.inj h
      exact ⟨lines, [], rfl, fun _ hl => absurd hl List.not_mem_nil⟩
    | false =>
      have hnone : line.mediaValue? = none := by
        cases line with
        | media value => cases hm
        | _ => rfl
      rw [List.filterMap_append, List.filterMap_cons_none hnone, List.filterMap_nil, List.append_nil] at h
      obtain ⟨before, own, rfl, hown⟩ := ih h
      refine ⟨before, own ++ [line], by simp, ?_⟩
      intro l hl
      rcases List.mem_append.1 hl with hl | hl
      · exact hown l hl
      · rwa [List.mem_singleton.1 hl]

/-! ## Descriptions with one more line -/

/-- The text with one more line, after the given number of its lines. -/
def Text.insertLine (t : Text) (place : Nat) (line : Text) : Text :=
  ['\n'].intercalate ((t.splitOn '\n').take place ++ line :: (t.splitOn '\n').drop place)

namespace Session

/-- The lines among the first ones of a text. -/
def readFirst (t : Text) (count : Nat) : List Line :=
  ((t.splitOn '\n').take count).filterMap fun line => Line.read? (Text.trim line)

/-- The media line of the block that goes on after the given number of lines, if there is one and it can be read. -/
def mediaLineAt? (t : Text) (place : Nat) : Option MediaLine :=
  ((readFirst t place).filterMap Line.mediaValue?).getLast?.bind MediaLine.read?

/-- One more line is read between the lines before it and the lines after it. -/
theorem readAll_insertLine (t : Text) (place : Nat) {line : Text} {l : Line} (h : Text.ReadsAs line l) :
    ∃ after, Line.readAll t = readFirst t place ++ after ∧
      Line.readAll (t.insertLine place line) = readFirst t place ++ l :: after := by
  refine ⟨((t.splitOn '\n').drop place).filterMap fun line => Line.read? (Text.trim line), ?_, ?_⟩
  · rw [readFirst, ← List.filterMap_append, List.take_append_drop, Line.readAll]
  · have hsplit : (t.insertLine place line).splitOn '\n' =
        (t.splitOn '\n').take place ++ line :: (t.splitOn '\n').drop place := by
      refine List.splitOn_intercalate _ ?_ (by simp)
      intro piece hp
      rcases List.mem_append.1 hp with hp | hp
      · exact Text.notMem_of_mem_splitOn (List.mem_of_mem_take hp)
      · rcases List.mem_cons.1 hp with rfl | hp
        · exact h.1
        · exact Text.notMem_of_mem_splitOn (List.mem_of_mem_drop hp)
    rw [Line.readAll, hsplit, List.filterMap_append, List.filterMap_cons, h.2]
    rfl

/-- Reading depends on what the attributes of each track say. -/
theorem readWith_congr {m : Type → Type} [Monad m] (source : RateSource m) {x y : Text}
    (h : List.Forall₂ (fun t u : Track => t.resolveAttributes = u.resolveAttributes) (rawTracks (Line.readAll x))
      (rawTracks (Line.readAll y))) : readWith source x = readWith source y := by
  unfold readWith List.mapM
  generalize rawTracks (Line.readAll x) = ts at h
  generalize rawTracks (Line.readAll y) = us at h
  have hloop : ∀ done, List.mapM.loop (Track.resolve source) ts done = List.mapM.loop (Track.resolve source) us done := by
    induction h with
    | nil => exact fun _ => rfl
    | cons htu _ ih =>
      intro done
      rw [List.mapM.loop, List.mapM.loop, Track.resolve, Track.resolve, htu]
      exact congrArg _ (funext fun t => ih (t :: done))
  rw [hloop]

/-- Two descriptions that differ in one foreign attribute of one block say the same of every track. -/
theorem forall₂_rawTracks {before own after : List Line} {value : Text} {media : MediaLine} {a : Attribute}
    (hread : MediaLine.read? value = some media) (hdeclared : media.payloadType ≠ unsetPayloadType)
    (hown : ∀ line ∈ own, line.isMedia = false) (hname : a.name ∈ Track.encodingNames)
    (hforeign : Track.leadingPayloadType? a.value ≠ some media.payloadType) :
    List.Forall₂ (fun t u : Track => t.resolveAttributes = u.resolveAttributes)
      (rawTracks (before ++ .media value :: (own ++ .attribute a :: after)))
      (rawTracks (before ++ .media value :: (own ++ after))) := by
  have hblock : ∀ rest : List Line, (rawTracks (.media value :: (own ++ rest))).tail =
      ((Track.ofMediaLine media).addLines own).addLines (Line.sections rest).1 ::
        (Line.sections rest).2.filterMap blockTrack? := by
    intro rest
    simp [rawTracks_eq, Line.sections, Line.sections_append_of_forall hown, blockTrack?, hread, Track.addLines]
  have hkind := Track.kind_addLines_ne_title (MediaLine.media_ne_nil hread) own
  have hpayload := Track.payloadType_addLines media own
  have hrefl : ∀ ts : List Track, List.Forall₂ (fun t u : Track => t.resolveAttributes = u.resolveAttributes) ts ts :=
    fun _ => List.forall₂_same.2 fun _ _ => rfl
  have hattr : Line.sections (.attribute a :: after) = (.attribute a :: (Line.sections after).1, (Line.sections after).2) :=
    Line.sections_cons_of_not_isMedia rfl after
  rw [rawTracks_append_media, rawTracks_append_media, hblock, hblock, hattr]
  refine List.rel_append (hrefl _) (.cons ?_ (hrefl _))
  exact Track.resolveAttributes_addLines_of_foreign hkind (by rw [hpayload]; exact hdeclared) hname
    (by rw [hpayload]; exact hforeign) _

/-- An encoding or format parameters of another payload type leave no trace. When a line that gives them is added
anywhere to the block of a media line that declares its payload type, the same tracks are read as without it, and the
source of sample rates is asked the same. -/
theorem readWith_insertLine_of_foreign {m : Type → Type} [Monad m] (source : RateSource m) {x : Text} {place : Nat}
    {media : MediaLine} (hmedia : mediaLineAt? x place = some media) (hdeclared : media.payloadType ≠ unsetPayloadType)
    {name value : Text} (hname : name ∈ Track.encodingNames) (hvalue : '\n' ∉ value)
    (hforeign : Track.leadingPayloadType? value ≠ some media.payloadType) :
    readWith source (x.insertLine place ("a=".toList ++ name ++ ':' :: value)) = readWith source x := by
  have hline : Text.ReadsAs ("a=".toList ++ name ++ ':' :: value) (.attribute ⟨name, Text.trimEnd value⟩) := by
    have hnames := hname
    simp only [Track.encodingNames, List.mem_cons, List.not_mem_nil, or_false] at hnames
    rcases hnames with rfl | rfl
    · exact Line.readsAs_attribute (by decide) (by decide) (by decide) hvalue
    · exact Line.readsAs_attribute (by decide) (by decide) (by decide) hvalue
  obtain ⟨after, hx, hx'⟩ := readAll_insertLine x place hline
  obtain ⟨v, hlast, hread⟩ := Option.bind_eq_some_iff.1 hmedia
  obtain ⟨before, own, hfirst, hown⟩ := Line.exists_append_of_getLast? hlast
  have hassoc : ∀ rest : List Line, before ++ .media v :: own ++ rest = before ++ .media v :: (own ++ rest) := by simp
  apply readWith_congr
  rw [hx, hx', hfirst, hassoc, hassoc]
  exact forall₂_rawTracks hread hdeclared hown hname (by rwa [Track.leadingPayloadType?_trimEnd])

/-- An offer whose audio block leaves its rate to the source. -/
def rateless : Text :=
  Text.ofLines (["m=video 0 RTP/AVP 26", "m=audio 0 RTP/AVP 97", "a=rtpmap:97 mpeg4-generic/0",
    "a=control:b"].map String.toList)

/-- A source that keeps account of the encodings it was asked about. -/
def countedRates : RateSource (StateM (List Text)) := fun t => do
  modify (t.codec :: ·)
  return some 44100

/-- Format parameters of another payload type after the first line of the audio block. -/
theorem readWith_insertLine_of_rateless :
    mediaLineAt? rateless 2 = some ⟨"audio".toList, 0, none, "RTP/AVP".toList, 97⟩ ∧
      Track.leadingPayloadType? "98 config=1190".toList ≠ some 97 ∧
      readWith countedRates (rateless.insertLine 2 ("a=".toList ++ "fmtp".toList ++ ':' :: "98 config=1190".toList)) =
        readWith countedRates rateless ∧
      ((readWith countedRates rateless).run []).2 = ["mpeg4-generic".toList] := by
  have hmedia : mediaLineAt? rateless 2 = some ⟨"audio".toList, 0, none, "RTP/AVP".toList, 97⟩ := by decide +kernel
  have hforeign : Track.leadingPayloadType? "98 config=1190".toList ≠ some 97 := by decide
  refine ⟨hmedia, hforeign, ?_, by decide +kernel⟩
  have hname : "fmtp".toList ∈ Track.encodingNames := by decide
  exact readWith_insertLine_of_foreign countedRates hmedia (by decide) hname (by decide) hforeign

end Session

end MediaSession
