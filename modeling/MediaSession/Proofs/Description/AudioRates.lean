import MediaSession.Proofs.Description.GeneratedBlocks

/-!
# Sample rates of audio blocks

What a block with format parameters says of its encoding and its rate (`encoding_ofBlock`), and where the rate of an audio
track comes from when its block has one encoding and one line of format parameters for a payload type that is never fixed.
The encoding is read as a whole or not at all. If it is read, its rate counts, and for a rate of zero the format parameters
of an AAC track give the rate. If it is not read, the track has no encoding name and keeps the rate of the table, which is
not zero: so the format parameters are not asked for the rate of an encoding without any.
-/

namespace MediaSession

/-- An encoding that gives no rate is not read. -/
theorem Rtpmap.read?_of_no_rate {value : Text} (h : '/' ∉ value) : read? value = none := by
  unfold read?
  cases hcut : Text.cutWhere? Text.isBlank (Text.trim value) with
  | none => rfl
  | some parts =>
    obtain ⟨word, encoding⟩ := parts
    obtain ⟨-, blank, -, htrim⟩ := Text.eq_of_cutWhere? hcut
    have hslash : '/' ∉ Text.trimStart encoding := by
      intro hm
      refine h (Text.mem_of_mem_trim ?_)
      rw [htrim]
      exact List.mem_append_right _ (List.mem_cons_of_mem _ ((List.dropWhile_sublist _).subset hm))
    cases hp : Text.readUInt8? word with
    | none => simp [hp]
    | some p => simp [hp, readEncoding?, Text.splitOn_of_notMem hslash]

/-- A payload type that is never fixed counts as one at the usual rate. -/
theorem PayloadTable.clockRate_of_dynamic {p : UInt8} (h : firstDynamicPayloadType ≤ p) : clockRate p = defaultClockRate := by
  rw [clockRate, find?_eq_none h]
  rfl

/-- An audio block under a payload type that is never fixed, with one encoding and one line of format parameters for it. -/
structure MediaLine.OffersAudio (m : MediaLine) (lines : List Line) (encoding parameters : Text) : Prop where
  audio : TrackKind.ofMedia m.media = .audio
  dynamic : firstDynamicPayloadType ≤ m.payloadType
  declared : m.payloadType ≠ unsetPayloadType
  encodings : Track.valuesFor "rtpmap".toList m.payloadType (lines.filterMap Line.attribute?) = [encoding]
  formats : Track.valuesFor "fmtp".toList m.payloadType (lines.filterMap Line.attribute?) = [parameters]

namespace Track

variable {m : MediaLine} {lines : List Line} {encoding parameters : Text}

/-- What the encodings for the payload type of a media line say, in order. -/
def encodedBy (m : MediaLine) (attrs : List Attribute) : Track :=
  (valuesFor "rtpmap".toList m.payloadType attrs).foldl applyRtpmap (ofMediaLine m)

/-- Encodings say the same under whatever lines they stand. -/
theorem foldl_applyRtpmap_agrees {t u : Track} (hkind : t.kind = u.kind) (hcodec : t.codec = u.codec)
    (hrate : t.sampleRate = u.sampleRate) (values : List Text) :
    (values.foldl applyRtpmap t).kind = (values.foldl applyRtpmap u).kind ∧
      (values.foldl applyRtpmap t).codec = (values.foldl applyRtpmap u).codec ∧
      (values.foldl applyRtpmap t).sampleRate = (values.foldl applyRtpmap u).sampleRate := by
  refine List.foldl_rel (r := fun t u : Track => t.kind = u.kind ∧ t.codec = u.codec ∧ t.sampleRate = u.sampleRate)
    ⟨hkind, hcodec, hrate⟩ ?_
  rintro value - t u ⟨hk, hc, hr⟩
  unfold applyRtpmap
  split
  · exact ⟨hk, rfl, rfl⟩
  · exact ⟨hk, rfl, rfl⟩
  · exact ⟨hk, hc, hr⟩

/-- Of several values the last one counts, and it counts for the format parameters alone. -/
theorem foldl_applyFormat {values : List Text} {value : Text} (h : values.getLast? = some value) (t : Track) :
    values.foldl applyFormat t = t.applyFormat value := by
  obtain ⟨earlier, rfl⟩ := List.getLast?_eq_some_iff.1 h
  obtain ⟨format, heq⟩ : ∃ format, earlier.foldl applyFormat t = { t with format := format } := by
    refine List.foldlRecOn (motive := fun u : Track => ∃ format, u = { t with format := format }) _ _ ⟨t.format, rfl⟩ ?_
    rintro u ⟨format, rfl⟩ value -
    exact ⟨_, rfl⟩
  rw [List.foldl_append, heq]
  rfl

/-- The track of a block has the encoding name that the encodings of its payload type say, the format parameters that the last
value gives, and the rate of the encodings unless that is zero. -/
theorem encoding_ofBlock (hm : m.payloadType ≠ unsetPayloadType) (hmedia : m.media ≠ [])
    (hlast : (valuesFor "fmtp".toList m.payloadType (lines.filterMap Line.attribute?)).getLast? = some parameters) :
    (ofBlock m lines).codec = (encodedBy m (lines.filterMap Line.attribute?)).codec ∧
      (ofBlock m lines).format = ((ofMediaLine m).applyFormat parameters).format ∧
      (ofBlock m lines).sampleRate = suppliedRate configuredRate?
        { encodedBy m (lines.filterMap Line.attribute?) with format := ((ofMediaLine m).applyFormat parameters).format } := by
  obtain ⟨hk, hp⟩ := declared_addLines hm hmedia lines
  have hsame := (resolveAttributes_of_declared hk hp).1
  have hattrs : ((ofMediaLine m).addLines lines).attributes = lines.filterMap Line.attribute? := attributes_addLines _ _
  have hraw := sameMedia_addLines (ofMediaLine m) lines
  obtain ⟨hkind, hcodec, hrate⟩ := foldl_applyRtpmap_agrees (u := ofMediaLine m) hraw.kind hraw.codec hraw.sampleRate
    (valuesFor "rtpmap".toList m.payloadType (lines.filterMap Line.attribute?))
  rw [encoded, payloadType_addLines, hattrs, foldl_applyFormat hlast] at hsame
  rw [ofBlock, resolve_eq]
  exact ⟨hsame.codec.trans hcodec, hsame.format, hsame.suppliedRate.trans (suppliedRate_congr hkind hcodec hrate rfl)⟩

/-- For audio a rate of zero is replaced by the one in the format parameters, if the encoding is known to have it there. -/
theorem suppliedRate_of_audio {t : Track} (h : t.kind = .audio) :
    suppliedRate configuredRate? t =
      if t.sampleRate = 0 then
        if Codec.ofName t.codec = .aac then (AudioConfig.sampleRateOfParameters? t.format).getD 0 else 0
      else t.sampleRate := by
  unfold suppliedRate configuredRate?
  rw [h]
  by_cases haac : Codec.ofName t.codec = .aac
  · simp only [haac, if_true]
    rfl
  · simp only [haac, if_false]
    rfl

/-- What a lone encoding gives: nothing at all if it is not read, and else its name and its rate, for which a rate of zero
leaves an AAC track to its format parameters. -/
theorem ofBlock_of_offersAudio (hmedia : m.media ≠ []) (h : m.OffersAudio lines encoding parameters) :
    (Rtpmap.read? encoding = none →
      (ofBlock m lines).codec = [] ∧ (ofBlock m lines).sampleRate = defaultClockRate) ∧
    ∀ e, Rtpmap.read? encoding = some e → (ofBlock m lines).codec = e.codec ∧
      (ofBlock m lines).sampleRate =
        if e.sampleRate = 0 then
          if Codec.ofName e.codec = .aac then
            (AudioConfig.sampleRateOfParameters? (Text.trimStart (parameters.dropWhile Char.isDigit))).getD 0
          else 0
        else e.sampleRate := by
  have hlast : (valuesFor "fmtp".toList m.payloadType (lines.filterMap Line.attribute?)).getLast? = some parameters := by
    rw [h.formats]
    rfl
  have hencoded : encodedBy m (lines.filterMap Line.attribute?) = (ofMediaLine m).applyRtpmap encoding := by
    rw [encodedBy, h.encodings]
    rfl
  obtain ⟨hcodec, -, hrate⟩ := encoding_ofBlock h.declared hmedia hlast
  rw [hcodec, hrate, hencoded]
  constructor
  · intro hnone
    have hkeeps : (ofMediaLine m).applyRtpmap encoding = ofMediaLine m := by rw [applyRtpmap, hnone]
    rw [hkeeps, suppliedRate_of_audio h.audio]
    simp [ofMediaLine, PayloadTable.clockRate_of_dynamic h.dynamic, defaultClockRate]
  · rintro ⟨p, codec, rate, channels⟩ hsome
    rw [applyRtpmap, hsome]
    cases channels with
    | none => exact ⟨rfl, suppliedRate_of_audio h.audio⟩
    | some n => exact ⟨rfl, suppliedRate_of_audio h.audio⟩

end Track

namespace Session

/-- The track of a block comes after the title and the tracks of the blocks before it. -/
theorem getElem?_tracks_read {text value : Text} {before after : List (Text × List Line)} {lines : List Line} {m : MediaLine}
    (hblocks : (Line.sections (Line.readAll text)).2 = before ++ (value, lines) :: after)
    (hvalue : MediaLine.read? value = some m) :
    (read text).tracks[1 + (before.filterMap blockTrack?).length]? = some (.ofBlock m lines) := by
  have hblock : blockTrack? (value, lines) = some ((Track.ofMediaLine m).addLines lines) := by rw [blockTrack?, hvalue]; rfl
  rw [tracks_read, tracksWith_eq, rawTracks_eq]
  simp only [hblocks, List.filterMap_append, List.filterMap_cons_some hblock, List.map_cons, List.map_append]
  rw [Nat.add_comm, List.getElem?_cons_succ, List.getElem?_append_right (by simp)]
  simp [Track.ofBlock]

/-- The rate of an audio block with a lone encoding, whose format parameters give a rate, in two parts.
1. Without a rate in the encoding the track has no encoding name and the usual rate, whatever the encoding is called and
   whatever the format parameters give.
2. An encoding that is read gives its name, and its rate unless that is zero; in place of zero an AAC track has the rate of
   the format parameters. -/
theorem rate_of_offersAudio {text value : Text} {before after : List (Text × List Line)} {lines : List Line} {m : MediaLine}
    {encoding parameters : Text} {rate : UInt32}
    (hblocks : (Line.sections (Line.readAll text)).2 = before ++ (value, lines) :: after)
    (hvalue : MediaLine.read? value = some m) (h : m.OffersAudio lines encoding parameters)
    (hrate : AudioConfig.sampleRateOfParameters? (Text.trimStart (parameters.dropWhile Char.isDigit)) = some rate) :
    ∃ t, (read text).tracks[1 + (before.filterMap blockTrack?).length]? = some t ∧
      ('/' ∉ encoding → t.codec = [] ∧ t.sampleRate = defaultClockRate) ∧
      ∀ e, Rtpmap.read? encoding = some e → t.codec = e.codec ∧
        t.sampleRate =
          if e.sampleRate = 0 then if Codec.ofName e.codec = .aac then rate else 0 else e.sampleRate := by
  obtain ⟨hunread, hread⟩ := Track.ofBlock_of_offersAudio (MediaLine.media_ne_nil hvalue) h
  rw [hrate] at hread
  exact ⟨_, getElem?_tracks_read hblocks hvalue, fun hslash => hunread (Rtpmap.read?_of_no_rate hslash), hread⟩

/-- The value of a media line for audio under payload type 97. -/
def aacMediaValue : Text := "audio 0 RTP/AVP 97".toList

/-- The format parameters of an AAC track, with a configuration for 44100 Hz. -/
def aacParameters : Text := "streamtype=5;mode=AAC-hbr;config=1210".toList

/-- The lines of an AAC block under that payload type, with the given text after the encoding name. -/
def aacLines (suffix : Text) : List Line :=
  [.attribute ⟨"rtpmap".toList, "97 mpeg4-generic".toList ++ suffix⟩, .attribute ⟨"fmtp".toList, "97 ".toList ++ aacParameters⟩]

/-- A description of one such block. -/
def aacOffer (suffix : Text) : Text :=
  Text.ofLines ["v=0".toList, "m=".toList ++ aacMediaValue, "a=rtpmap:97 mpeg4-generic".toList ++ suffix,
    "a=fmtp:97 ".toList ++ aacParameters]

theorem offersAudio_aacLines {suffix : Text} {m : MediaLine} (h : MediaLine.read? aacMediaValue = some m) :
    m.OffersAudio (aacLines suffix) ("97 mpeg4-generic".toList ++ suffix) ("97 ".toList ++ aacParameters) := by
  have hm : MediaLine.read? aacMediaValue = some ⟨"audio".toList, 0, none, "RTP/AVP".toList, 97⟩ := by decide +kernel
  rw [hm] at h
  obtain rfl := Option.some.inj h
  exact ⟨rfl, by decide, by decide, rfl, rfl⟩

/-- A rate of zero is replaced by the rate of the configuration. -/
theorem rate_of_offersAudio_of_zero :
    ∃ m, (Line.sections (Line.readAll (aacOffer "/0".toList))).2 = [(aacMediaValue, aacLines "/0".toList)] ∧
      MediaLine.read? aacMediaValue = some m ∧
      m.OffersAudio (aacLines "/0".toList) "97 mpeg4-generic/0".toList ("97 ".toList ++ aacParameters) ∧
      AudioConfig.sampleRateOfParameters? aacParameters = some 44100 ∧
      ∃ t, (read (aacOffer "/0".toList)).tracks[1]? = some t ∧ t.codec = "mpeg4-generic".toList ∧ t.sampleRate = 44100 := by
  have hblocks : (Line.sections (Line.readAll (aacOffer "/0".toList))).2 =
      [] ++ (aacMediaValue, aacLines "/0".toList) :: [] := by decide +kernel
  have hrate : AudioConfig.sampleRateOfParameters? aacParameters = some 44100 := by decide +kernel
  obtain ⟨m, hvalue⟩ : ∃ m, MediaLine.read? aacMediaValue = some m := Option.isSome_iff_exists.1 (by decide +kernel)
  have hoffer : m.OffersAudio (aacLines "/0".toList) "97 mpeg4-generic/0".toList ("97 ".toList ++ aacParameters) :=
    offersAudio_aacLines hvalue
  obtain ⟨t, ht, -, hread⟩ := rate_of_offersAudio hblocks hvalue hoffer hrate
  obtain ⟨hcodec, hsampleRate⟩ := hread ⟨97, "mpeg4-generic".toList, 0, none⟩ (by decide +kernel)
  exact ⟨m, hblocks, hvalue, hoffer, hrate, t, ht, hcodec, hsampleRate⟩

/-- Without a rate the configuration is not looked at: the track has no encoding name and the usual rate. -/
theorem exists_rate_not_recovered :
    ∃ m, (Line.sections (Line.readAll (aacOffer []))).2 = [(aacMediaValue, aacLines [])] ∧
      MediaLine.read? aacMediaValue = some m ∧
      m.OffersAudio (aacLines []) "97 mpeg4-generic".toList ("97 ".toList ++ aacParameters) ∧
      AudioConfig.sampleRateOfParameters? aacParameters = some 44100 ∧
      ((read (aacOffer [])).tracks.map fun t => (t.kind, t.codec, t.sampleRate)) =
        [(.title, [], 0), (.audio, [], 90000)] := by
  obtain ⟨m, hvalue⟩ : ∃ m, MediaLine.read? aacMediaValue = some m := Option.isSome_iff_exists.1 (by decide +kernel)
  exact ⟨m, by decide +kernel, hvalue, offersAudio_aacLines hvalue, by decide +kernel, by decide +kernel⟩

end Session

end MediaSession
