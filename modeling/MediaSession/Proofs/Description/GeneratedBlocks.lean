import MediaSession.Proofs.Description.RoundTrip

/-!
# Generated descriptions are read back

A description that is generated for negotiated streams is read as its title and one track for each stream, in order. Under
a fixed payload type the track takes its rate and its channels from the table, and under any other from the encoding, which
begins with that type: so the encoding is never foreign, also not under the type that stands for no type at all. A rate of
zero is replaced by nothing, because no format parameters are generated.
-/

namespace MediaSession

/-! ## Codecs and their fixed payload types -/

/-- The name of a codec is one word without a slash. -/
theorem Codec.name_word (c : Codec) : c.name ≠ [] ∧ (∀ ch ∈ c.name, Text.isBlank ch = false) ∧ '/' ∉ c.name := by
  refine ⟨?_, Text.isBlank_eq_false_of_all ?_, ?_⟩
  · cases c <;> decide
  · cases c <;> decide
  · cases c <;> decide

theorem Codec.kind_eq_video_or_audio {c : Codec} (h : c ≠ .invalid) : c.kind = .video ∨ c.kind = .audio := by
  revert h
  cases c <;> decide

namespace PayloadTable

/-- The entry of a codec is the entry of its payload type, and for video it is no other than the usual one. -/
theorem find?_of_ofCodec? {c : Codec} {e : PayloadEntry} (h : ofCodec? c = some e) :
    find? e.payloadType = some e ∧ e.payloadType < firstDynamicPayloadType ∧
      (c.kind = .video → e.clockRate = defaultClockRate ∧ e.channels = 1) := by
  have hall : ∀ c : Codec, ∀ e ∈ ofCodec? c, find? e.payloadType = some e ∧ e.payloadType < firstDynamicPayloadType ∧
      (c.kind = .video → e.clockRate = defaultClockRate ∧ e.channels = 1) := by
    intro c
    cases c <;> decide
  exact hall c e h

/-- Payload types that are not fixed have no entry. -/
theorem find?_eq_none {p : UInt8} (h : firstDynamicPayloadType ≤ p) : find? p = none := by
  have hall : ∀ e ∈ entries, e.payloadType < firstDynamicPayloadType := by decide
  refine List.find?_eq_none.2 fun e he heq => ?_
  have hlt := hall e he
  rw [beq_iff_eq.1 heq] at hlt
  exact absurd h (UInt8.not_le.2 hlt)

end PayloadTable

/-! ## Lines of a block -/

namespace MediaBlock

/-- The bandwidth as it is read. -/
def bandwidth (b : MediaBlock) : Text :=
  if b.stream.bitRate.toNat / 1024 = 0 then [] else "AS:".toList ++ Text.ofNat (b.stream.bitRate.toNat / 1024)

/-- The rate of the encoding and, for audio, the number of channels. -/
def encodingRates (b : MediaBlock) : List Text :=
  Text.ofNat b.sampleRate.toNat :: if b.stream.kind = .audio then [Text.ofNat b.stream.channels.toNat] else []

/-- The value of the attribute of the encoding. -/
def encodingValue (b : MediaBlock) : Text :=
  Text.ofNat b.payloadType.toNat ++ ' ' :: ['/'].intercalate (b.stream.encodingName :: b.encodingRates)

/-- The lines after the media line as they are read. -/
def rereadLines (b : MediaBlock) : List Line :=
  (if b.bandwidth = [] then [] else [.bandwidth b.bandwidth]) ++
    if b.payloadType < firstDynamicPayloadType then [] else [.attribute ⟨"rtpmap".toList, b.encodingValue⟩]

theorem bandwidthLine_eq (b : MediaBlock) :
    b.bandwidthLine = if b.bandwidth = [] then [] else ["b=".toList ++ b.bandwidth] := by
  unfold bandwidthLine bandwidth
  extract_lets units
  by_cases h : units = 0
  · rw [if_pos h, if_pos h, if_pos rfl]
  · rw [if_neg h, if_neg h, if_neg (by simp)]
    rfl

theorem tidy_bandwidth (b : MediaBlock) : b.bandwidth.Tidy := by
  unfold bandwidth
  split
  · exact ⟨List.not_mem_nil, rfl⟩
  · exact Text.tidy_append_word (by decide) (Text.ofNat_ne_nil _) fun _ hc => Text.isBlank_eq_false_of_mem_ofNat hc

theorem encodingLine_eq (b : MediaBlock) :
    b.encodingLine = if b.payloadType < firstDynamicPayloadType then [] else
      ["a=".toList ++ "rtpmap".toList ++ ':' :: b.encodingValue] := by
  unfold encodingLine encodingValue encodingRates
  split
  · rfl
  · split <;> simp [List.intercalate]

theorem trimStart_encodingValue (b : MediaBlock) : Text.trimStart b.encodingValue = b.encodingValue :=
  Text.trimStart_append (Text.ofNat_ne_nil _) (fun _ hc => Text.isBlank_eq_false_of_mem_ofNat hc) _

/-- The value of the encoding begins with its payload type. -/
theorem leadingPayloadType?_encodingValue (b : MediaBlock) : Track.leadingPayloadType? b.encodingValue = some b.payloadType := by
  rw [Track.leadingPayloadType?_of_digits (fun _ hc => Text.isDigit_of_mem_ofNat hc) rfl b.trimStart_encodingValue,
    Text.readUInt8?_ofNat]

/-- A block whose encoding has the name of a codec. -/
structure Named (b : MediaBlock) : Prop where
  name_ne_nil : b.stream.encodingName ≠ []
  isBlank_eq_false : ∀ c ∈ b.stream.encodingName, Text.isBlank c = false
  slash_notMem : '/' ∉ b.stream.encodingName

/-- The rates are numerals. -/
theorem exists_of_mem_encodingRates {b : MediaBlock} {t : Text} (h : t ∈ b.encodingRates) : ∃ n, t = Text.ofNat n := by
  rcases List.mem_cons.1 h with rfl | h
  · exact ⟨_, rfl⟩
  · split at h
    · exact ⟨_, List.mem_singleton.1 h⟩
    · cases h

namespace Named

variable {b : MediaBlock} (h : b.Named)
include h

/-- The pieces of the encoding are those it is made of. -/
theorem splitOn_encoding :
    (['/'].intercalate (b.stream.encodingName :: b.encodingRates)).splitOn '/' = b.stream.encodingName :: b.encodingRates := by
  refine List.splitOn_intercalate _ ?_ (List.cons_ne_nil _ _)
  intro piece hp
  rcases List.mem_cons.1 hp with rfl | hp
  · exact h.slash_notMem
  · obtain ⟨n, rfl⟩ := exists_of_mem_encodingRates hp
    exact fun hm => absurd (Text.isDigit_of_mem_ofNat hm) (by decide)

/-- The encoding is one word. -/
theorem encoding_word :
    ['/'].intercalate (b.stream.encodingName :: b.encodingRates) ≠ [] ∧
      ∀ c ∈ ['/'].intercalate (b.stream.encodingName :: b.encodingRates), Text.isBlank c = false := by
  constructor
  · cases hr : b.encodingRates <;> simp [List.intercalate, h.name_ne_nil]
  · intro c hc
    rcases Text.eq_or_exists_of_mem_intercalate hc with rfl | ⟨piece, hp, hc⟩
    · rfl
    · rcases List.mem_cons.1 hp with rfl | hp
      · exact h.isBlank_eq_false c hc
      · obtain ⟨n, rfl⟩ := exists_of_mem_encodingRates hp
        exact Text.isBlank_eq_false_of_mem_ofNat hc

/-- The value of the encoding stands in one line and has no blank at its end. -/
theorem tidy_encodingValue : b.encodingValue.Tidy := by
  obtain ⟨hne, hblank⟩ := h.encoding_word
  have hdigits : '\n' ∉ Text.ofNat b.payloadType.toNat :=
    Text.lineFeed_notMem fun _ hc => Text.isBlank_eq_false_of_mem_ofNat hc
  have hends : b.encodingValue = (Text.ofNat b.payloadType.toNat ++ [' ']) ++
      ['/'].intercalate (b.stream.encodingName :: b.encodingRates) := by simp [encodingValue]
  rw [hends]
  exact Text.tidy_append_word (List.not_mem_append hdigits (by decide)) hne hblank

/-- The value of the encoding is read back. -/
theorem read?_encodingValue :
    Rtpmap.read? b.encodingValue = some ⟨b.payloadType, b.stream.encodingName, b.sampleRate,
      if b.stream.kind = .audio then some b.stream.channels else none⟩ := by
  obtain ⟨hne, hblank⟩ := h.encoding_word
  have htrim : Text.trim b.encodingValue = b.encodingValue := by
    rw [Text.trim, b.trimStart_encodingValue, h.tidy_encodingValue.2]
  have hstart : Text.trimStart (['/'].intercalate (b.stream.encodingName :: b.encodingRates)) =
      ['/'].intercalate (b.stream.encodingName :: b.encodingRates) := by
    have hword := Text.trimStart_append hne hblank []
    rwa [List.append_nil] at hword
  have hnumber : ∀ n : UInt32, Text.readUInt32? (Text.trim (Text.ofNat n.toNat)) = some n := by
    intro n
    rw [Text.trim_of_forall fun _ hc => Text.isBlank_eq_false_of_mem_ofNat hc, Text.readUInt32?_ofNat]
  have hencoding : Rtpmap.readEncoding? b.payloadType (['/'].intercalate (b.stream.encodingName :: b.encodingRates)) =
      some ⟨b.payloadType, b.stream.encodingName, b.sampleRate,
        if b.stream.kind = .audio then some b.stream.channels else none⟩ := by
    obtain ⟨c, name, hname⟩ := List.exists_cons_of_ne_nil h.name_ne_nil
    rw [Rtpmap.readEncoding?, h.splitOn_encoding, hname]
    by_cases haudio : b.stream.kind = .audio
    · rw [encodingRates, if_pos haudio, if_pos haudio]
      simp only [hnumber, Option.bind_some, Option.map_some]
    · rw [encodingRates, if_neg haudio, if_neg haudio]
      simp only [hnumber, Option.map_some]
  rw [Rtpmap.read?, htrim, encodingValue,
    Text.cutWhere?_append_cons (fun _ hc => Text.isBlank_eq_false_of_mem_ofNat hc) rfl]
  simp only [Option.bind_some, Text.readUInt8?_ofNat, hstart, hencoding]

/-- The lines of a block are read as its media line and the lines after it. -/
theorem readsAs_lines :
    List.Forall₂ Text.ReadsAs b.lines (.media (mediaValue b.stream.kind 0 b.payloadType) :: b.rereadLines) := by
  rw [lines, bandwidthLine_eq, encodingLine_eq]
  refine .cons (readsAs_mediaLine _ _ _) (List.rel_append ?_ ?_)
  · exact Line.readsAs_bandwidth b.tidy_bandwidth
  · split
    · exact .nil
    · have hline : Text.ReadsAs ("a=".toList ++ "rtpmap".toList ++ ':' :: b.encodingValue) _ :=
        Line.readsAs_attribute (by decide) (by decide) (by decide) h.tidy_encodingValue.1
      rw [h.tidy_encodingValue.2] at hline
      exact .cons hline .nil

end Named

theorem isMedia_of_mem_rereadLines {b : MediaBlock} {line : Line} (h : line ∈ b.rereadLines) : line.isMedia = false := by
  rcases List.mem_append.1 h with h | h
  · exact Line.isMedia_of_mem_bandwidth h
  · split at h
    · cases h
    · rw [List.mem_singleton.1 h]
      rfl

/-- The media line that offers the stream. -/
def offer (b : MediaBlock) : MediaLine :=
  { media := b.stream.kind.name, port := 0, portCount := none, transport := "RTP/AVP".toList, payloadType := b.payloadType }

/-- The track of a block before its attributes are looked at. -/
theorem addLines_rereadLines (b : MediaBlock) :
    (Track.ofMediaLine b.offer).addLines b.rereadLines =
      { Track.ofMediaLine b.offer with
        bandwidth := b.bandwidth
        attributes := if b.payloadType < firstDynamicPayloadType then [] else [⟨"rtpmap".toList, b.encodingValue⟩] } := by
  unfold rereadLines
  by_cases hb : b.bandwidth = []
  · rw [if_pos hb, hb]
    split <;> rfl
  · rw [if_neg hb]
    split <;> rfl

end MediaBlock

/-! ## Tracks of generated blocks -/

namespace Track

/-- A track that has neither a range nor a control address takes from its attributes the encoding alone. -/
theorem resolveAttributes_of_valuesOf {t : Track} (hrange : t.valuesOf "range".toList = [])
    (hcontrol : t.resolveEncoding.valuesOf "control".toList = []) : t.resolveAttributes = t.resolveEncoding := by
  have hstart : t.resolveRange = t := by
    rw [resolveRange, valueOf?, hrange]
    rfl
  rw [resolveAttributes, hstart, resolveControl, hcontrol]
  rfl

/-- A track without attributes says what its media line says. -/
theorem resolveAttributes_of_nil {t : Track} (h : t.attributes = []) : t.resolveAttributes = t := by
  have hwinnow : ∀ name apply, t.winnow name apply = t := by
    intro name apply
    rw [winnow, h, winnowFrom, ← h]
  have hencoding : t.resolveEncoding = t := by
    rw [resolveEncoding, hwinnow, hwinnow, ite_self]
  rw [resolveAttributes_of_valuesOf, hencoding]
  · rw [valuesOf, h]
    rfl
  · rw [hencoding, valuesOf, h]
    rfl

/-- Applying an encoding leaves the attributes as they are. -/
theorem attributes_applyRtpmap (t : Track) (value : Text) : (t.applyRtpmap value).attributes = t.attributes := by
  unfold applyRtpmap
  split <;> rfl

/-- A track whose only attribute is an encoding of its own takes this encoding. -/
theorem resolveAttributes_of_rtpmap {t : Track} {value : Text} (hk : t.kind ≠ .title)
    (h : t.attributes = [⟨"rtpmap".toList, value⟩]) (hown : leadingPayloadType? value = some t.payloadType) :
    t.resolveAttributes = t.applyRtpmap value := by
  have hforeign : t.isForeign value = false := by simp [isForeign, hown]
  have hkept : (t.applyRtpmap value).attributes = [⟨"rtpmap".toList, value⟩] := by rw [attributes_applyRtpmap, h]
  have hmap : winnowFrom "rtpmap".toList applyRtpmap t t.attributes =
      (t.applyRtpmap value, (t.applyRtpmap value).attributes) := by
    have hname : (Attribute.mk "rtpmap".toList value).name = "rtpmap".toList := rfl
    rw [hkept, h, winnowFrom, if_pos hname, hforeign, if_neg Bool.false_ne_true, winnowFrom]
  have hfmt : winnowFrom "fmtp".toList applyFormat (t.applyRtpmap value) (t.applyRtpmap value).attributes =
      (t.applyRtpmap value, (t.applyRtpmap value).attributes) := by
    have hname : (Attribute.mk "rtpmap".toList value).name ≠ "fmtp".toList := show "rtpmap".toList ≠ _ by decide
    rw [hkept, winnowFrom, if_neg hname, winnowFrom]
  have hencoding : t.resolveEncoding = t.applyRtpmap value := by
    have hwinnow : t.winnow "rtpmap".toList applyRtpmap = t.applyRtpmap value := by rw [winnow, hmap]
    rw [resolveEncoding, if_neg hk, hwinnow, winnow, hfmt]
  rw [resolveAttributes_of_valuesOf, hencoding]
  · rw [valuesOf, h]
    rfl
  · rw [hencoding, valuesOf, attributes_applyRtpmap, h]
    rfl

/-- Without format parameters the source of configured rates has no answer. -/
theorem suppliedRate_of_format_eq_nil {t : Track} (h : t.format = []) (hk : t.kind = .video → t.sampleRate ≠ 0) :
    t.suppliedRate configuredRate? = t.sampleRate := by
  have hnone : configuredRate? t = none := by
    rw [configuredRate?, h]
    split <;> rfl
  unfold suppliedRate
  split
  · rename_i hrate
    split
    · rename_i hvideo
      exact absurd hrate (hk hvideo)
    · rw [hnone, hrate]
      rfl
    · exact hrate.symm
  · rfl

end Track

/-! ## Descriptions of negotiated streams -/

namespace MediaBlock

/-- A block for a stream as its codec defines it, under a payload type that is not fixed or that is the fixed one of the
stream. -/
structure Negotiated (b : MediaBlock) : Prop where
  codec_ne_invalid : b.stream.codec ≠ .invalid
  kind_eq : b.stream.kind = b.stream.codec.kind
  encodingName_eq : b.stream.encodingName = b.stream.codec.name
  payloadType : firstDynamicPayloadType ≤ b.payloadType ∨ b.stream.fixedPayloadType? = some b.payloadType

/-- What a track says that is read from the block of a stream. -/
structure Describes (b : MediaBlock) (t : Track) : Prop where
  kind : t.kind = b.stream.codec.kind
  payloadType : t.payloadType = b.payloadType
  sampleRate : t.sampleRate = b.sampleRate
  /-- The rate is fixed for video, and for audio it is that of the stream, zero included. -/
  sampleRate_eq : t.sampleRate = if b.stream.codec.kind = .video then 90000 else b.stream.sampleRate
  channels : t.channels = if b.stream.codec.kind = .audio then b.stream.channels else 1
  /-- Under a fixed payload type the encoding is not named. -/
  codec : t.codec = if firstDynamicPayloadType ≤ b.payloadType then b.stream.codec.name else []
  bandwidth : t.bandwidth = if b.stream.bitRate.toNat / 1024 = 0 then [] else
    "AS:".toList ++ Text.ofNat (b.stream.bitRate.toNat / 1024)

namespace Negotiated

variable {b : MediaBlock} (h : b.Negotiated)
include h

theorem named : b.Named := by
  obtain ⟨hne, hblank, hslash⟩ := b.stream.codec.name_word
  exact ⟨by rwa [h.encodingName_eq], by rwa [h.encodingName_eq], by rwa [h.encodingName_eq]⟩

theorem kind_eq_video_or_audio : b.stream.kind = .video ∨ b.stream.kind = .audio := by
  rw [h.kind_eq]
  exact Codec.kind_eq_video_or_audio h.codec_ne_invalid

theorem ofMedia_name : TrackKind.ofMedia b.stream.kind.name = b.stream.kind :=
  (TrackKind.ofMedia_name_iff _).2 (TrackKind.ne_title_of_medium h.kind_eq_video_or_audio)

/-- Under a fixed payload type the table says what there is to say of the stream. -/
theorem fixed (hp : b.payloadType < firstDynamicPayloadType) :
    PayloadTable.clockRate b.payloadType = b.sampleRate ∧
      PayloadTable.channels b.payloadType = if b.stream.kind = .audio then b.stream.channels else 1 := by
  rcases h.payloadType with hdynamic | hfixed
  · exact absurd hp (UInt8.not_lt.2 hdynamic)
  · obtain ⟨e, he, hentry⟩ := Option.bind_eq_some_iff.1 hfixed
    obtain ⟨hfind, -, hvideo⟩ := PayloadTable.find?_of_ofCodec? he
    rw [← h.kind_eq] at hvideo
    split at hentry
    · cases hentry
    · rename_i hexact
      rw [← Option.some.inj hentry, PayloadTable.clockRate, PayloadTable.channels, hfind, sampleRate]
      simp only [Option.elim_some]
      rcases h.kind_eq_video_or_audio with hk | hk
      · obtain ⟨hrate, hchannels⟩ := hvideo hk
        simp [hk, hrate, hchannels]
      · have hsame : b.stream.sampleRate = e.clockRate ∧ b.stream.channels = e.channels := by
          simpa [hk, not_or] using hexact
        simp [hk, hsame]

/-- Before a missing rate is replaced, the track of a block says what the block was generated for. -/
theorem resolveAttributes_addLines : ∃ attributes,
    ((Track.ofMediaLine b.offer).addLines b.rereadLines).resolveAttributes =
      { kind := b.stream.kind
        payloadType := b.payloadType
        sampleRate := b.sampleRate
        channels := if b.stream.kind = .audio then b.stream.channels else 1
        bandwidth := b.bandwidth
        codec := if firstDynamicPayloadType ≤ b.payloadType then b.stream.encodingName else []
        attributes := attributes } := by
  have hmedia : Track.ofMediaLine b.offer =
      { kind := b.stream.kind, payloadType := b.payloadType, sampleRate := PayloadTable.clockRate b.payloadType,
        channels := PayloadTable.channels b.payloadType } := by
    rw [Track.ofMediaLine, offer, h.ofMedia_name]
  rw [b.addLines_rereadLines, hmedia]
  by_cases hp : b.payloadType < firstDynamicPayloadType
  · obtain ⟨hrate, hchannels⟩ := h.fixed hp
    refine ⟨[], ?_⟩
    rw [if_pos hp, if_neg (UInt8.not_le.2 hp), Track.resolveAttributes_of_nil rfl, hrate, hchannels]
  · have htitle : b.stream.kind ≠ .title := TrackKind.ne_title_of_medium h.kind_eq_video_or_audio
    have hdynamic : firstDynamicPayloadType ≤ b.payloadType := UInt8.not_lt.1 hp
    refine ⟨[⟨"rtpmap".toList, b.encodingValue⟩], ?_⟩
    rw [if_neg hp, if_pos hdynamic, Track.resolveAttributes_of_rtpmap htitle rfl b.leadingPayloadType?_encodingValue,
      Track.applyRtpmap, h.named.read?_encodingValue]
    rcases h.kind_eq_video_or_audio with hk | hk
    · have hone : PayloadTable.channels b.payloadType = 1 := by
        rw [PayloadTable.channels, PayloadTable.find?_eq_none hdynamic]
        rfl
      simp only [hk, hone, reduceCtorEq, if_false]
    · simp only [hk, if_true]

/-- The track that is read from a block says what the block was generated for. -/
theorem describes_ofBlock : b.Describes (Track.ofBlock b.offer b.rereadLines) := by
  obtain ⟨attributes, hsaid⟩ := h.resolveAttributes_addLines
  have hrate : b.stream.kind = .video → b.sampleRate ≠ 0 := by
    intro hk
    rw [sampleRate, if_pos hk]
    decide
  rw [Track.ofBlock, Track.resolve_eq, hsaid, Track.suppliedRate_of_format_eq_nil rfl hrate]
  exact
    { kind := h.kind_eq
      payloadType := rfl
      sampleRate := rfl
      sampleRate_eq := by rw [← h.kind_eq]; rfl
      channels := by rw [← h.kind_eq]
      codec := by rw [← h.encodingName_eq]
      bandwidth := rfl }

end Negotiated

end MediaBlock

namespace Session

/-- A generated description is read back. Read from the text of a title of any length and the texts of blocks for negotiated
streams, the tracks are one title, with the length that it states and live exactly when its length is zero or less, and one
track for each block, in order, which says what the block was generated for. -/
theorem read_generated (duration : Binary32) (blocks : List MediaBlock) (h : ∀ b ∈ blocks, b.Negotiated) :
    ∃ title media, (read (TitleBlock.text { duration } ++ blocks.flatMap MediaBlock.text)).tracks = title :: media ∧
      title.kind = .title ∧ title.isLive = duration.isNonpositive ∧
      title.duration = TitleBlock.statedDuration { duration } ∧
      List.Forall₂ MediaBlock.Describes blocks media := by
  have htext : TitleBlock.text { duration } ++ blocks.flatMap MediaBlock.text =
      Text.ofLines (TitleBlock.lines { duration } ++ blocks.flatMap MediaBlock.lines) := by
    rw [Text.ofLines_append, TitleBlock.text, Text.ofLines, Text.ofLines, List.flatMap_assoc]
    rfl
  have htracks := tracks_read_of_blocks (TitleBlock.readsAs_lines duration)
    (fun _ hl => TitleBlock.isMedia_of_mem_rereadLines hl) (fun b hb => (h b hb).named.readsAs_lines)
    (fun _ _ => MediaBlock.read?_mediaValue _ _ _) fun _ _ _ hl => MediaBlock.isMedia_of_mem_rereadLines hl
  refine ⟨_, _, by rw [htext]; exact htracks, ?_, ?_, ?_, ?_⟩
  · exact Track.kind_ofTitle _
  · rw [Track.ofTitle_rereadLines]
    exact TitleBlock.isNonpositive_statedDuration { duration }
  · rw [Track.ofTitle_rereadLines]
  · rw [List.forall₂_map_right_iff]
    exact List.forall₂_same.2 fun b hb => (h b hb).describes_ofBlock

/-- Blocks under a type that is not fixed, under a fixed type, and under the type that stands for none, with a rate of
zero. -/
def threeBlocks : List MediaBlock :=
  [⟨96, { Stream.video .h265 with bitRate := 1048576 }⟩, ⟨8, .audio .g711A 8000 1⟩, ⟨255, .audio .aac 0 2⟩]

theorem read_generated_of_threeBlocks :
    (∀ b ∈ threeBlocks, b.Negotiated) ∧
      ∃ title media, (read (TitleBlock.text { duration := .ofNat 30 } ++ threeBlocks.flatMap MediaBlock.text)).tracks =
        title :: media ∧ title.isLive = false ∧ title.duration = .ofNat 30 ∧
        List.Forall₂ MediaBlock.Describes threeBlocks media := by
  have hblocks : ∀ b ∈ threeBlocks, b.Negotiated := by
    intro b hb
    simp only [threeBlocks, List.mem_cons, List.not_mem_nil, or_false] at hb
    rcases hb with rfl | rfl | rfl
    · exact ⟨by decide, rfl, rfl, Or.inl (by decide)⟩
    · exact ⟨by decide, rfl, rfl, Or.inr (by decide)⟩
    · exact ⟨by decide, rfl, rfl, Or.inl (by decide)⟩
  have hpositive : (Binary32.ofNat 30).isNonpositive = false := by decide +kernel
  obtain ⟨title, media, htracks, -, hlive, hduration, hmedia⟩ := read_generated (.ofNat 30) threeBlocks hblocks
  refine ⟨hblocks, title, media, htracks, hlive.trans hpositive, ?_, hmedia⟩
  rw [hduration, TitleBlock.statedDuration, hpositive]
  rfl

end Session

end MediaSession
