import MediaSession.Proofs.Description.NormalForm

/-!
# Attributes that are written and read again

What an `a` line says is written as one line again. This line says the same, unless the first one had blanks between the name
and a colon with nothing after it: the colon is not written, so the blanks are at the end of the line and are trimmed. Then the
name is another one, and the attribute may be taken for one that is looked at.

The attributes of a video or audio track stay in their order when the track is written, all but the control addresses before
the last one. A track that is read from them keeps all of them that are not foreign to it, which are all when its payload type
was declared from the beginning and no name has changed.
-/

namespace MediaSession

namespace Track

/-! ## Attributes that a track keeps -/

/-- Whether a track whose payload type is settled keeps an attribute: not if it is an encoding or format parameters and
foreign to the track. -/
def retains (t : Track) (a : Attribute) : Bool :=
  !((a.name == "rtpmap".toList || a.name == "fmtp".toList) && t.isForeign a.value)

/-- Without a payload type every attribute is kept. -/
theorem retains_of_undeclared {t : Track} (ht : t.payloadType = unsetPayloadType) (a : Attribute) : t.retains a = true := by
  simp [retains, isForeign, ht]

/-- With one, an attribute is kept when it is kept as an encoding and as format parameters. -/
theorem retains_of_declared {t : Track} (ht : t.payloadType ≠ unsetPayloadType) (a : Attribute) :
    t.retains a = (keeps "rtpmap".toList t.payloadType a && keeps "fmtp".toList t.payloadType a) := by
  have hforeign : t.isForeign a.value = !(leadingPayloadType? a.value == some t.payloadType) := by simp [isForeign, ht, bne]
  rw [retains, hforeign, keeps, keeps, bne, bne]
  cases a.name == "rtpmap".toList <;> cases a.name == "fmtp".toList <;>
    cases leadingPayloadType? a.value == some t.payloadType <;> rfl

/-- What a track with a declared payload type is left with is what it keeps. -/
theorem keptAttributes_eq_filter {t : Track} (ht : t.payloadType ≠ unsetPayloadType) :
    t.keptAttributes = t.attributes.filter t.retains := by
  rw [keptAttributes, List.filter_filter]
  refine List.filter_congr fun a _ => ?_
  rw [retains_of_declared ht, Bool.and_comm]

/-- A track that was read under a declared payload type keeps all that it is left with. -/
theorem retains_of_mem_ofBlock {m : MediaLine} (hm : m.payloadType ≠ unsetPayloadType) (hmedia : m.media ≠ [])
    {lines : List Line} {a : Attribute} (ha : a ∈ (ofBlock m lines).attributes) : (ofBlock m lines).retains a = true := by
  have hp := payloadType_ofBlock hm hmedia lines
  rw [attributes_ofBlock hm hmedia lines, keptAttributes, payloadType_addLines, List.mem_filter, List.mem_filter] at ha
  rw [retains_of_declared (by rw [hp]; exact hm), hp, ha.1.2, ha.2]
  rfl

/-! ## Written tracks -/

/-- The lines of a written track give the attributes that are written, each as it is read. -/
theorem filterMap_attribute?_rereadLines (t : Track) :
    t.rereadLines.filterMap Line.attribute? = t.writtenAttributes.map Attribute.reread := by
  have hlines := attributes_addLines (ofMediaLine (t.offer 0)) t.rereadLines
  rw [addLines_rereadLines] at hlines
  exact hlines.symm

/-- Of the attributes that are written, a track that is read again has those that it keeps. -/
theorem attributes_reread {t : Track} (h : t.payloadType = unsetPayloadType → ∀ a ∈ t.attributes, ¬ a.Declares)
    (port : UInt16) :
    (t.reread port).attributes = (t.writtenAttributes.map Attribute.reread).filter t.retains := by
  have hraw := addLines_rereadLines t port
  by_cases ht : t.payloadType = unsetPayloadType
  · have hundeclared : ∀ a ∈ ((ofMediaLine (t.offer port)).addLines t.rereadLines).attributes, ¬ a.Declares := by
      rw [hraw, List.forall_mem_map]
      exact fun a ha hd => h ht a (mem_attributes_of_mem_writtenAttributes ha) (Attribute.declares_of_reread hd)
    have hkept := (resolveAttributes_of_undeclared ((payloadType_addLines _ _).trans ht) hundeclared).2
    rw [Track.reread, ofBlock, resolve_eq, List.filter_eq_self.2 fun a _ => retains_of_undeclared ht a]
    exact hkept.trans (by rw [hraw])
  · have hkept : ((ofMediaLine (t.offer port)).addLines t.rereadLines).retains = t.retains := by
      funext a
      rw [retains, retains, isForeign, isForeign, payloadType_addLines]
      rfl
    rw [Track.reread, attributes_ofBlock ht t.kind.name_word.1, keptAttributes_eq_filter (by rw [payloadType_addLines]; exact ht),
      hkept, hraw]

/-- Attributes that are read as they are written stay the same. -/
theorem map_reread_writtenAttributes {t : Track} (h : ∀ a ∈ t.attributes, a.reread = a) :
    t.writtenAttributes.map Attribute.reread = t.writtenAttributes := by
  rw [List.map_congr_left fun a ha => h a (mem_attributes_of_mem_writtenAttributes ha), List.map_id']

end Track

namespace Session

section

variable {x : Text} {t : Track} (ht : t ∈ (read x).tracks)
include ht

/-- The attributes of a track of a medium are those of lines of the description. -/
theorem attribute_mem_of_mem_read (hk : t.kind ≠ .title) {a : Attribute} (ha : a ∈ t.attributes) :
    .attribute a ∈ Line.readAll x := by
  obtain ⟨m, -, -, lines, hlines, rfl⟩ := exists_of_mem_read ht hk
  have hraw := (Track.sublist_ofBlock m lines).subset ha
  rw [Track.attributes_addLines] at hraw
  obtain ⟨line, hl, hline⟩ := List.mem_filterMap.1 hraw
  rw [Line.eq_attribute_of_attribute? hline] at hl
  exact hlines _ hl

/-- Under declared payload types a track of a medium keeps all its attributes. -/
theorem retains_of_mem_read (hx : ∀ m ∈ mediaLines x, m.payloadType ≠ unsetPayloadType) (hk : t.kind ≠ .title)
    {a : Attribute} (ha : a ∈ t.attributes) : t.retains a = true := by
  obtain ⟨m, hm, hmedia, lines, -, rfl⟩ := exists_of_mem_read ht hk
  exact Track.retains_of_mem_ofBlock (hx m hm) hmedia ha

/-- A track of a medium that has no payload type has no attribute that declares one. -/
theorem not_declares_of_mem_read (hk : t.kind ≠ .title) (hp : t.payloadType = unsetPayloadType) :
    ∀ a ∈ t.attributes, ¬ a.Declares := by
  obtain ⟨m, -, hmedia, lines, -, rfl⟩ := exists_of_mem_read ht hk
  exact Track.not_declares_ofBlock hmedia hp

/-- The text of a video or audio track is read as a title and this track again. -/
theorem exists_tracks_read_text (hk : t.kind = .video ∨ t.kind = .audio) (port : UInt16) :
    ∃ title, (read (t.text port)).tracks = [title, t.reread port] ∧ title.kind = .title := by
  have htidy := tidy_of_mem_read ht (TrackKind.ne_title_of_medium hk)
  obtain ⟨title, htracks, htitle⟩ := tracks_read_ofLines .nil (fun _ h => absurd h List.not_mem_nil) [t]
    (fun u hu => List.mem_singleton.1 hu ▸ htidy) port
  refine ⟨title, ?_, htitle⟩
  rw [text_of_medium hk]
  simpa using htracks

/-- Its lines give the attributes that are written, each as it is read. -/
theorem filterMap_attribute?_readAll_text (hk : t.kind = .video ∨ t.kind = .audio) (port : UInt16) :
    (Line.readAll (t.text port)).filterMap Line.attribute? = t.writtenAttributes.map Attribute.reread := by
  have htidy := tidy_of_mem_read ht (TrackKind.ne_title_of_medium hk)
  rw [text_of_medium hk, Line.readAll_ofLines_of_readsAs (htidy.readsAs_lines port)]
  exact t.filterMap_attribute?_rereadLines

end

/-- The attributes of a description are written and read again, in three parts.
1. The line of an attribute that was read is read as this attribute, but for the blanks at the end of its name where it has no
   value. These are lost exactly when the line from which it was read has them before a colon at its end.
2. The lines of a video or audio track give all its attributes in order, but the control addresses before the last one, which
   comes at the end. The track that is read from them has those of these that it keeps.
3. Where no line of the description loses blanks the lines give the very same attributes, and where the media lines declare
   their payload types the track has all of them again. -/
theorem attributes_read_back (x : Text) :
    (∀ line ∈ x.splitOn '\n', ∀ a, Line.read? (Text.trim line) = some (.attribute a) →
      Text.ReadsAs a.write (.attribute a.reread) ∧ (a.reread = a ↔ ¬ Text.LosesBlank line)) ∧
    ∀ t ∈ (read x).tracks, t.kind = .video ∨ t.kind = .audio → ∀ port : UInt16,
      ∃ title t', (read (t.text port)).tracks = [title, t'] ∧ title.kind = .title ∧ t'.kind = t.kind ∧
        (Line.readAll (t.text port)).filterMap Line.attribute? = t.writtenAttributes.map Attribute.reread ∧
        t'.attributes = (t.writtenAttributes.map Attribute.reread).filter t.retains ∧
        ((∀ line ∈ x.splitOn '\n', ¬ Text.LosesBlank line) →
          (Line.readAll (t.text port)).filterMap Line.attribute? = t.writtenAttributes ∧
          ((∀ m ∈ mediaLines x, m.payloadType ≠ unsetPayloadType) → t'.attributes = t.writtenAttributes)) := by
  constructor
  · intro line hline a ha
    have hfeed := Text.notMem_of_mem_splitOn hline
    obtain ⟨value, -, htidy, rfl⟩ := Line.exists_tidy_of_read?_attribute hfeed ha
    exact ⟨Attribute.read?_trim_write htidy, Line.reread_eq_iff hfeed ha⟩
  · intro t ht hk port
    have hmedium := TrackKind.ne_title_of_medium hk
    obtain ⟨title, htracks, htitle⟩ := exists_tracks_read_text ht hk port
    have hlines := filterMap_attribute?_readAll_text ht hk port
    have hattrs := Track.attributes_reread (not_declares_of_mem_read ht hmedium) port
    refine ⟨title, _, htracks, htitle, Track.kind_reread hmedium port, hlines, hattrs, fun hx => ?_⟩
    have hwritten := Track.map_reread_writtenAttributes fun a ha =>
      Line.reread_of_mem_readAll hx (attribute_mem_of_mem_read ht hmedium ha)
    rw [hwritten] at hlines hattrs
    refine ⟨hlines, fun hdeclared => hattrs.trans (List.filter_eq_self.2 fun a ha => ?_)⟩
    exact retains_of_mem_read ht hdeclared hmedium (Track.mem_attributes_of_mem_writtenAttributes ha)

/-- An offer of one video block with the given attribute lines. -/
def attributeOffer (lines : List String) : Text := Text.ofLines (("v=0" :: "m=video 0 RTP/AVP 26" :: lines).map String.toList)

/-- Attributes with blanks and colons in odd places, none of which loses a blank. -/
def oddColons : Text := attributeOffer ["a=range :x", "a= tool:y ", "a=:z", "a=sendonly:", "a=control:a", "a=control:b", "a=a b"]

theorem attributes_read_back_of_oddColons :
    (∀ line ∈ oddColons.splitOn '\n', ¬ Text.LosesBlank line) ∧
      (∀ m ∈ mediaLines oddColons, m.payloadType ≠ unsetPayloadType) ∧
      ("a=range :x\x0d".toList ∈ oddColons.splitOn '\n' ∧
        Line.read? (Text.trim "a=range :x\x0d".toList) = some (.attribute ⟨"range ".toList, ['x']⟩) ∧
        Text.ReadsAs (Attribute.write ⟨"range ".toList, ['x']⟩) (.attribute ⟨"range ".toList, ['x']⟩)) ∧
      ∃ t ∈ (read oddColons).tracks, t.kind = .video ∧ ∃ title t', (read (t.text 0)).tracks = [title, t'] ∧
        t'.attributes.map (fun a => (String.ofList a.name, String.ofList a.value)) =
          [("range ", "x"), (" tool", "y"), (":z", ""), ("sendonly", ""), ("a b", ""), ("control", "b")] := by
  have blanks : ∀ line ∈ oddColons.splitOn '\n', ¬ Text.LosesBlank line := by decide +kernel
  have declared : ∀ m ∈ mediaLines oddColons, m.payloadType ≠ unsetPayloadType := by decide +kernel
  have hline : "a=range :x\x0d".toList ∈ oddColons.splitOn '\n' := by decide +kernel
  have hread : Line.read? (Text.trim "a=range :x\x0d".toList) = some (.attribute ⟨"range ".toList, ['x']⟩) := by decide +kernel
  obtain ⟨hlines, htracks⟩ := attributes_read_back oddColons
  obtain ⟨hwritten, hsame⟩ := hlines _ hline _ hread
  rw [hsame.2 (blanks _ hline)] at hwritten
  obtain ⟨t, ht⟩ : ∃ t, (read oddColons).tracks[1]? = some t := Option.isSome_iff_exists.1 (by decide +kernel)
  have hsays : (read oddColons).tracks[1]?.map (fun t => (t.kind, t.writtenAttributes)) = some (.video,
      [⟨"range ".toList, ['x']⟩, ⟨" tool".toList, ['y']⟩, ⟨":z".toList, []⟩, ⟨"sendonly".toList, []⟩, ⟨"a b".toList, []⟩,
        ⟨"control".toList, ['b']⟩]) := by decide +kernel
  rw [ht, Option.map_some, Option.some.injEq, Prod.mk.injEq] at hsays
  obtain ⟨title, t', htext, -, -, -, -, hkept⟩ := htracks t (List.mem_of_getElem? ht) (Or.inl hsays.1) 0
  refine ⟨blanks, declared, ⟨hline, hread, hwritten⟩, t, List.mem_of_getElem? ht, hsays.1, title, t', htext, ?_⟩
  rw [(hkept blanks).2 declared, hsays.2]
  decide +kernel

/-- A block that lasts ten seconds, with a blank before a colon that nothing follows. -/
def blankOffer : Text := attributeOffer ["a=range :", "a=range:npt=0-10"]

/-- An attribute that is not looked at is taken for a range when it is written and read again, and the range after it does not
count any more. -/
theorem exists_attribute_taken_for_range :
    "a=range :\x0d".toList ∈ blankOffer.splitOn '\n' ∧
      Line.read? (Text.trim "a=range :\x0d".toList) = some (.attribute ⟨"range ".toList, []⟩) ∧
      Line.read? (Text.trim (Attribute.write ⟨"range ".toList, []⟩)) = some (.attribute ⟨"range".toList, []⟩) ∧
      ((read blankOffer).tracks.map fun t => (t.kind, t.attributes, t.isLive)) =
        [(.title, [], true),
          (.video, [⟨"range ".toList, []⟩, ⟨"range".toList, "npt=0-10".toList⟩], false)] ∧
      ((read (read blankOffer).text).tracks.map fun t => (t.kind, t.attributes, t.isLive)) =
        [(.title, [⟨"range".toList, "npt=now-".toList⟩, ⟨"control".toList, ['*']⟩], true),
          (.video, [⟨"range".toList, []⟩, ⟨"range".toList, "npt=0-10".toList⟩], true)] := by
  decide +kernel

end Session

end MediaSession
