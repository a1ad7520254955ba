import MediaSession.Proofs.Description.Rereading
import MediaSession.Proofs.Description.Titles

/-!
# Sessions that are written and read again

The text of a session is its title and the last video and audio track, each as one block. Reading it gives one track for
each of these blocks, and each says the same of its medium as the track it was written from. The same holds for the text of
a single track.
-/

namespace MediaSession

/-! ## Lines of blocks -/

namespace Line

/-- Lines of blocks, each after its `m` line, are taken apart into these blocks. -/
theorem sections_flatMap {own : List Line} (hown : ∀ line ∈ own, line.isMedia = false)
    (blocks : List (Text × List Line)) (hblocks : ∀ block ∈ blocks, ∀ line ∈ block.2, line.isMedia = false) :
    sections (own ++ blocks.flatMap fun block => .media block.1 :: block.2) = (own, blocks) := by
  induction blocks generalizing own with
  | nil => rw [List.flatMap_nil, List.append_nil, sections_of_forall hown]
  | cons block blocks ih =>
    rw [List.flatMap_cons, List.cons_append, sections_append_media, sections_of_forall hown,
      ih (hblocks block List.mem_cons_self) fun b hb => hblocks b (List.mem_cons_of_mem _ hb)]
    rfl

/-- The lines of a block are lines of the description. -/
theorem mem_of_mem_sections {lines : List Line} {block : Text × List Line} (hb : block ∈ (sections lines).2) {line : Line}
    (hl : line ∈ block.2) : line ∈ lines := by
  have hown : ∀ {lines : List Line} {line : Line}, line ∈ (sections lines).1 → line ∈ lines := by
    intro lines line h
    induction lines with
    | nil => exact h
    | cons first rest ih =>
      cases hm : first.isMedia with
      | true =>
        obtain ⟨value, rfl⟩ := eq_media_of_isMedia hm
        cases h
      | false =>
        rw [sections_cons_of_not_isMedia hm] at h
        rcases List.mem_cons.1 h with rfl | h
        · exact List.mem_cons_self
        · exact List.mem_cons_of_mem _ (ih h)
  induction lines with
  | nil => cases hb
  | cons first rest ih =>
    cases hm : first.isMedia with
    | true =>
      obtain ⟨value, rfl⟩ := eq_media_of_isMedia hm
      rcases List.mem_cons.1 hb with rfl | hb
      · exact List.mem_cons_of_mem _ (hown hl)
      · exact List.mem_cons_of_mem _ (ih hb)
    | false =>
      rw [sections_cons_of_not_isMedia hm] at hb
      exact List.mem_cons_of_mem _ (ih hb)

end Line

/-! ## Tracks of written blocks -/

namespace Track

theorem isMedia_of_mem_rereadLines {t : Track} {line : Line} (h : line ∈ t.rereadLines) : line.isMedia = false := by
  rcases List.mem_append.1 h with h | h
  · exact Line.isMedia_of_mem_bandwidth h
  · obtain ⟨a, -, rfl⟩ := List.mem_map.1 h
    rfl

end Track

namespace Session

theorem tracks_read (text : Text) : (read text).tracks = tracksWith Track.configuredRate? text := rfl

/-- A track of a medium is that of a block whose media line can be read. -/
theorem exists_block_of_mem_read {text : Text} {t : Track} (ht : t ∈ (read text).tracks) (hk : t.kind ≠ .title) :
    ∃ block ∈ (Line.sections (Line.readAll text)).2, ∃ m, MediaLine.read? block.1 = some m ∧ t = .ofBlock m block.2 := by
  rw [tracks_read, tracksWith_eq] at ht
  obtain ⟨raw, hraw, rfl⟩ := List.mem_map.1 ht
  obtain rfl | ⟨block, hblock, m, hread, rfl⟩ := eq_of_mem_rawTracks hraw
  · exact absurd ((Track.kind_resolve _ _).trans (Track.kind_port_addLines _ _).1) hk
  · exact ⟨block, hblock, m, hread, rfl⟩

/-- A track of a medium comes from a media line that can be read and from lines of the description after it. -/
theorem exists_of_mem_read {text : Text} {t : Track} (ht : t ∈ (read text).tracks) (hk : t.kind ≠ .title) :
    ∃ m ∈ mediaLines text, m.media ≠ [] ∧ ∃ lines, (∀ line ∈ lines, line ∈ Line.readAll text) ∧ t = .ofBlock m lines := by
  obtain ⟨block, hblock, m, hread, rfl⟩ := exists_block_of_mem_read ht hk
  refine ⟨m, ?_, MediaLine.media_ne_nil hread, block.2, ?_, rfl⟩
  · rw [mediaLines_eq]
    exact List.mem_filterMap.2 ⟨block, hblock, hread⟩
  · exact fun line hl => Line.mem_of_mem_sections hblock hl

/-- A text that is made of lines that begin no block and of the lines of blocks, one for each item, is read as the title of
the former and one track for each item. -/
theorem tracks_read_of_blocks {written : List Text} {own : List Line} (hwritten : List.Forall₂ Text.ReadsAs written own)
    (hown : ∀ line ∈ own, line.isMedia = false) {α : Type} {items : List α} {lines : α → List Text} {value : α → Text}
    {offer : α → MediaLine} {rest : α → List Line}
    (hlines : ∀ a ∈ items, List.Forall₂ Text.ReadsAs (lines a) (.media (value a) :: rest a))
    (hvalue : ∀ a ∈ items, MediaLine.read? (value a) = some (offer a))
    (hrest : ∀ a ∈ items, ∀ line ∈ rest a, line.isMedia = false) :
    (read (Text.ofLines (written ++ items.flatMap lines))).tracks =
      .ofTitle own :: items.map fun a => .ofBlock (offer a) (rest a) := by
  have hitems : List.Forall₂ Text.ReadsAs (items.flatMap lines)
      ((items.map fun a => (value a, rest a)).flatMap fun block => .media block.1 :: block.2) := by
    clear hvalue hrest
    induction items with
    | nil => exact .nil
    | cons a items ih =>
      rw [List.map_cons, List.flatMap_cons, List.flatMap_cons]
      exact List.rel_append (hlines a List.mem_cons_self) (ih fun b hb => hlines b (List.mem_cons_of_mem _ hb))
  have hsections := Line.sections_flatMap hown (items.map fun a => (value a, rest a)) (by
    intro block hb line hl
    obtain ⟨a, ha, rfl⟩ := List.mem_map.1 hb
    exact hrest a ha line hl)
  have htracks : (items.map fun a => (value a, rest a)).filterMap blockTrack? =
      items.map fun a => (Track.ofMediaLine (offer a)).addLines (rest a) := by
    rw [List.filterMap_map, ← List.filterMap_eq_map]
    refine List.filterMap_congr fun a ha => ?_
    rw [Function.comp_apply, blockTrack?, hvalue a ha]
    rfl
  rw [tracks_read, tracksWith_eq, Line.readAll_ofLines_of_readsAs (List.rel_append hwritten hitems)]
  simp only [rawTracks_eq, hsections, htracks, List.map_cons, List.map_map, Track.ofTitle]
  refine congrArg (List.cons _) (List.map_congr_left fun a _ => ?_)
  rw [Function.comp_apply, Track.ofBlock]

/-- A text that is made of lines that begin no block and of written tracks is read as the title of the former and the
tracks that are read from the latter. -/
theorem tracks_read_of_lines {written : List Text} {own : List Line} (hwritten : List.Forall₂ Text.ReadsAs written own)
    (hown : ∀ line ∈ own, line.isMedia = false) {ts : List Track} (hts : ∀ t ∈ ts, t.Tidy) (port : UInt16) :
    (read (Text.ofLines (written ++ ts.flatMap fun t => t.lines port))).tracks =
      .ofTitle own :: ts.map fun t => t.reread port :=
  tracks_read_of_blocks hwritten hown (fun t ht => (hts t ht).readsAs_lines port)
    (fun _ _ => MediaBlock.read?_mediaValue _ _ _) fun _ _ _ hl => Track.isMedia_of_mem_rereadLines hl

/-- A text that is made of lines that begin no block and of written tracks is read as a title and these tracks. -/
theorem tracks_read_ofLines {written : List Text} {own : List Line} (hwritten : List.Forall₂ Text.ReadsAs written own)
    (hown : ∀ line ∈ own, line.isMedia = false) (ts : List Track) (hts : ∀ t ∈ ts, t.Tidy) (port : UInt16) :
    ∃ title, (read (Text.ofLines (written ++ ts.flatMap fun t => t.lines port))).tracks =
      title :: ts.map (fun t => t.reread port) ∧ title.kind = .title :=
  ⟨_, tracks_read_of_lines hwritten hown hts port, Track.kind_ofTitle own⟩

/-! ## The text of a session -/

/-- The last track of a kind is a track of the session and of that kind. -/
theorem mem_kind_of_last? {s : Session} {kind : TrackKind} {t : Track} (h : s.last? kind = some t) :
    t ∈ s.tracks ∧ t.kind = kind := by
  obtain ⟨hmem, hkind⟩ := List.mem_filter.1 (List.mem_of_getLast? h)
  exact ⟨hmem, beq_iff_eq.1 hkind⟩

/-- The text of a video or audio track is the text of its lines. -/
theorem text_of_medium {t : Track} (h : t.kind = .video ∨ t.kind = .audio) (port : UInt16) :
    t.text port = Text.ofLines (t.lines port) := by
  rcases h with h | h <;> simp only [Track.text, h]

/-- The last video and the last audio track of a session, as far as there are any. -/
def lastMedia (s : Session) : List Track := (s.last? .video).toList ++ (s.last? .audio).toList

theorem mem_kind_of_mem_lastMedia {s : Session} {t : Track} (h : t ∈ s.lastMedia) :
    t ∈ s.tracks ∧ (t.kind = .video ∨ t.kind = .audio) := by
  rcases List.mem_append.1 h with h | h
  · obtain ⟨hmem, hkind⟩ := mem_kind_of_last? (Option.mem_toList.1 h)
    exact ⟨hmem, Or.inl hkind⟩
  · obtain ⟨hmem, hkind⟩ := mem_kind_of_last? (Option.mem_toList.1 h)
    exact ⟨hmem, Or.inr hkind⟩

/-- The title of a session that was read is its only one. -/
theorem last?_title_of_mem {x : Text} {t : Track} (ht : t ∈ (read x).tracks) (hk : t.kind = .title) :
    (read x).last? .title = some t := by
  obtain ⟨title, media, htracks, htitle, hmedia, -⟩ := exists_tracksWith_eq_cons Track.configuredRate? x
  have hrest : media.filter (·.kind == .title) = [] := List.filter_eq_nil_iff.2 fun t ht => by simpa using hmedia t ht
  rw [tracks_read, htracks] at ht
  rcases List.mem_cons.1 ht with rfl | ht
  · rw [last?, tracks_read, htracks, List.filter_cons_of_pos (by simp [htitle]), hrest]
    rfl
  · exact absurd hk (hmedia t ht)

theorem exists_last?_title (x : Text) : ∃ title, (read x).last? .title = some title ∧ title.kind = .title := by
  obtain ⟨title, media, htracks, htitle, -⟩ := exists_tracksWith_eq_cons Track.configuredRate? x
  exact ⟨title, last?_title_of_mem (by rw [tracks_read, htracks]; exact List.mem_cons_self) htitle, htitle⟩

/-- The text of a session with a title is made of the lines of the title and of the last track of each kind. -/
theorem text_of_title {s : Session} {title : Track} (htitle : s.last? .title = some title) (hkind : title.kind = .title) :
    s.text = Text.ofLines (TitleBlock.lines { duration := title.duration } ++
      s.lastMedia.flatMap fun t => t.lines 0) := by
  have hblock : ∀ kind : TrackKind, kind = .video ∨ kind = .audio →
      ((s.last? kind).elim [] fun t => t.text 0) =
        Text.ofLines ((s.last? kind).toList.flatMap fun t => t.lines 0) := by
    intro kind hk
    cases ht : s.last? kind with
    | none => rfl
    | some t =>
      have htext := text_of_medium (t := t) (by rw [(mem_kind_of_last? ht).2]; exact hk) 0
      simpa using htext
  have htext : title.text 0 = Text.ofLines (TitleBlock.lines { duration := title.duration }) := by
    simp only [Track.text, hkind, TitleBlock.text]
  rw [lastMedia, List.flatMap_append, Text.ofLines_append, Text.ofLines_append, ← hblock _ (Or.inl rfl),
    ← hblock _ (Or.inr rfl), ← htext]
  simp only [text, List.flatMap_cons, List.flatMap_nil, List.append_nil, htitle]
  rfl

/-- The text of a session that was read is made of the lines of its title and of the last track of each kind. -/
theorem text_read (x : Text) :
    ∃ duration : Binary32, (read x).text =
      Text.ofLines (TitleBlock.lines { duration } ++ (read x).lastMedia.flatMap fun t => t.lines 0) := by
  obtain ⟨title, htitle, hkind⟩ := exists_last?_title x
  exact ⟨title.duration, text_of_title htitle hkind⟩

/-- The track of a medium that was read is tidy. -/
theorem tidy_of_mem_read {x : Text} {t : Track} (ht : t ∈ (read x).tracks) (hk : t.kind ≠ .title) : t.Tidy := by
  obtain ⟨m, -, -, lines, hlines, rfl⟩ := exists_of_mem_read ht hk
  exact Track.tidy_ofBlock m fun line hl => Line.tidy_of_mem_readAll (hlines line hl)

/-- A video or audio track of a description whose media lines declare their payload types is tidy, and it says the same of
its medium when it is written under any port and read again. -/
theorem reread_of_mem_read {x : Text} (hx : ∀ m ∈ mediaLines x, m.payloadType ≠ unsetPayloadType) {t : Track}
    (ht : t ∈ (read x).tracks) (hk : t.kind = .video ∨ t.kind = .audio) :
    t.Tidy ∧ ∀ port, t.SameMedia (t.reread port) := by
  have hmedium := TrackKind.ne_title_of_medium hk
  refine ⟨tidy_of_mem_read ht hmedium, ?_⟩
  obtain ⟨m, hm, hne, lines, -, rfl⟩ := exists_of_mem_read ht hmedium
  exact Track.sameMedia_reread (hx m hm) hne lines

/-- A description whose media lines declare their payload types keeps what it says of its media when it is read, written
and read again, in two parts.
1. The text of the session is read as one title, then one track for its last video track if it has one, and one for its
   last audio track if it has one, and each of them says the same of its medium.
2. The text of a single video or audio track under any port is read as a title and one track, which has this port and says
   the same of its medium. -/
theorem read_text_read (x : Text) (hx : ∀ m ∈ mediaLines x, m.payloadType ≠ unsetPayloadType) :
    (∃ title media, (read (read x).text).tracks = title :: media ∧ title.kind = .title ∧
      List.Forall₂ Track.SameMedia (((read x).last? .video).toList ++ ((read x).last? .audio).toList) media) ∧
    ∀ t ∈ (read x).tracks, t.kind = .video ∨ t.kind = .audio → ∀ port : UInt16,
      ∃ title t', (read (t.text port)).tracks = [title, t'] ∧ title.kind = .title ∧ t.SameMedia t' ∧ t'.port = port := by
  constructor
  · obtain ⟨duration, htext⟩ := text_read x
    obtain ⟨own, hwritten, hown⟩ := TitleBlock.exists_readsAs_lines duration
    have hlast : ∀ t ∈ (read x).lastMedia, t.Tidy ∧ ∀ port, t.SameMedia (t.reread port) := by
      intro t ht
      obtain ⟨hmem, hk⟩ := mem_kind_of_mem_lastMedia ht
      exact reread_of_mem_read hx hmem hk
    obtain ⟨title, htracks, htitle⟩ := tracks_read_ofLines hwritten hown (read x).lastMedia (fun t ht => (hlast t ht).1) 0
    refine ⟨title, _, by rw [htext]; exact htracks, htitle, ?_⟩
    rw [List.forall₂_map_right_iff]
    exact List.forall₂_same.2 fun t ht => (hlast t ht).2 0
  · intro t ht hk port
    obtain ⟨htidy, hsame⟩ := reread_of_mem_read hx ht hk
    obtain ⟨title, htracks, htitle⟩ := tracks_read_ofLines .nil (fun _ h => absurd h List.not_mem_nil) [t]
      (fun u hu => List.mem_singleton.1 hu ▸ htidy) port
    refine ⟨title, t.reread port, ?_, htitle, hsame port, t.port_reread port⟩
    rw [text_of_medium hk]
    simpa using htracks

/-- An offer with two audio blocks. The second holds an encoding of another payload type, leaves its rate to the format
parameters, and has blanks after a name without a value; the video block has two control addresses. -/
def mixedOffer : Text :=
  Text.ofLines (["m=audio 0 RTP/AVP 0", "m=audio 8 RTP/AVP 97", "a=rtpmap:96 L8/1", "a=rtpmap:97 mpeg4-generic/0",
    "a=fmtp:97 config=1210", "a=control :", "a=control:b ", "m=video 0 RTP/AVP 26", "a=control:x",
    "a=control:y:1"].map String.toList)

theorem read_text_read_of_mixedOffer :
    (∀ m ∈ mediaLines mixedOffer, m.payloadType ≠ unsetPayloadType) ∧
      ((read mixedOffer).tracks.map fun t => (t.kind, t.sampleRate, t.control)) =
        [(.title, 0, []), (.audio, 8000, []), (.audio, 44100, "b".toList), (.video, 90000, "y:1".toList)] ∧
      ∃ title media, (read (read mixedOffer).text).tracks = title :: media ∧ title.kind = .title ∧
        List.Forall₂ Track.SameMedia (((read mixedOffer).last? .video).toList ++ ((read mixedOffer).last? .audio).toList) media :=
  have declared : ∀ m ∈ mediaLines mixedOffer, m.payloadType ≠ unsetPayloadType := by decide +kernel
  ⟨declared, by decide +kernel, (read_text_read mixedOffer declared).1⟩

end Session

end MediaSession
