import MediaSession.Proofs.Description.RoundTrip
import MediaSession.Proofs.Description.Undeclared

/-!
# The normal form of a description

What a session is written as is a text that can be read and written again, and that changes it in two ways only. A track
whose payload type was declared by an encoding has it from its media line now, so it drops the encodings and the format
parameters of other types that it kept before. An attribute without a value has lost the blanks at the end of its name, so
it may be looked at under another name. After that nothing changes any more: every attribute is settled, that is, it is kept
and it is read as it is written.
-/

namespace MediaSession

/-! ## Settled attributes -/

namespace Attribute

/-- An attribute that is read again is not changed by being read once more. -/
theorem reread_reread (a : Attribute) : a.reread.reread = a.reread := by
  by_cases hv : a.value = []
  · refine reread_of_trimEnd_name ?_
    rw [reread, if_pos hv]
    exact Text.trimEnd_trimEnd _
  · rw [reread_of_value_ne_nil hv, reread_of_value_ne_nil hv]

/-- An attribute whose name changes has no value, so it becomes no encoding. -/
theorem declares_of_reread {a : Attribute} (h : a.reread.Declares) : a.Declares := by
  have hv : a.value ≠ [] := by
    intro hv
    obtain ⟨-, r, hread, -⟩ := h
    rw [reread_value, hv] at hread
    cases hread
  rwa [reread_of_value_ne_nil hv] at h

/-- An attribute that a track of the given payload type keeps as it is, however often it is written and read again. -/
structure Settled (p : UInt8) (a : Attribute) : Prop where
  reread_eq : a.reread = a
  kept : p ≠ unsetPayloadType → Track.keeps "rtpmap".toList p a = true ∧ Track.keeps "fmtp".toList p a = true
  undeclared : p = unsetPayloadType → ¬ a.Declares

end Attribute

namespace Track

/-- All attributes are settled. -/
def Settled (t : Track) : Prop := ∀ a ∈ t.attributes, a.Settled t.payloadType

/-- Looking at settled attributes changes neither them nor the payload type. -/
theorem Settled.resolveAttributes {t : Track} (hk : t.kind ≠ .title) (h : t.Settled) :
    t.resolveAttributes.payloadType = t.payloadType ∧ t.resolveAttributes.attributes = t.attributes := by
  by_cases ht : t.payloadType = unsetPayloadType
  · obtain ⟨hp, hattrs⟩ := resolveAttributes_of_undeclared ht fun a ha => (h a ha).undeclared ht
    exact ⟨hp.trans ht.symm, hattrs⟩
  · refine ⟨payloadType_resolveAttributes hk ht, (resolveAttributes_of_declared hk ht).2.trans ?_⟩
    rw [keptAttributes, List.filter_eq_self.2 fun a ha => ((h a ha).kept ht).1,
      List.filter_eq_self.2 fun a ha => ((h a ha).kept ht).2]

/-- Attributes that have been written once are written the same again. -/
theorem writtenAttributes_of_attributes {t u : Track} (h : u.attributes = t.writtenAttributes) :
    u.writtenAttributes = t.writtenAttributes := by
  have hlast : ∀ a ∈ (t.attributes.filter (·.name == "control".toList)).getLast?.toList,
      (a.name == "control".toList) = true := fun a ha => beq_iff_eq.2 (name_of_getLast?_control (Option.mem_toList.1 ha))
  have hothers : t.writtenAttributes.filter (·.name != "control".toList) =
      t.attributes.filter (·.name != "control".toList) := by
    have hnone : (t.attributes.filter (·.name == "control".toList)).getLast?.toList.filter
        (·.name != "control".toList) = [] := List.filter_eq_nil_iff.2 fun a ha => by rw [bne, hlast a ha]; decide
    rw [writtenAttributes, List.filter_append, hnone, List.append_nil, List.filter_filter]
    simp only [Bool.and_self]
  have hcontrol : t.writtenAttributes.filter (·.name == "control".toList) =
      (t.attributes.filter (·.name == "control".toList)).getLast?.toList := by
    have hnone : (t.attributes.filter (·.name != "control".toList)).filter (·.name == "control".toList) = [] :=
      List.filter_eq_nil_iff.2 fun a ha => by simpa using (List.mem_filter.1 ha).2
    rw [writtenAttributes, List.filter_append, hnone, List.nil_append, List.filter_eq_self.2 hlast]
  rw [writtenAttributes, h, hothers, hcontrol, writtenAttributes]
  cases (t.attributes.filter (·.name == "control".toList)).getLast? <;> rfl

/-! ## Tracks of blocks -/

/-- A track that is read without a payload type has no attribute that declares one. -/
theorem not_declares_ofBlock {m : MediaLine} (hmedia : m.media ≠ []) {lines : List Line}
    (h : (ofBlock m lines).payloadType = unsetPayloadType) : ∀ a ∈ (ofBlock m lines).attributes, ¬ a.Declares := by
  rw [ofBlock, resolve_eq] at h
  obtain ⟨-, hraw⟩ := undeclared_of_resolveAttributes (kind_addLines_ne_title hmedia lines) h
  exact fun a ha => hraw a ((sublist_ofBlock m lines).subset ha)

/-- The track of a block is settled when its attributes are read as they are written and its payload type is declared by the
media line or not at all. -/
theorem settled_ofBlock {m : MediaLine} (hmedia : m.media ≠ []) {lines : List Line}
    (hreread : ∀ a ∈ ((ofMediaLine m).addLines lines).attributes, a.reread = a)
    (hdeclared : m.payloadType = unsetPayloadType → ∀ a ∈ ((ofMediaLine m).addLines lines).attributes, ¬ a.Declares) :
    (ofBlock m lines).Settled := by
  intro a ha
  have hreread' := hreread a ((sublist_ofBlock m lines).subset ha)
  by_cases hm : m.payloadType = unsetPayloadType
  · have hraw := (payloadType_addLines m lines).trans hm
    have hp : (ofBlock m lines).payloadType = unsetPayloadType := by
      rw [ofBlock, resolve_eq]
      exact (resolveAttributes_of_undeclared hraw (hdeclared hm)).1
    exact
      { reread_eq := hreread'
        kept := fun h => absurd hp h
        undeclared := fun _ => hdeclared hm a ((sublist_ofBlock m lines).subset ha) }
  · have hp := payloadType_ofBlock hm hmedia lines
    rw [attributes_ofBlock hm hmedia lines, keptAttributes, payloadType_addLines, List.mem_filter, List.mem_filter] at ha
    rw [hp]
    exact ⟨hreread', fun _ => ⟨ha.1.2, ha.2⟩, fun h => absurd h hm⟩

/-- A track that is written and read again is settled, unless it had no payload type while an attribute declared one. -/
theorem settled_reread {t : Track} (h : t.payloadType = unsetPayloadType → ∀ a ∈ t.attributes, ¬ a.Declares)
    (port : UInt16) : (t.reread port).Settled := by
  have hattrs : ((ofMediaLine (t.offer port)).addLines t.rereadLines).attributes =
      t.writtenAttributes.map Attribute.reread := by
    rw [addLines_rereadLines]
  refine settled_ofBlock t.kind.name_word.1 ?_ ?_
  · rw [hattrs, List.forall_mem_map]
    exact fun a _ => a.reread_reread
  · rw [hattrs, List.forall_mem_map]
    exact fun hp a ha hd => h hp a (mem_attributes_of_mem_writtenAttributes ha) (Attribute.declares_of_reread hd)

/-- The kind of a medium is read back from its name. -/
theorem kind_reread {t : Track} (hk : t.kind ≠ .title) (port : UInt16) : (t.reread port).kind = t.kind :=
  (kind_ofBlock _ _).trans ((TrackKind.ofMedia_name_iff t.kind).2 hk)

/-- A settled track that is written and read again has the payload type and the attributes it was written with. -/
theorem Settled.reread {t : Track} (h : t.Settled) (port : UInt16) :
    (t.reread port).payloadType = t.payloadType ∧ (t.reread port).attributes = t.writtenAttributes := by
  have hwritten : ∀ a ∈ t.writtenAttributes, a.Settled t.payloadType := fun a ha =>
    h a (mem_attributes_of_mem_writtenAttributes ha)
  have hraw : (ofMediaLine (t.offer port)).addLines t.rereadLines =
      { ofMediaLine (t.offer port) with bandwidth := t.bandwidth, attributes := t.writtenAttributes } := by
    rw [addLines_rereadLines, List.map_congr_left fun a ha => (hwritten a ha).reread_eq, List.map_id']
  have hkind : (ofMediaLine (t.offer port)).kind ≠ .title := TrackKind.ofMedia_ne_title t.kind.name_word.1
  rw [Track.reread, ofBlock, hraw, resolve_eq]
  exact Settled.resolveAttributes hkind hwritten

/-- A settled track has the same lines when it is written and read again. -/
theorem Settled.lines_reread {t : Track} (h : t.Settled) (hk : t.kind ≠ .title) (port : UInt16) :
    (t.reread port).lines port = t.lines port := by
  obtain ⟨hp, hattrs⟩ := h.reread port
  have hbandwidth : (t.reread port).bandwidth = t.bandwidth := by
    rw [Track.reread, ofBlock, bandwidth_resolve, addLines_rereadLines]
  rw [lines, lines, kind_reread hk, hp, hbandwidth, writtenAttributes_of_attributes hattrs]

end Track

/-! ## Lines that lose blanks -/

namespace Text

/-- Whether a line names an attribute without a value and has blanks between the name and the colon. When it is written
without the colon these blanks are at its end. -/
def LosesBlank (line : Text) : Prop :=
  ∃ name : Text, ':' ∉ name ∧ trimEnd name ≠ name ∧ trim line = "a=".toList ++ name ++ [':']

/-- The name is what stands between the equals sign and the colon at the end. -/
instance (line : Text) : Decidable line.LosesBlank :=
  let name := ((trim line).drop 2).dropLast
  decidable_of_iff (':' ∉ name ∧ trimEnd name ≠ name ∧ trim line = "a=".toList ++ name ++ [':']) <| by
    refine ⟨fun h => ⟨name, h⟩, fun ⟨name', h⟩ => ?_⟩
    have hname : name = name' := by simp [name, h.2.2]
    exact hname ▸ h

end Text

/-- A tidy value says an attribute that is read as it is written, unless it is a name with blanks before a colon. -/
theorem Attribute.reread_ofValue {value : Text} (hv : value.Tidy)
    (h : ∀ name : Text, ':' ∉ name → value = name ++ [':'] → Text.trimEnd name = name) :
    (ofValue value).reread = ofValue value := by
  by_cases hex : ∃ c name rest, Text.cut? ':' value = some (c :: name, rest)
  · obtain ⟨c, name, rest, hcut⟩ := hex
    obtain ⟨hn, rfl⟩ := Text.eq_of_cut? hcut
    rw [ofValue_append_cons hn]
    by_cases hr : rest = []
    · exact reread_of_trimEnd_name (h (c :: name) hn (by rw [hr]))
    · exact reread_of_value_ne_nil hr
  · rw [ofValue_eq_name fun c name rest hcut => hex ⟨c, name, rest, hcut⟩]
    exact reread_of_trimEnd_name hv.2

namespace Line

theorem eq_of_ofLetter_attribute {letter : Char} {value : Text} {a : Attribute}
    (h : ofLetter letter value = .attribute a) : letter = 'a' ∧ a = .ofValue value := by
  unfold ofLetter at h
  split_ifs at h with ht hb hm ha
  exact ⟨ha, (Line.attribute.inj h).symm⟩

/-- An attribute is read from the value of an `a` line. -/
theorem eq_of_read?_attribute {line : Text} {a : Attribute} (h : read? line = some (.attribute a)) :
    ∃ value, line = "a=".toList ++ value ∧ a = .ofValue value := by
  unfold read? at h
  split at h
  · rename_i letter value
    split at h
    · obtain ⟨rfl, ha⟩ := eq_of_ofLetter_attribute (Option.some.inj h)
      exact ⟨value, rfl, ha⟩
    · cases h
  · cases h

/-- The value of an `a` line has no blanks at its end. -/
theorem exists_tidy_of_read?_attribute {line : Text} (hline : '\n' ∉ line) {a : Attribute}
    (h : read? (Text.trim line) = some (.attribute a)) :
    ∃ value : Text, Text.trim line = "a=".toList ++ value ∧ value.Tidy ∧ a = .ofValue value := by
  obtain ⟨value, htrim, ha⟩ := eq_of_read?_attribute h
  have htidy : Text.Tidy (['a'] ++ '=' :: value) := by
    have hline' := Text.tidy_trim hline
    rwa [htrim] at hline'
  exact ⟨value, htrim, Text.Tidy.of_append_cons rfl htidy, ha⟩

/-- An attribute is read as it is written exactly when the line that it was read from loses no blanks. -/
theorem reread_eq_iff {line : Text} (hline : '\n' ∉ line) {a : Attribute}
    (h : read? (Text.trim line) = some (.attribute a)) : a.reread = a ↔ ¬ Text.LosesBlank line := by
  obtain ⟨value, htrim, htidy, rfl⟩ := exists_tidy_of_read?_attribute hline h
  constructor
  · rintro hreread ⟨name, hname, hblank, hlose⟩
    obtain ⟨c, rest, rfl⟩ : ∃ c rest, name = c :: rest := List.exists_cons_of_ne_nil fun hnil => hblank (by rw [hnil]; rfl)
    rw [htrim, List.append_assoc] at hlose
    rw [List.append_cancel_left hlose, Attribute.ofValue_append_cons hname, Attribute.reread, if_pos rfl,
      Attribute.mk.injEq] at hreread
    exact hblank hreread.1
  · intro hkeeps
    refine Attribute.reread_ofValue htidy ?_
    rintro name hname rfl
    by_contra hblank
    exact hkeeps ⟨name, hname, hblank, by rw [htrim, List.append_assoc]⟩

/-- The attributes of a description are read as they are written when none of its lines loses blanks. -/
theorem reread_of_mem_readAll {text : Text} (htext : ∀ line ∈ text.splitOn '\n', ¬ Text.LosesBlank line) {a : Attribute}
    (ha : .attribute a ∈ readAll text) : a.reread = a := by
  obtain ⟨line, hline, hread⟩ := List.mem_filterMap.1 ha
  exact (reread_eq_iff (Text.notMem_of_mem_splitOn hline) hread).2 (htext line hline)

end Line

namespace Session

/-- The text of the session that is read from a text. -/
def rewrite (x : Text) : Text := (read x).text

/-- A session of a title and at most one video and one audio track is written as a whole. -/
theorem last?_lastMedia_of_tracks {s : Session} {title : Track} {video audio : Option Track}
    (htracks : s.tracks = title :: (video.toList ++ audio.toList)) (htitle : title.kind = .title)
    (hvideo : ∀ t ∈ video, t.kind = .video) (haudio : ∀ t ∈ audio, t.kind = .audio) :
    s.last? .title = some title ∧ s.lastMedia = video.toList ++ audio.toList := by
  cases video with
  | none =>
    cases audio with
    | none => simp [lastMedia, last?, htracks, htitle]
    | some a => simp [lastMedia, last?, htracks, htitle, haudio a rfl]
  | some v =>
    cases audio with
    | none => simp [lastMedia, last?, htracks, htitle, hvideo v rfl]
    | some a => simp [lastMedia, last?, htracks, htitle, hvideo v rfl, haudio a rfl]

/-- What is written of a session comes from media lines and the lines after them. -/
theorem exists_of_mem_lastMedia {x : Text} {t : Track} (ht : t ∈ (read x).lastMedia) : t.kind ≠ .title ∧
    ∃ m ∈ mediaLines x, m.media ≠ [] ∧ ∃ lines, (∀ line ∈ lines, line ∈ Line.readAll x) ∧ t = .ofBlock m lines := by
  obtain ⟨hmem, hk⟩ := mem_kind_of_mem_lastMedia ht
  exact ⟨TrackKind.ne_title_of_medium hk, exists_of_mem_read hmem (TrackKind.ne_title_of_medium hk)⟩

/-- The text of a session is read as its title and, track by track, what was written. -/
theorem tracks_read_rewrite {x : Text} {duration : Binary32}
    (htext : rewrite x = Text.ofLines (TitleBlock.lines { duration } ++ (read x).lastMedia.flatMap fun t => t.lines 0)) :
    (read (rewrite x)).tracks = .ofTitle (TitleBlock.rereadLines duration) :: (read x).lastMedia.map fun t => t.reread 0 := by
  rw [htext]
  refine tracks_read_of_lines (TitleBlock.readsAs_lines duration) (fun _ hl => TitleBlock.isMedia_of_mem_rereadLines hl) ?_ 0
  intro t ht
  obtain ⟨hmem, hk⟩ := mem_kind_of_mem_lastMedia ht
  exact tidy_of_mem_read hmem (TrackKind.ne_title_of_medium hk)

/-- A text that is written of a session is written again from the same title and from its tracks as they are read. -/
theorem exists_rewrite_eq (x : Text) : ∃ duration : Binary32,
    rewrite x = Text.ofLines (TitleBlock.lines { duration } ++ (read x).lastMedia.flatMap fun t => t.lines 0) ∧
    rewrite (rewrite x) = Text.ofLines (TitleBlock.lines { duration } ++
      (read x).lastMedia.flatMap fun t => (t.reread 0).lines 0) ∧
    (read (rewrite x)).lastMedia = (read x).lastMedia.map fun t => t.reread 0 := by
  obtain ⟨duration, htext⟩ := text_read x
  have hmap : ((read x).lastMedia.map fun t => t.reread 0) = (((read x).last? .video).map fun t => t.reread 0).toList ++
      (((read x).last? .audio).map fun t => t.reread 0).toList := by
    rw [lastMedia, List.map_append, Option.toList_map, Option.toList_map]
  have hkind : ∀ kind : TrackKind, kind ≠ .title → ∀ t ∈ ((read x).last? kind).map fun t => t.reread 0, t.kind = kind := by
    intro kind hk t ht
    obtain ⟨u, hu, rfl⟩ := Option.map_eq_some_iff.1 ht
    have huk := (mem_kind_of_last? hu).2
    exact (Track.kind_reread (huk ▸ hk) 0).trans huk
  obtain ⟨htitle, hlast⟩ := last?_lastMedia_of_tracks (hmap ▸ tracks_read_rewrite htext) (Track.kind_ofTitle _)
    (hkind _ (by decide)) (hkind _ (by decide))
  rw [← hmap] at hlast
  have hduration : (Track.ofTitle (TitleBlock.rereadLines duration)).duration = TitleBlock.statedDuration { duration } := by
    rw [Track.ofTitle_rereadLines]
  refine ⟨duration, htext, ?_, hlast⟩
  rw [rewrite, text_of_title htitle (Track.kind_ofTitle _), hduration, TitleBlock.lines_statedDuration, hlast,
    List.flatMap_map]

/-- A session whose written tracks are settled is written the same again. -/
theorem rewrite_rewrite_of_settled {x : Text} (h : ∀ t ∈ (read x).lastMedia, t.Settled) :
    rewrite (rewrite x) = rewrite x := by
  obtain ⟨duration, hfirst, hsecond, -⟩ := exists_rewrite_eq x
  rw [hsecond, hfirst, List.flatMap_congr fun t ht => (h t ht).lines_reread (exists_of_mem_lastMedia ht).1 0]

/-- Reading and writing reaches a normal form, in two parts.
1. What has been read and written twice does not change any more, whatever the text was.
2. What has been read and written once does not change any more when no media line of the text declares payload type 255,
   and no `a` line of it is a name with blanks at its end before a colon. -/
theorem rewrite_normal (x : Text) :
    rewrite (rewrite (rewrite x)) = rewrite (rewrite x) ∧
    ((∀ m ∈ mediaLines x, m.payloadType ≠ unsetPayloadType) → (∀ line ∈ x.splitOn '\n', ¬ Text.LosesBlank line) →
      rewrite (rewrite x) = rewrite x) := by
  constructor
  · apply rewrite_rewrite_of_settled
    obtain ⟨-, -, -, hlast⟩ := exists_rewrite_eq x
    rw [hlast, List.forall_mem_map]
    intro t ht
    obtain ⟨-, m, -, hmedia, lines, -, rfl⟩ := exists_of_mem_lastMedia ht
    exact Track.settled_reread (Track.not_declares_ofBlock hmedia) 0
  · intro hx htext
    apply rewrite_rewrite_of_settled
    intro t ht
    obtain ⟨-, m, hm, hmedia, lines, hlines, rfl⟩ := exists_of_mem_lastMedia ht
    refine Track.settled_ofBlock hmedia ?_ fun h => absurd h (hx m hm)
    intro a ha
    rw [Track.attributes_addLines] at ha
    obtain ⟨line, hl, hline⟩ := List.mem_filterMap.1 ha
    rw [Line.eq_attribute_of_attribute? hline] at hl
    exact Line.reread_of_mem_readAll htext (hlines _ hl)

/-- An offer whose session is written in another way: without its own title lines, the encoding of another payload type and
the first control address, and with the second control address at the end. -/
def looseOffer : Text :=
  Text.ofLines (["s=x", "a=range:npt=0-2.50", "m=video 5004 RTP/AVP 96 97", "a=control:a", "a=control:b ", "b=AS:1",
    "a=rtpmap:97 H265/90000", "a=rtpmap:96 H264/90000", "a=sendonly :x", "a=:"].map String.toList)

/-- The same offer as it is written: under the usual title lines, and without what is not of the session. -/
def settledOffer : Text :=
  Text.ofLines (["v=0", "o=- 0 0 IN IP4 0.0.0.0", "s=Streamed by rtsp-media", "c=IN IP4 0.0.0.0", "t=0 0", "a=range:npt=0-2.5",
    "a=control:*", "m=video 0 RTP/AVP 96", "b=AS:1", "a=rtpmap:96 H264/90000", "a=sendonly :x", "a=:",
    "a=control:b"].map String.toList)

theorem rewrite_normal_of_looseOffer :
    ((∀ m ∈ mediaLines looseOffer, m.payloadType ≠ unsetPayloadType) ∧
      (∀ line ∈ looseOffer.splitOn '\n', ¬ Text.LosesBlank line)) ∧
      rewrite looseOffer = settledOffer ∧ rewrite looseOffer ≠ looseOffer ∧
      rewrite (rewrite looseOffer) = rewrite looseOffer := by
  have hdeclared : ∀ m ∈ mediaLines looseOffer, m.payloadType ≠ unsetPayloadType := by decide +kernel
  have hblanks : ∀ line ∈ looseOffer.splitOn '\n', ¬ Text.LosesBlank line := by decide +kernel
  have hsettled : rewrite looseOffer = settledOffer := by decide +kernel
  refine ⟨⟨hdeclared, hblanks⟩, hsettled, ?_, (rewrite_normal looseOffer).2 hdeclared hblanks⟩
  rw [hsettled]
  decide +kernel

/-- A payload type that only an encoding declares, and blanks at the end of a name, take a second time. -/
example :
    let x (lines : List String) : Text := Text.ofLines (lines.map String.toList)
    let implicit := x ["m=audio 0 RTP/AVP 255", "a=rtpmap:96 A/1/2", "a=rtpmap:97 B/2"]
    let blank := x ["m=audio 0 RTP/AVP 0", "a=control :", "a=x"]
    rewrite (rewrite implicit) ≠ rewrite implicit ∧ rewrite (rewrite blank) ≠ rewrite blank := by
  decide +kernel

end Session

end MediaSession
