import MediaSession.Description.Session
import MediaSession.Proofs.Description.Lines
import MediaSession.Proofs.Description.Winnowing

/-!
# Blocks are read independently

A description is a title and one block for each `m` line. It is read line by line, and what has been read so far is the tracks
that are finished, the track that the next line belongs to, and whether this track is kept (`Reading`). Of all this an `m` line
leaves nothing but the tracks so far (`Reading.next_media`), and any other line changes one track only. So a whole run puts the
tracks of the blocks, each made of its own lines, after the tracks so far (`Reading.tracks_run`).

The tracks of a description that is cut before an `m` line are therefore the tracks of the first part and the media of the
second: nothing of one block reaches another. The title is always there and always first, the media follow in the order of
the media lines that can be read, and a block whose media line cannot be read leaves no trace.
-/

namespace MediaSession

/-- Whether the first line of a text, without the blanks around it, is an `m` line. -/
def Text.OpensBlock (t : Text) : Prop := "m=".toList <+: Text.trim (t.takeWhile (· != '\n'))

instance (t : Text) : Decidable t.OpensBlock := inferInstanceAs (Decidable (_ <+: _))

/-- The value of an `m` line. -/
def Line.mediaValue? : Line → Option Text
  | .media value => some value
  | _ => none

/-- The attribute of an `a` line. -/
def Line.attribute? : Line → Option Attribute
  | .attribute a => some a
  | _ => none

theorem Line.eq_attribute_of_attribute? {line : Line} {a : Attribute} (h : line.attribute? = some a) :
    line = .attribute a := by
  unfold attribute? at h
  split at h
  · rw [Option.some.inj h]
  · cases h

/-- The media lines of a description that can be read, in order. -/
def Session.mediaLines (text : Text) : List MediaLine :=
  ((Line.readAll text).filterMap Line.mediaValue?).filterMap MediaLine.read?

/-- The tracks of a description, for a source of sample rates that looks at nothing but the track it is given. -/
def Session.tracksWith (source : RateSource Id) (text : Text) : List Track :=
  (Id.run (Session.readWith source text)).tracks

/-! ## Lines and blocks -/

/-- A text that opens a block has an `m` line as its first line. -/
theorem Line.exists_readAll_eq_media {t : Text} (h : t.OpensBlock) :
    ∃ value rest, readAll t = .media value :: rest := by
  obtain ⟨rest, hrest⟩ := Text.exists_splitOn_eq_cons '\n' t
  obtain ⟨value, hvalue⟩ := h
  have hread : read? (Text.trim (t.takeWhile (· != '\n'))) = some (.media value) := by
    rw [← hvalue]
    rfl
  refine ⟨value, rest.filterMap fun line => read? (Text.trim line), ?_⟩
  rw [readAll, hrest, List.filterMap_cons, hread]

/-- Each block begins with the value of its `m` line, so the blocks are the `m` lines in order. -/
theorem Line.map_fst_sections (lines : List Line) : (sections lines).2.map (·.1) = lines.filterMap mediaValue? := by
  induction lines with
  | nil => rfl
  | cons line rest ih =>
    cases hm : line.isMedia with
    | true =>
      obtain ⟨value, rfl⟩ := eq_media_of_isMedia hm
      rw [sections, List.map_cons, ih]
      rfl
    | false =>
      have hnone : line.mediaValue? = none := by
        cases line with
        | media value => cases hm
        | _ => rfl
      rw [sections_cons_of_not_isMedia hm, List.filterMap_cons_none hnone]
      exact ih

/-- More lines change neither the medium nor the port of a track. -/
theorem Track.kind_port_addLines (t : Track) (lines : List Line) :
    (t.addLines lines).kind = t.kind ∧ (t.addLines lines).port = t.port := by
  refine List.foldlRecOn (motive := fun u : Track => u.kind = t.kind ∧ u.port = t.port) _ _ ⟨rfl, rfl⟩ ?_
  intro u hu line _
  cases line <;> exact hu

/-- Lines add their attributes to those that are there, and what else they change does not depend on these. -/
theorem Track.addLines_of_attributes (t : Track) (attrs : List Attribute) (lines : List Line) :
    addLines { t with attributes := attrs } lines =
      { t.addLines lines with attributes := attrs ++ lines.filterMap Line.attribute? } := by
  induction lines generalizing t attrs with
  | nil => simp [addLines]
  | cons line rest ih =>
    have hstep : addLines { t with attributes := attrs } (line :: rest) =
        addLines (addLine { t with attributes := attrs } line) rest := rfl
    have hstep' : t.addLines (line :: rest) = addLines (t.addLine line) rest := rfl
    rw [hstep, hstep']
    cases line with
    | «attribute» a =>
      have hadd : addLine { t with attributes := attrs } (.attribute a) = { t with attributes := attrs ++ [a] } := rfl
      have hadd' : addLine t (.attribute a) = { t with attributes := t.attributes ++ [a] } := rfl
      have hfirst : (Line.attribute a :: rest).filterMap Line.attribute? = a :: rest.filterMap Line.attribute? := rfl
      rw [hadd, ih t (attrs ++ [a]), hadd', ih t (t.attributes ++ [a]), hfirst, List.append_assoc, List.singleton_append]
    | media value => exact ih t attrs
    | timing value => exact ih { t with timing := value } attrs
    | bandwidth value => exact ih { t with bandwidth := value } attrs
    | other letter value => exact ih { t with other := setLetter letter value t.other } attrs

/-- The attributes of a track are those it had before its lines and those of the lines. -/
theorem Track.attributes_addLines (t : Track) (lines : List Line) :
    (t.addLines lines).attributes = t.attributes ++ lines.filterMap Line.attribute? :=
  congrArg attributes (t.addLines_of_attributes t.attributes lines)

/-- A media line that can be read names its medium, so its block is not the title. -/
theorem MediaLine.media_ne_nil {value : Text} {m : MediaLine} (h : read? value = some m) : m.media ≠ [] := by
  unfold read? at h
  split at h
  · rename_i media port transport payloadType rest hwords
    obtain ⟨p, -, h⟩ := Option.bind_eq_some_iff.1 h
    obtain ⟨ports, -, rfl⟩ := Option.map_eq_some_iff.1 h
    have hmem : media ∈ Text.words value := by rw [hwords]; exact List.mem_cons_self
    simpa using (List.mem_filter.1 hmem).2
  · cases h

theorem TrackKind.ofMedia_ne_title {word : Text} (h : word ≠ []) : ofMedia word ≠ .title := by
  rw [ofMedia, if_neg h]
  split
  · decide
  · split <;> decide

/-- The media of known kind are no titles. -/
theorem TrackKind.ne_title_of_medium {k : TrackKind} (h : k = .video ∨ k = .audio) : k ≠ .title := by
  rcases h with rfl | rfl <;> decide

/-! ## Line after line -/

/-- The track of a block by itself, unless its media line cannot be read. -/
def Session.blockTrack? (block : Text × List Line) : Option Track :=
  (MediaLine.read? block.1).map fun m => (Track.ofMediaLine m).addLines block.2

namespace Reading

@[simp] theorem run_nil (r : Reading) : r.run [] = r := rfl

@[simp] theorem run_cons (r : Reading) (line : Line) (lines : List Line) : r.run (line :: lines) = (r.next line).run lines := rfl

theorem run_append (r : Reading) (before after : List Line) : r.run (before ++ after) = (r.run before).run after :=
  List.foldl_append

/-- A line that begins no block goes to the track. -/
theorem next_of_not_isMedia {line : Line} (h : line.isMedia = false) (r : Reading) :
    r.next line = { r with track := r.track.addLine line } := by
  cases line with
  | media value => cases h
  | _ => rfl

/-- An `m` line finishes the track before it. Nothing else of what has been read reaches the new one. -/
theorem next_media (r : Reading) (value : Text) :
    r.next (.media value) =
      { finished := r.tracks
        track := ((MediaLine.read? value).map Track.ofMediaLine).getD {}
        kept := (MediaLine.read? value).isSome } := by
  rw [next]
  cases MediaLine.read? value <;> rfl

/-- The lines of one block go to its track. -/
theorem run_of_forall {own : List Line} (h : ∀ line ∈ own, line.isMedia = false) (r : Reading) :
    r.run own = { r with track := r.track.addLines own } := by
  induction own generalizing r with
  | nil => rfl
  | cons line own ih =>
    rw [run_cons, next_of_not_isMedia (h line List.mem_cons_self), ih fun l hl => h l (List.mem_cons_of_mem _ hl)]
    rfl

/-- When a block comes to its end, its track stands after those before it, unless its media line could not be read. -/
theorem tracks_next_media (r : Reading) (value : Text) (own : List Line) :
    tracks { r.next (.media value) with track := (r.next (.media value)).track.addLines own } =
      r.tracks ++ (Session.blockTrack? (value, own)).toList := by
  rw [next_media, Session.blockTrack?]
  cases MediaLine.read? value with
  | none => simp [tracks]
  | some m => simp [tracks]

/-- Whatever has been read before, the lines up to the first `m` line go to the track of that time, and each block after them
gives its own track. The induction is on the lines; the pending track and the tracks before it are arbitrary. -/
theorem tracks_run (r : Reading) (lines : List Line) :
    (r.run lines).tracks =
      tracks { r with track := r.track.addLines (Line.sections lines).1 } ++
        (Line.sections lines).2.filterMap Session.blockTrack? := by
  induction lines generalizing r with
  | nil => simp [Line.sections, Track.addLines]
  | cons line rest ih =>
    rw [run_cons, ih]
    cases hm : line.isMedia with
    | true =>
      obtain ⟨value, rfl⟩ := Line.eq_media_of_isMedia hm
      rw [tracks_next_media, Line.sections, List.filterMap_eq_flatMap_toList, List.filterMap_eq_flatMap_toList,
        List.flatMap_cons, List.append_assoc]
      rfl
    | false =>
      rw [next_of_not_isMedia hm, Line.sections_cons_of_not_isMedia hm]
      rfl

/-- From an `m` line on, reading goes on as it would at the beginning, after the tracks so far. -/
theorem tracks_run_media (r : Reading) (value : Text) (lines : List Line) :
    (r.run (.media value :: lines)).tracks = r.tracks ++ (({} : Reading).run (.media value :: lines)).tracks.tail := by
  have htitle : tracks { track := Track.addLines .title [] } = [.title] := rfl
  have hsame : tracks { r with track := r.track.addLines [] } = r.tracks := rfl
  rw [tracks_run, tracks_run, Line.sections, htitle, hsame]
  rfl

end Reading

/-! ## Tracks of a description -/

namespace Session

/-- The tracks of a description are those of its blocks, each resolved by itself. -/
theorem tracksWith_eq (source : RateSource Id) (text : Text) :
    tracksWith source text = (rawTracks (Line.readAll text)).map fun t => Id.run (t.resolve source) :=
  List.idRun_mapM

/-- The tracks of a description are the title with the lines before the first block, and each block by itself. -/
theorem rawTracks_eq (lines : List Line) :
    rawTracks lines = Track.title.addLines (Line.sections lines).1 :: (Line.sections lines).2.filterMap blockTrack? :=
  Reading.tracks_run {} lines

/-- A track of a description is the title, or that of a block whose media line can be read. -/
theorem eq_of_mem_rawTracks {lines : List Line} {t : Track} (ht : t ∈ rawTracks lines) :
    t = Track.title.addLines (Line.sections lines).1 ∨
      ∃ block ∈ (Line.sections lines).2, ∃ m, MediaLine.read? block.1 = some m ∧
        t = (Track.ofMediaLine m).addLines block.2 := by
  rw [rawTracks_eq] at ht
  rcases List.mem_cons.1 ht with ht | ht
  · exact Or.inl ht
  · obtain ⟨block, hblock, htrack⟩ := List.mem_filterMap.1 ht
    obtain ⟨m, hread, rfl⟩ := Option.map_eq_some_iff.1 htrack
    exact Or.inr ⟨block, hblock, m, hread, rfl⟩

/-- An `m` line cuts the tracks. -/
theorem rawTracks_append_media (before : List Line) (value : Text) (after : List Line) :
    rawTracks (before ++ .media value :: after) = rawTracks before ++ (rawTracks (.media value :: after)).tail := by
  rw [rawTracks, Reading.run_append]
  exact Reading.tracks_run_media _ value after

/-- Within a block the tracks before it are finished, and what the block has said so far is in its own track. -/
theorem run_of_block (before : List Line) (value : Text) {own : List Line} (h : ∀ line ∈ own, line.isMedia = false) :
    ({} : Reading).run (before ++ .media value :: own) =
      { finished := rawTracks before
        track := (((MediaLine.read? value).map Track.ofMediaLine).getD {}).addLines own
        kept := (MediaLine.read? value).isSome } := by
  rw [Reading.run_append, Reading.run_cons, Reading.next_media, Reading.run_of_forall h]
  rfl

/-- The media of a description are the media lines that can be read, in order. -/
theorem mediaLines_eq (text : Text) :
    mediaLines text = (Line.sections (Line.readAll text)).2.filterMap fun block => MediaLine.read? block.1 := by
  rw [mediaLines, ← Line.map_fst_sections, List.filterMap_map]
  rfl

/-- What a track shows of the media line it comes from, whatever its block says besides. -/
def ComesFrom (m : MediaLine) (t : Track) : Prop := t.kind = .ofMedia m.media ∧ t.port = m.port

/-- A block whose media line can be read gives the track of that line. -/
theorem comesFrom_resolve (source : RateSource Id) (m : MediaLine) (lines : List Line) :
    ComesFrom m (Id.run (((Track.ofMediaLine m).addLines lines).resolve source)) := by
  obtain ⟨hkind, hport⟩ := Track.kind_port_addLines (Track.ofMediaLine m) lines
  exact ⟨(Track.kind_resolve _ _).trans hkind, (Track.port_resolve _ _).trans hport⟩

/-- Blocks give one track for each media line that can be read, in order. -/
theorem forall₂_comesFrom (source : RateSource Id) (blocks : List (Text × List Line)) :
    List.Forall₂ ComesFrom (blocks.filterMap fun block => MediaLine.read? block.1)
      ((blocks.filterMap blockTrack?).map fun t => Id.run (t.resolve source)) := by
  induction blocks with
  | nil => exact .nil
  | cons block blocks ih =>
    cases hm : MediaLine.read? block.1 with
    | none =>
      have hnone : blockTrack? block = none := by rw [blockTrack?, hm]; rfl
      rwa [List.filterMap_cons, hm, List.filterMap_cons_none hnone]
    | some m =>
      have hsome : blockTrack? block = some ((Track.ofMediaLine m).addLines block.2) := by rw [blockTrack?, hm]; rfl
      rw [List.filterMap_cons, hm, List.filterMap_cons_some hsome, List.map_cons]
      exact .cons (comesFrom_resolve source m block.2) ih

/-- The title comes first, then one track for each media line that can be read. -/
theorem exists_tracksWith_eq_cons (source : RateSource Id) (text : Text) :
    ∃ title media, tracksWith source text = title :: media ∧ title.kind = .title ∧
      (∀ t ∈ media, t.kind ≠ .title) ∧ List.Forall₂ ComesFrom (mediaLines text) media := by
  have hmedia := forall₂_comesFrom source (Line.sections (Line.readAll text)).2
  have htracks := tracksWith_eq source text
  rw [rawTracks_eq, List.map_cons] at htracks
  rw [← mediaLines_eq] at hmedia
  refine ⟨_, _, htracks, ?_, ?_, hmedia⟩
  · exact (Track.kind_resolve _ _).trans (Track.kind_port_addLines _ _).1
  · intro t ht
    obtain ⟨u, hu, rfl⟩ := List.mem_map.1 ht
    obtain ⟨block, -, hblock⟩ := List.mem_filterMap.1 hu
    obtain ⟨m, hm, rfl⟩ := Option.map_eq_some_iff.1 hblock
    rw [(comesFrom_resolve source m block.2).1]
    exact TrackKind.ofMedia_ne_title (MediaLine.media_ne_nil hm)

/-- Where a text opens a block, its tracks but the title come after those of any text before it. -/
theorem tracksWith_append (source : RateSource Id) (a : Text) {b : Text} (hb : b.OpensBlock) :
    tracksWith source (a ++ '\n' :: b) = tracksWith source a ++ (tracksWith source b).tail := by
  obtain ⟨value, rest, hlines⟩ := Line.exists_readAll_eq_media hb
  rw [tracksWith_eq, tracksWith_eq, tracksWith_eq, Line.readAll_append, hlines, rawTracks_append_media, List.map_append,
    List.map_tail]

/-- Blocks whose media lines cannot be read add no track to any text before them. -/
theorem tracksWith_append_of_dropped (source : RateSource Id) (a : Text) {b : Text} (hb : b.OpensBlock)
    (hdropped : mediaLines b = []) : tracksWith source (a ++ '\n' :: b) = tracksWith source a := by
  obtain ⟨title, media, htracks, -, -, hmedia⟩ := exists_tracksWith_eq_cons source b
  rw [hdropped] at hmedia
  cases hmedia
  rw [tracksWith_append source a hb, htracks, List.tail_cons, List.append_nil]

/-- Blocks of a description are read independently of each other, in four parts.
1. The tracks are those of one run over the lines. At every place in a block this run has finished the tracks of the lines
   before the block, and of the block it has what its own lines say. Whatever it has when an `m` line comes, its tracks in the
   end are those so far and then the media of the rest.
2. Where a text opens a block, the tracks of any text before it and of itself are put one after the other, without the
   second title.
3. The title is always there, and it is the first track and the only title; the others are one for each media line that
   can be read, in order.
4. Blocks whose media lines cannot be read give no track, wherever they stand: at the end, between other blocks, or at the
   beginning, where the title has no line of its own. None of their lines reaches the tracks before or after them. -/
theorem blocks_independent (source : RateSource Id) :
    ((∀ text : Text, tracksWith source text =
        (({} : Reading).run (Line.readAll text)).tracks.map fun t => Id.run (t.resolve source)) ∧
      (∀ (before own : List Line) (value : Text), (∀ line ∈ own, line.isMedia = false) →
        ({} : Reading).run (before ++ .media value :: own) =
          { finished := (({} : Reading).run before).tracks
            track := (((MediaLine.read? value).map Track.ofMediaLine).getD {}).addLines own
            kept := (MediaLine.read? value).isSome }) ∧
      ∀ (r : Reading) (value : Text) (after : List Line), (r.run (.media value :: after)).tracks =
        r.tracks ++ (({} : Reading).run (.media value :: after)).tracks.tail) ∧
    (∀ a b : Text, b.OpensBlock →
      tracksWith source (a ++ '\n' :: b) = tracksWith source a ++ (tracksWith source b).tail) ∧
    (∀ text : Text, ∃ title media, tracksWith source text = title :: media ∧ title.kind = .title ∧
      (∀ t ∈ media, t.kind ≠ .title) ∧ List.Forall₂ ComesFrom (mediaLines text) media) ∧
    (∀ b : Text, b.OpensBlock → mediaLines b = [] →
      tracksWith source b = tracksWith source [] ∧
      ∀ a : Text, tracksWith source (a ++ '\n' :: b) = tracksWith source a ∧
        ∀ c : Text, c.OpensBlock →
          tracksWith source (a ++ '\n' :: (b ++ '\n' :: c)) = tracksWith source (a ++ '\n' :: c)) := by
  refine ⟨⟨tracksWith_eq source, fun before own value h => run_of_block before value h, Reading.tracks_run_media⟩,
    fun a b hb => tracksWith_append source a hb, exists_tracksWith_eq_cons source, ?_⟩
  intro b hb hdropped
  refine ⟨?_, fun a => ⟨tracksWith_append_of_dropped source a hb hdropped, ?_⟩⟩
  · have hself : tracksWith source ([] ++ '\n' :: b) = tracksWith source b := by
      rw [tracksWith_eq, tracksWith_eq, Line.readAll_append]
      rfl
    rw [← hself, tracksWith_append_of_dropped source [] hb hdropped]
  · intro c hc
    have hassoc : a ++ '\n' :: (b ++ '\n' :: c) = (a ++ '\n' :: b) ++ '\n' :: c := by simp
    rw [hassoc, tracksWith_append source _ hc, tracksWith_append_of_dropped source a hb hdropped,
      ← tracksWith_append source a hc]

/-- A block with port 65536 between two others is dropped with its lines, and so is one at the beginning. -/
example :
    let block (port control : String) : Text := ("m=audio " ++ port ++ " RTP/AVP 0\na=control:" ++ control).toList
    (tracksWith (fun _ => none) (block "65536" "x" ++ '\n' :: block "8" "a" ++ '\n' :: block "65536" "y" ++
      '\n' :: block "9" "b")).map (fun t => (t.port, t.control)) = [(0, []), (8, ['a']), (9, ['b'])] := by
  decide

end Session

end MediaSession
