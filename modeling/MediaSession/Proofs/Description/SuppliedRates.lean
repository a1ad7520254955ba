import MediaSession.Proofs.Description.EncodingFold

/-!
# Supplied sample rates

A source of sample rates may be anything that answers: it may keep account of what it was asked, and its answers may depend
on it. What it can do to a session is little all the same. It is asked about a track exactly when the track is audio and the
last encoding that is left to it and can be read gives a rate of zero (`Track.LeavesRate`), once for each such track, in their
order, and with the track as it is in the end but for the rate. All other tracks are the same for every source, and so is
everything but the rate of those.

What one track needs of the source is `Track.resolve_eq_ite`. Reading a description goes through its tracks in order, so by
induction the questions of the whole are those of the tracks that leave their rate, and the answers are dealt out to these
(`Session.mapM_resolve`).
-/

namespace MediaSession

/-- Every payload type has a rate by itself. -/
theorem PayloadTable.clockRate_ne_zero (p : UInt8) : clockRate p ≠ 0 := by
  have hentries : ∀ e ∈ entries, e.clockRate ≠ 0 := by decide
  unfold clockRate
  cases hfind : find? p with
  | none => decide
  | some e => exact hentries e (List.mem_of_find?_eq_some hfind)

namespace Track

/-! ## Tracks that leave their rate -/

/-- The encoding that counts in the end: the last one that is left to a track and can be read. -/
def lastEncoding? (t : Track) : Option Rtpmap := ((t.valuesOf "rtpmap".toList).filterMap Rtpmap.read?).getLast?

/-- Whether a track leaves its rate to a source: it is audio, and the encoding that counts gives a rate of zero. -/
def LeavesRate (t : Track) : Prop := t.kind = .audio ∧ t.lastEncoding?.map (·.sampleRate) = some 0

instance (t : Track) : Decidable t.LeavesRate := inferInstanceAs (Decidable (_ ∧ _))

/-- The track with the answer of a source: a rate, or none. -/
def answered (t : Track) (answer : Option UInt32) : Track := { t with sampleRate := answer.getD t.sampleRate }

/-- The track as it is in the end for a source that never has an answer. -/
def unanswered (t : Track) : Track := Id.run (t.resolve fun _ => none)

/-- What the attributes of a medium say of its rate is the rate of the encoding that counts, and that of the table without
one. -/
theorem sampleRate_resolveAttributes {t : Track} {p : UInt8} (hk : t.kind ≠ .title) (h : t.encoding = .ofType p) :
    t.resolveAttributes.sampleRate =
      t.resolveAttributes.lastEncoding?.elim (PayloadTable.clockRate p) (·.sampleRate) := by
  obtain ⟨hkind, hencoding⟩ : t.resolveRange.kind ≠ .title ∧ t.resolveRange.encoding = .ofType p := by
    obtain ⟨start, stop, duration, hrange⟩ := t.exists_resolveRange_eq
    rw [hrange]
    exact ⟨hk, h⟩
  rw [resolveAttributes, resolveEncoding, if_neg hkind, resolveControl_eq]
  generalize t.resolveRange = ranged at hencoding
  obtain ⟨hu, hmaps⟩ := winnow_rtpmap hencoding
  obtain ⟨hv, -⟩ := winnow_fmtp (ranged.winnow "rtpmap".toList applyRtpmap)
  generalize hmapped : ranged.winnow "rtpmap".toList applyRtpmap = mapped at hu hmaps hv
  generalize hformatted : mapped.winnow "fmtp".toList applyFormat = formatted at hv
  have hrate : formatted.sampleRate = (Encoding.fold p (ranged.valuesOf "rtpmap".toList)).1.sampleRate := by
    rw [hv, hu]
    rfl
  have hvalues : formatted.valuesOf "rtpmap".toList = (Encoding.fold p (ranged.valuesOf "rtpmap".toList)).2 := by
    rw [← hformatted, valuesOf_winnow_of_ne (by decide)]
    exact hmaps.values_eq
  have hlast : ∀ control, lastEncoding? { formatted with control := control } =
      ((Encoding.fold p (ranged.valuesOf "rtpmap".toList)).2.filterMap Rtpmap.read?).getLast? := by
    intro control
    rw [← hvalues]
    rfl
  rw [hlast, hrate]
  exact (Encoding.fold_says p _).2.1

/-- The rate of a track is said by its attributes alone: that of audio is zero exactly when the encoding that counts gives
zero. -/
def RateSaid (t : Track) : Prop :=
  t.kind = .audio → (t.sampleRate = 0 ↔ t.lastEncoding?.map (·.sampleRate) = some 0)

/-- So it is for the track of a block, because no payload type has a rate of zero by itself. -/
theorem rateSaid_resolveAttributes {t : Track} {p : UInt8} (hk : t.kind ≠ .title) (h : t.encoding = .ofType p) :
    t.resolveAttributes.RateSaid := by
  intro _
  rw [sampleRate_resolveAttributes hk h]
  cases t.resolveAttributes.lastEncoding? with
  | none => simp [PayloadTable.clockRate_ne_zero]
  | some e => simp

/-! ## What a track needs of a source -/

section

variable {m : Type → Type} [Monad m] (source : RateSource m)

/-- A rate that is not zero is not replaced. -/
theorem resolveRate_of_ne_zero {t : Track} (h : t.sampleRate ≠ 0) : t.resolveRate source = pure t := if_neg h

/-- Where a track is not audio, no source is asked. -/
theorem resolveRate_of_ne_audio {t : Track} (h : t.kind ≠ .audio) :
    t.resolveRate source = pure (Id.run (t.resolveRate fun _ => none)) := by
  unfold resolveRate
  split
  · cases hkind : t.kind with
    | audio => exact absurd hkind h
    | _ => rfl
  · rfl

/-- An audio track without a rate gets the answer of the source. -/
theorem resolveRate_of_audio [LawfulMonad m] {t : Track} (hkind : t.kind = .audio) (h : t.sampleRate = 0) :
    t.resolveRate source = t.answered <$> source t := by
  rw [resolveRate, if_pos h]
  split
  · rename_i hvideo
    rw [hkind] at hvideo
    cases hvideo
  · rw [map_eq_pure_bind]
    refine bind_congr fun answer => ?_
    cases answer <;> rfl
  · rename_i hother
    exact absurd hkind hother

/-- A track that leaves its rate is given to the source, and gets the answer; any other track is the same for every source. -/
theorem resolve_eq_ite [LawfulMonad m] {t : Track} (h : t.resolveAttributes.RateSaid) :
    t.resolve source =
      if t.unanswered.LeavesRate then t.unanswered.answered <$> source t.unanswered else pure t.unanswered := by
  have hplain : t.unanswered = Id.run (t.resolveAttributes.resolveRate fun _ => none) := rfl
  rw [resolve, hplain]
  generalize t.resolveAttributes = u at h
  by_cases hkind : u.kind = .audio
  · by_cases hrate : u.sampleRate = 0
    · have hleaves : u.LeavesRate := ⟨hkind, (h hkind).1 hrate⟩
      have hnone : Id.run (u.resolveRate fun _ => none) = u := by
        rw [resolveRate_of_audio _ hkind hrate]
        rfl
      rw [hnone, if_pos hleaves]
      exact resolveRate_of_audio source hkind hrate
    · have hleaves : ¬ u.LeavesRate := fun hl => hrate ((h hkind).2 hl.2)
      rw [resolveRate_of_ne_zero _ hrate, resolveRate_of_ne_zero _ hrate]
      exact (if_neg hleaves).symm
  · rw [resolveRate_of_ne_audio source hkind, if_neg]
    rw [resolveRate_eq]
    exact fun hl => hkind hl.1

end

end Track

/-- Tracks that differ at most in a rate that was left to a source. -/
def Track.SameButLeftRate (t u : Track) : Prop := u = { t with sampleRate := u.sampleRate } ∧ (¬ t.LeavesRate → u = t)

/-- A source that keeps account of the tracks it was asked about, in order, and whose answers may depend on it. -/
def RateSource.accounted (answer : List Track → Track → Option UInt32) : RateSource (StateM (List Track)) := fun t => do
  let asked ← get
  set (asked ++ [t])
  return answer asked t

/-- Tracks are added to the account as they are asked about. -/
theorem RateSource.run_mapM_accounted (answer : List Track → Track → Option UInt32) (ts asked : List Track) :
    ((ts.mapM (accounted answer)).run asked).2 = asked ++ ts := by
  induction ts generalizing asked with
  | nil => exact (List.append_nil asked).symm
  | cons t rest ih =>
    rw [List.mapM_cons, List.append_cons]
    exact ih (asked ++ [t])

namespace Session

/-! ## What a description needs of a source -/

/-- The tracks with answers dealt out to those that leave their rate, in order. -/
def deal : List Track → List (Option UInt32) → List Track
  | [], _ => []
  | t :: rest, answers =>
    if t.LeavesRate then t.answered answers.head?.join :: deal rest answers.tail else t :: deal rest answers

/-- Going through tracks is to ask about those that leave their rate, and to deal out the answers. -/
theorem mapM_resolve {m : Type → Type} [Monad m] [LawfulMonad m] (source : RateSource m) {ts : List Track}
    (h : ∀ t ∈ ts, t.resolveAttributes.RateSaid) :
    ts.mapM (Track.resolve source) =
      deal (ts.map Track.unanswered) <$> ((ts.map Track.unanswered).filter (·.LeavesRate)).mapM source := by
  induction ts with
  | nil => simp [deal]
  | cons t rest ih =>
    have hrest := ih fun u hu => h u (List.mem_cons_of_mem _ hu)
    rw [List.mapM_cons, Track.resolve_eq_ite source (h t List.mem_cons_self), hrest, List.map_cons]
    by_cases hleaves : t.unanswered.LeavesRate
    · rw [if_pos hleaves, List.filter_cons_of_pos (by simpa using hleaves), List.mapM_cons]
      simp [deal, hleaves]
    · rw [if_neg hleaves, List.filter_cons_of_neg (by simpa using hleaves)]
      simp [deal, hleaves]

/-- The rate of every track is said by its attributes alone. -/
theorem rateSaid_of_mem_rawTracks {lines : List Line} {t : Track} (ht : t ∈ rawTracks lines) :
    t.resolveAttributes.RateSaid := by
  obtain rfl | ⟨block, -, m, hread, rfl⟩ := eq_of_mem_rawTracks ht
  · intro haudio
    have htitle : (Track.title.addLines (Line.sections lines).1).resolveAttributes.kind = .title :=
      (congrArg (·.1) (Track.given_resolveAttributes _)).trans (Track.kind_port_addLines _ _).1
    rw [htitle] at haudio
    cases haudio
  · exact Track.rateSaid_resolveAttributes (Track.kind_addLines_ne_title (MediaLine.media_ne_nil hread) block.2)
      (Track.encoding_addLines m block.2)

/-- The tracks of a description for a source that never has an answer. -/
def unansweredTracks (text : Text) : List Track := tracksWith (fun _ => none) text

/-- Of these, the tracks that leave their rate to a source. -/
def questions (text : Text) : List Track := (unansweredTracks text).filter (·.LeavesRate)

theorem unansweredTracks_eq (text : Text) :
    unansweredTracks text = (rawTracks (Line.readAll text)).map Track.unanswered := tracksWith_eq _ text

/-- Reading a description is to ask its questions in order, and to deal out the answers. -/
theorem readWith_eq {m : Type → Type} [Monad m] [LawfulMonad m] (source : RateSource m) (text : Text) :
    readWith source text = (fun answers => ⟨deal (unansweredTracks text) answers⟩) <$> (questions text).mapM source := by
  have hall : ∀ t ∈ rawTracks (Line.readAll text), t.resolveAttributes.RateSaid := fun _ ht => rateSaid_of_mem_rawTracks ht
  rw [questions, unansweredTracks_eq, readWith, mapM_resolve source hall]
  simp

/-- Whatever a source with a state of its own does, what is left of it are answers that are dealt out. -/
theorem exists_tracks_eq_deal {σ : Type} (source : RateSource (StateM σ)) (state : σ) (text : Text) :
    ∃ answers, ((readWith source text).run state).1.tracks = deal (unansweredTracks text) answers := by
  rw [readWith_eq]
  exact ⟨(((questions text).mapM source).run state).1, rfl⟩

/-- Answers change nothing but the rates that were left. -/
theorem forall₂_deal (ts : List Track) (answers others : List (Option UInt32)) :
    List.Forall₂ Track.SameButLeftRate (deal ts answers) (deal ts others) := by
  induction ts generalizing answers others with
  | nil => exact .nil
  | cons t rest ih =>
    rw [deal, deal]
    by_cases hleaves : t.LeavesRate
    · rw [if_pos hleaves, if_pos hleaves]
      exact .cons ⟨rfl, fun hstays => absurd hleaves hstays⟩ (ih _ _)
    · rw [if_neg hleaves, if_neg hleaves]
      exact .cons ⟨rfl, fun _ => rfl⟩ (ih _ _)

/-- A track that is not audio is the same whatever the answers are. -/
theorem mem_of_mem_deal {ts : List Track} {answers : List (Option UInt32)} {t : Track} (ht : t ∈ deal ts answers)
    (hk : t.kind ≠ .audio) : t ∈ ts := by
  induction ts generalizing answers with
  | nil => exact ht
  | cons u rest ih =>
    rw [deal] at ht
    by_cases hleaves : u.LeavesRate
    · rw [if_pos hleaves] at ht
      rcases List.mem_cons.1 ht with rfl | ht
      · exact absurd hleaves.1 hk
      · exact List.mem_cons_of_mem _ (ih ht)
    · rw [if_neg hleaves] at ht
      rcases List.mem_cons.1 ht with rfl | ht
      · exact List.mem_cons_self
      · exact List.mem_cons_of_mem _ (ih ht)

/-- Without an answer, a track has the rate that its attributes say, unless it is video and they say none. -/
theorem exists_of_mem_unansweredTracks {text : Text} {t : Track} (ht : t ∈ unansweredTracks text) :
    ∃ u : Track, u.RateSaid ∧
      t = { u with sampleRate := if u.kind = .video ∧ u.sampleRate = 0 then defaultClockRate else u.sampleRate } := by
  rw [unansweredTracks_eq] at ht
  obtain ⟨raw, hraw, rfl⟩ := List.mem_map.1 ht
  refine ⟨raw.resolveAttributes, rateSaid_of_mem_rawTracks hraw, ?_⟩
  rw [Track.unanswered, Track.resolve_eq]
  generalize raw.resolveAttributes = u
  have hrate : Track.suppliedRate (fun _ => none) u =
      if u.kind = .video ∧ u.sampleRate = 0 then defaultClockRate else u.sampleRate := by
    unfold Track.suppliedRate
    by_cases hzero : u.sampleRate = 0
    · rw [hzero, if_pos rfl]
      cases u.kind with
      | audio => rfl
      | _ => simp
    · simp [hzero]
  rw [hrate]

/-- So audio lacks a rate exactly where the rate is left to a source. -/
theorem leavesRate_iff_of_mem {text : Text} {t : Track} (ht : t ∈ unansweredTracks text) :
    t.LeavesRate ↔ t.kind = .audio ∧ t.sampleRate = 0 := by
  obtain ⟨u, hsaid, rfl⟩ := exists_of_mem_unansweredTracks ht
  refine and_congr_right fun haudio => ?_
  have hkind : ¬ (u.kind = .video ∧ u.sampleRate = 0) := by
    rintro ⟨hvideo, -⟩
    cases haudio.symm.trans hvideo
  simp only [if_neg hkind]
  exact (hsaid haudio).symm

/-- Video has a rate in any case. -/
theorem sampleRate_ne_zero_of_video {text : Text} {t : Track} (ht : t ∈ unansweredTracks text) (hk : t.kind = .video) :
    t.sampleRate ≠ 0 := by
  obtain ⟨u, -, rfl⟩ := exists_of_mem_unansweredTracks ht
  by_cases hzero : u.sampleRate = 0
  · simp [show u.kind = .video from hk, hzero, defaultClockRate]
  · simp [hzero]

/-- A source of sample rates is asked where it is needed and can change nothing else, in five parts.
1. A track leaves its rate to a source when it is audio and the last encoding that is left to it and can be read gives a rate
   of zero. Without an answer the rate is zero then, and for no other audio track.
2. Whatever effects a source has, to read a description is to ask about these tracks in order, once each, and to deal out the
   answers: an answer is the rate of its track, and without one the track stays as it was.
3. So a source that keeps account of what it was asked about has these tracks on its account in the end, even if its answers
   depend on the account.
4. For two sources the tracks differ in nothing but the rates that were left.
5. Video has a rate whatever the source is. -/
theorem source_asked_where_needed (text : Text) :
    (∀ t ∈ unansweredTracks text, t.LeavesRate ↔ t.kind = .audio ∧ t.sampleRate = 0) ∧
    (∀ {m : Type → Type} [Monad m] [LawfulMonad m] (source : RateSource m),
      readWith source text = (fun answers => ⟨deal (unansweredTracks text) answers⟩) <$> (questions text).mapM source) ∧
    (∀ answer, ((readWith (RateSource.accounted answer) text).run []).2 = questions text) ∧
    (∀ {σ τ : Type} (source : RateSource (StateM σ)) (other : RateSource (StateM τ)) (s : σ) (s' : τ),
      List.Forall₂ Track.SameButLeftRate ((readWith source text).run s).1.tracks ((readWith other text).run s').1.tracks) ∧
    ∀ {σ : Type} (source : RateSource (StateM σ)) (s : σ),
      ∀ t ∈ ((readWith source text).run s).1.tracks, t.kind = .video → t.sampleRate ≠ 0 := by
  refine ⟨fun t => leavesRate_iff_of_mem, fun source => readWith_eq source text, fun answer => ?_, ?_, ?_⟩
  · rw [readWith_eq]
    exact RateSource.run_mapM_accounted answer (questions text) []
  · intro σ τ source other s s'
    obtain ⟨answers, htracks⟩ := exists_tracks_eq_deal source s text
    obtain ⟨others, hothers⟩ := exists_tracks_eq_deal other s' text
    rw [htracks, hothers]
    exact forall₂_deal (unansweredTracks text) answers others
  · intro σ source s t ht hvideo
    obtain ⟨answers, htracks⟩ := exists_tracks_eq_deal source s text
    rw [htracks] at ht
    exact sampleRate_ne_zero_of_video (mem_of_mem_deal ht (by rw [hvideo]; decide)) hvideo

/-- A description with video and three audio tracks, of whose encodings some give a rate of zero. -/
def zeroRateOffer : Text :=
  Text.ofLines ["v=0".toList, "m=video 0 RTP/AVP 96".toList, "a=rtpmap:96 H264/0".toList,
    "m=audio 0 RTP/AVP 97".toList, "a=rtpmap:97 mpeg4-generic/0".toList,
    "m=audio 0 RTP/AVP 98".toList, "a=rtpmap:98 L16/0".toList, "a=rtpmap:98 L16/44100".toList,
    "m=audio 0 RTP/AVP 99".toList, "a=rtpmap:99 opus/48000".toList, "a=rtpmap:99 opus/0".toList]

/-- A source that has one answer only. -/
def oneAnswer : RateSource (StateM (List Track)) := .accounted fun asked _ => if asked = [] then some 44100 else none

/-- The last encoding decides for which audio tracks such a source is asked, and the second of them stays without a rate. -/
theorem source_asked_where_needed_of_oneAnswer :
    (((readWith oneAnswer zeroRateOffer).run []).2.map fun t => String.ofList t.codec) = ["mpeg4-generic", "opus"] ∧
      (((readWith oneAnswer zeroRateOffer).run []).1.tracks.map (·.sampleRate)) = [0, 90000, 44100, 44100, 0] := by
  obtain ⟨-, -, hasked, -, -⟩ := source_asked_where_needed zeroRateOffer
  rw [oneAnswer, hasked]
  exact ⟨by decide +kernel, by decide +kernel⟩

end Session

end MediaSession
