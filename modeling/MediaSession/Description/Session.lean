import MediaSession.Description.Resolve
import MediaSession.Description.Written

/-!
# Session descriptions

A session is the list of its tracks, the title first and then the media in the order of their blocks. Reading never
fails: a block whose media line cannot be read is left out as a whole, and so is every line that has not the form of one.
-/

namespace MediaSession

/-- A session as a description gives it. -/
structure Session where
  tracks : List Track := []
  deriving DecidableEq, Repr

/-- How far a description has been read, line by line. -/
structure Reading where
  /-- The tracks of the blocks that have come to their end. -/
  finished : List Track := []
  /-- The track of the block that the next line belongs to. The first one is the title. -/
  track : Track := .title
  /-- Whether this track is one of the session. It is not when the media line of its block could not be read. -/
  kept : Bool := true
  deriving DecidableEq, Repr

namespace Reading

/-- The tracks when the block comes to its end. -/
def tracks (r : Reading) : List Track := if r.kept then r.finished ++ [r.track] else r.finished

/-- Reads one more line. With an `m` line the block before it comes to its end and another one begins. -/
def next (r : Reading) : Line → Reading
  | .media value =>
    match MediaLine.read? value with
    | some m => { finished := r.tracks, track := .ofMediaLine m, kept := true }
    | none => { finished := r.tracks, track := {}, kept := false }
  | line => { r with track := r.track.addLine line }

/-- Reads more lines. -/
def run (r : Reading) (lines : List Line) : Reading := lines.foldl next r

end Reading

namespace Session

/-- The tracks of a description before their attributes are looked at. -/
def rawTracks (lines : List Line) : List Track := (({} : Reading).run lines).tracks

/-- Reads a description and asks the given source for the sample rates that it leaves out. -/
def readWith {m : Type → Type} [Monad m] (source : RateSource m) (text : Text) : m Session := do
  return ⟨← (rawTracks (Line.readAll text)).mapM (Track.resolve source)⟩

/-- Reads a description. The sample rates it leaves out are those of the audio configurations. -/
def read (text : Text) : Session := readWith (m := Id) Track.configuredRate? text

/-- The first track of a kind. -/
def first? (s : Session) (kind : TrackKind) : Option Track := s.tracks.find? (·.kind == kind)

/-- The last track of a kind. -/
def last? (s : Session) (kind : TrackKind) : Option Track := (s.tracks.filter (·.kind == kind)).getLast?

/-- Whether there is something to play. -/
def isPlayable (s : Session) : Bool := (s.first? .audio).isSome || (s.first? .video).isSome

/-- The tracks of which each is the first audio or the first video track. -/
def playableFrom (audio video : Bool) : List Track → List Track
  | [] => []
  | t :: rest =>
    match t.kind with
    | .audio => if audio then playableFrom audio video rest else t :: playableFrom true video rest
    | .video => if video then playableFrom audio video rest else t :: playableFrom audio true rest
    | _ => playableFrom audio video rest

/-- The first audio and the first video track, in the order of the description. -/
def playableTracks (s : Session) : List Track := playableFrom false false s.tracks

/-- The control address of the session: that of its title if it is absolute, and the given one otherwise. -/
def controlUrl (s : Session) (url : Text) : Text :=
  match s.first? .title with
  | some title => if Track.isAbsolute title.control then title.control else url
  | none => url

/-- The text of a session: its title, its video and its audio, of each kind the last track, under port 0. -/
def text (s : Session) : Text :=
  [TrackKind.title, .video, .audio].flatMap fun kind => ((s.last? kind).elim [] fun t => t.text 0)

end Session

end MediaSession
