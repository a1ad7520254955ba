import MediaSession.Binary32.Basic
import MediaSession.Description.Line
import MediaSession.Description.MediaLine
import MediaSession.Media.PayloadTable

/-!
# Tracks

A track is one block of a description: its lines as they were given, and what they say about the medium.
-/

namespace MediaSession

/-- One block of a description. -/
structure Track where
  kind : TrackKind := .invalid
  /-- The RTP payload type, 255 while none has been declared. -/
  payloadType : UInt8 := unsetPayloadType
  /-- The clock rate in ticks a second. -/
  sampleRate : UInt32 := 0
  channels : UInt32 := 0
  port : UInt16 := 0
  /-- The value of the last `t` line. -/
  timing : Text := []
  /-- The value of the last `b` line. -/
  bandwidth : Text := []
  /-- The start of the time range, in seconds. -/
  start : Binary32 := .zero
  /-- The end of the time range, 0 when it is open. -/
  stop : Binary32 := .zero
  /-- The length of the time range. -/
  duration : Binary32 := .zero
  /-- The encoding name. -/
  codec : Text := []
  /-- The format parameters, without the payload type before them. -/
  format : Text := []
  /-- The control address. -/
  control : Text := []
  /-- The attributes in the order of their lines; names may repeat. -/
  attributes : List Attribute := []
  /-- The value of the last line of every other letter, in the order of the letters. -/
  other : List (Char × Text) := []
  deriving DecidableEq, Repr

namespace Track

/-- The block of the session, before any line. -/
def title : Track := { kind := .title }

/-- The block of a media line, before any further line: the table gives its rate and channels. -/
def ofMediaLine (m : MediaLine) : Track :=
  { kind := .ofMedia m.media, port := m.port, payloadType := m.payloadType,
    sampleRate := PayloadTable.clockRate m.payloadType, channels := PayloadTable.channels m.payloadType }

/-- Sets the value of a letter, and keeps the order of the letters. -/
def setLetter (letter : Char) (value : Text) : List (Char × Text) → List (Char × Text)
  | [] => [(letter, value)]
  | (c, v) :: rest =>
    if letter < c then (letter, value) :: (c, v) :: rest
    else if letter = c then (letter, value) :: rest
    else (c, v) :: setLetter letter value rest

/-- The track with one more line. An `m` line belongs to no track. -/
def addLine (t : Track) : Line → Track
  | .timing value => { t with timing := value }
  | .bandwidth value => { t with bandwidth := value }
  | .attribute a => { t with attributes := t.attributes ++ [a] }
  | .other letter value => { t with other := setLetter letter value t.other }
  | .media _ => t

/-- The track with more lines. -/
def addLines (t : Track) (lines : List Line) : Track := lines.foldl addLine t

/-- The name of the payload type. -/
def payloadName (t : Track) : Text := PayloadTable.name t.payloadType

/-- The values of the attributes of the given name, in order. -/
def valuesOf (t : Track) (name : Text) : List Text := (t.attributes.filter (·.name == name)).map (·.value)

/-- The value of the first attribute of the given name. -/
def valueOf? (t : Track) (name : Text) : Option Text := (t.valuesOf name).head?

/-- Whether the track has no duration of its own. -/
def isLive (t : Track) : Bool := t.duration.isNonpositive

/-- Whether an address says how it is to be reached, and so needs no base. -/
def isAbsolute (address : Text) : Bool := Text.includes "://".toList address

/-- The control address of the track, below the given base unless it is absolute. -/
def controlUrl (t : Track) (base : Text) : Text :=
  if isAbsolute t.control then t.control else base ++ '/' :: t.control

end Track

end MediaSession
