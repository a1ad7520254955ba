import MediaSession.Binary32.Shortest

/-!
# Title blocks

The lines at the head of a description that is written: the version, the header lines, the range of times, which is
open for a live session, and the control address of the whole.
-/

namespace MediaSession

/-- The head of a description that is written. -/
structure TitleBlock where
  /-- The length of the session in seconds, zero or less for a live one. -/
  duration : Binary32
  /-- Letters and values of lines that stand in place of the usual header, unless there are none. -/
  header : List (Text × Text) := []
  /-- The number on the version line. -/
  version : UInt32 := 0
  deriving DecidableEq, Repr

namespace TitleBlock

/-- The name of the server in the session line of the usual header. -/
def serverName : Text := "rtsp-media".toList

/-- The lines of the usual header. -/
def usualHeader : List Text :=
  ["o=- 0 0 IN IP4 0.0.0.0".toList, "s=Streamed by ".toList ++ serverName, "c=IN IP4 0.0.0.0".toList,
    "t=0 0".toList]

/-- The header lines. -/
def headerLines (b : TitleBlock) : List Text :=
  if b.header = [] then usualHeader else b.header.map fun (key, value) => key ++ '=' :: value

/-- The length that the block states: zero for a live session. -/
def statedDuration (b : TitleBlock) : Binary32 := if b.duration.isNonpositive then .zero else b.duration

/-- The value of the range attribute. -/
def range (b : TitleBlock) : Text :=
  if b.duration.isNonpositive then "npt=now-".toList else "npt=0-".toList ++ b.duration.write

/-- The lines of the block. -/
def lines (b : TitleBlock) : List Text :=
  ("v=".toList ++ Text.ofNat b.version.toNat) :: b.headerLines ++
    ["a=range:".toList ++ b.range, "a=control:*".toList]

/-- The text of the block. -/
def text (b : TitleBlock) : Text := Text.ofLines b.lines

/-- A title block has no payload type, which is stated as 0. -/
def payloadType (_ : TitleBlock) : UInt8 := 0

/-- A title block has no clock rate, which is stated as 0. -/
def sampleRate (_ : TitleBlock) : UInt32 := 0

end TitleBlock

end MediaSession
