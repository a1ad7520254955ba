import MediaSession.Description.MediaBlock
import MediaSession.Description.TitleBlock
import MediaSession.Description.Track

/-!
# Written tracks

A track is written as the block of a description. The title is written anew from its duration. A video or audio track
keeps its bandwidth and its attributes, with the last control address moved to the end; its timing and its other lines
are not written. A track of no known kind leaves no text.
-/

namespace MediaSession.Track

/-- The attributes as they are written: all but the control addresses, then the last of these. -/
def writtenAttributes (t : Track) : List Attribute :=
  t.attributes.filter (·.name != "control".toList) ++
    (t.attributes.filter (·.name == "control".toList)).getLast?.toList

/-- The lines of a video or audio track under the given port. -/
def lines (t : Track) (port : UInt16) : List Text :=
  MediaBlock.mediaLine t.kind port t.payloadType ::
    (if t.bandwidth = [] then [] else ["b=".toList ++ t.bandwidth]) ++ t.writtenAttributes.map Attribute.write

/-- The text of the track under the given port. -/
def text (t : Track) (port : UInt16) : Text :=
  match t.kind with
  | .title => TitleBlock.text { duration := t.duration }
  | .video | .audio => Text.ofLines (t.lines port)
  | .invalid => []

end MediaSession.Track
