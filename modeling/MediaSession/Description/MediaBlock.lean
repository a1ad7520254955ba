import MediaSession.Media.Stream
import MediaSession.Text.Numeral

/-!
# Media blocks

The lines that offer a stream under a payload type: the media line, the bandwidth in units of 1024 bits a second when it
is at least one unit, and, for a payload type that is not fixed, the encoding it stands for.
-/

namespace MediaSession

/-- The block of a stream in a description that is written. -/
structure MediaBlock where
  payloadType : UInt8
  stream : Stream
  deriving DecidableEq, Repr

namespace MediaBlock

/-- The clock rate: that of all video, or the sample rate of the stream. -/
def sampleRate (b : MediaBlock) : UInt32 :=
  if b.stream.kind = .video then defaultClockRate else b.stream.sampleRate

/-- The media line. The port is agreed on later. -/
def mediaLine (kind : TrackKind) (port : UInt16) (payloadType : UInt8) : Text :=
  "m=".toList ++ kind.name ++ ' ' :: Text.ofNat port.toNat ++ " RTP/AVP ".toList ++ Text.ofNat payloadType.toNat

/-- The bandwidth line, if there is one. -/
def bandwidthLine (b : MediaBlock) : List Text :=
  let units := b.stream.bitRate.toNat / 1024
  if units = 0 then [] else ["b=AS:".toList ++ Text.ofNat units]

/-- The line of the encoding, if there is one. Audio states its number of channels. -/
def encodingLine (b : MediaBlock) : List Text :=
  if b.payloadType < firstDynamicPayloadType then []
  else
    ["a=rtpmap:".toList ++ Text.ofNat b.payloadType.toNat ++ ' ' :: b.stream.encodingName ++
      '/' :: Text.ofNat b.sampleRate.toNat ++
      (if b.stream.kind = .audio then '/' :: Text.ofNat b.stream.channels.toNat else [])]

/-- The lines of the block. -/
def lines (b : MediaBlock) : List Text :=
  mediaLine b.stream.kind 0 b.payloadType :: b.bandwidthLine ++ b.encodingLine

/-- The text of the block. -/
def text (b : MediaBlock) : Text := Text.ofLines b.lines

end MediaBlock

end MediaSession
