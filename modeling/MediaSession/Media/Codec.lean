import MediaSession.Media.Kind

/-!
# Codecs

The codecs that a track may be negotiated with, and the encoding names by which descriptions call them.
-/

namespace MediaSession

/-- A codec. -/
inductive Codec where
  /-- Any codec other than those below. -/
  | invalid
  | h264
  | h265
  | vp8
  | vp9
  | av1
  | jpeg
  | aac
  /-- Pulse code modulation with the A-law. -/
  | g711A
  /-- Pulse code modulation with the mu-law. -/
  | g711U
  | opus
  /-- Linear samples of sixteen bits. -/
  | l16
  deriving DecidableEq, Repr

namespace Codec

/-- The encoding name of the codec. -/
def name : Codec → Text
  | .invalid => "invalid".toList
  | .h264 => "H264".toList
  | .h265 => "H265".toList
  | .vp8 => "VP8".toList
  | .vp9 => "VP9".toList
  | .av1 => "AV1".toList
  | .jpeg => "JPEG".toList
  | .aac => "mpeg4-generic".toList
  | .g711A => "PCMA".toList
  | .g711U => "PCMU".toList
  | .opus => "opus".toList
  | .l16 => "L16".toList

/-- The known codecs. -/
def known : List Codec := [.h264, .h265, .vp8, .vp9, .av1, .jpeg, .aac, .g711A, .g711U, .opus, .l16]

/-- The codec that an encoding name calls, in letters of either case. -/
def ofName (name : Text) : Codec := (known.find? fun c => Text.sameLetters c.name name).getD .invalid

/-- The kind of media that the codec carries. -/
def kind : Codec → TrackKind
  | .h264 | .h265 | .vp8 | .vp9 | .av1 | .jpeg => .video
  | .aac | .g711A | .g711U | .opus | .l16 => .audio
  | .invalid => .invalid

/-- The name `invalid` calls no known codec, so every codec is read back from its own name. -/
theorem ofName_name (c : Codec) : ofName c.name = c := by
  cases c <;> decide

end Codec

end MediaSession
