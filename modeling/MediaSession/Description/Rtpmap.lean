import MediaSession.Text.Numeral

/-!
# Encodings of payload types

The value of an `rtpmap` attribute is `type name/rate` or `type name/rate/channels`: a payload type, the encoding name
it stands for, its clock rate and, for audio, the number of channels.
-/

namespace MediaSession

/-- The value of an `rtpmap` attribute. -/
structure Rtpmap where
  payloadType : UInt8
  codec : Text
  sampleRate : UInt32
  channels : Option UInt32
  deriving DecidableEq, Repr

namespace Rtpmap

/-- The encoding: a name that is not empty, then a rate and perhaps a number of channels, with blanks around them
allowed. -/
def readEncoding? (payloadType : UInt8) (encoding : Text) : Option Rtpmap :=
  match encoding.splitOn '/' with
  | [c :: codec, rate] =>
    (Text.readUInt32? (Text.trim rate)).map fun sampleRate => ⟨payloadType, c :: codec, sampleRate, none⟩
  | [c :: codec, rate, channels] =>
    (Text.readUInt32? (Text.trim rate)).bind fun sampleRate =>
      (Text.readUInt32? (Text.trim channels)).map fun channels =>
        ⟨payloadType, c :: codec, sampleRate, some channels⟩
  | _ => none

/-- The encoding that a value writes: the payload type ends at the first blank. -/
def read? (value : Text) : Option Rtpmap :=
  (Text.cutWhere? Text.isBlank (Text.trim value)).bind fun (payloadType, encoding) =>
    (Text.readUInt8? payloadType).bind fun payloadType => readEncoding? payloadType (Text.trimStart encoding)

end Rtpmap

end MediaSession
