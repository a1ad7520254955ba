import MediaSession.Description.Rtpmap
import MediaSession.Description.TimeRange
import MediaSession.Description.Track
import MediaSession.Media.AudioConfig

/-!
# What the attributes of a track say

Four attributes are looked at. The first `range` gives the times, the last `control` the control address. Each `rtpmap`
and `fmtp` names a payload type: those of another type than the track's are dropped, and the others set the encoding and
the format parameters, the last one winning. A track whose payload type is not declared drops none of them and takes the
first type that an `rtpmap` gives it. At the end a rate of zero is replaced: by the rate of video, or for audio by the
answer of a source of sample rates, if it has one.
-/

namespace MediaSession

/-- A source of sample rates for audio tracks whose description gives none. It may have effects of its own. -/
abbrev RateSource (m : Type → Type) := Track → m (Option UInt32)

namespace Track

/-- The payload type that an attribute value begins with: after any blanks, the digits up to the first other character,
when they denote a number below 256. -/
def leadingPayloadType? (value : Text) : Option UInt8 :=
  Text.readUInt8? ((Text.trimStart value).takeWhile Char.isDigit)

/-- Whether an attribute value that names a payload type is none of the track's business. -/
def isForeign (t : Track) (value : Text) : Bool :=
  t.payloadType != unsetPayloadType && leadingPayloadType? value != some t.payloadType

/-- Goes through the attributes in order. Those of the given name are dropped when they are foreign to the track as it
is by then, and otherwise kept and applied to it; all others are kept. -/
def winnowFrom (name : Text) (apply : Track → Text → Track) : Track → List Attribute → Track × List Attribute
  | t, [] => (t, [])
  | t, a :: rest =>
    if a.name = name then
      if t.isForeign a.value then winnowFrom name apply t rest
      else
        let (t', kept) := winnowFrom name apply (apply t a.value) rest
        (t', a :: kept)
    else
      let (t', kept) := winnowFrom name apply t rest
      (t', a :: kept)

/-- The track with the attributes of the given name winnowed and applied. -/
def winnow (name : Text) (apply : Track → Text → Track) (t : Track) : Track :=
  let (t', kept) := winnowFrom name apply t t.attributes
  { t' with attributes := kept }

/-- Applies an `rtpmap` value. With a number of channels it sets the encoding, the rate and the channels; without, the
payload type, the encoding and the rate. A value that cannot be read changes nothing. -/
def applyRtpmap (t : Track) (value : Text) : Track :=
  match Rtpmap.read? value with
  | some ⟨_, codec, sampleRate, some channels⟩ => { t with codec, sampleRate, channels }
  | some ⟨payloadType, codec, sampleRate, none⟩ => { t with payloadType, codec, sampleRate }
  | none => t

/-- Applies an `fmtp` value: the format parameters are what follows the digits at its beginning. -/
def applyFormat (t : Track) (value : Text) : Track :=
  { t with format := Text.trimStart (value.dropWhile Char.isDigit) }

/-- Takes the times from the first `range` attribute, if it can be read. -/
def resolveRange (t : Track) : Track :=
  match (t.valueOf? "range".toList).bind TimeRange.read? with
  | some r => { t with start := r.start, stop := r.stop, duration := r.duration }
  | none => t

/-- Takes the encoding and the format parameters of a medium from the `rtpmap` and `fmtp` attributes. -/
def resolveEncoding (t : Track) : Track :=
  if t.kind = .title then t else (t.winnow "rtpmap".toList applyRtpmap).winnow "fmtp".toList applyFormat

/-- Takes the control address from the last `control` attribute. -/
def resolveControl (t : Track) : Track :=
  match (t.valuesOf "control".toList).getLast? with
  | some control => { t with control }
  | none => t

/-- What the attributes say, before a missing rate is replaced. -/
def resolveAttributes (t : Track) : Track := t.resolveRange.resolveEncoding.resolveControl

/-- Replaces a rate of zero. Only audio tracks need the source. -/
def resolveRate {m : Type → Type} [Monad m] (source : RateSource m) (t : Track) : m Track :=
  if t.sampleRate = 0 then
    match t.kind with
    | .video => pure { t with sampleRate := defaultClockRate }
    | .audio => do
      match ← source t with
      | some sampleRate => pure { t with sampleRate }
      | none => pure t
    | _ => pure t
  else pure t

/-- The track with all that its attributes say. -/
def resolve {m : Type → Type} [Monad m] (source : RateSource m) (t : Track) : m Track :=
  resolveRate source t.resolveAttributes

/-- The sample rate in the format parameters of an AAC track. -/
def configuredRate? (t : Track) : Option UInt32 :=
  if Codec.ofName t.codec = .aac then AudioConfig.sampleRateOfParameters? t.format else none

end Track

end MediaSession
