import MediaSession.Media.PayloadTable

/-!
# Streams

A stream is what a sender offers: a codec with its parameters. It has a fixed payload type only when the table
describes it exactly.
-/

namespace MediaSession

/-- A stream that is offered. Its kind and encoding name are those of its codec unless they are given. -/
structure Stream where
  codec : Codec
  /-- The samples of a second; of meaning for audio only. -/
  sampleRate : UInt32
  /-- The number of channels; of meaning for audio only. -/
  channels : UInt32
  /-- The bits of a second, 0 when it is not known. -/
  bitRate : UInt32 := 0
  kind : TrackKind := codec.kind
  encodingName : Text := codec.name
  deriving DecidableEq, Repr

namespace Stream

/-- A video stream. -/
def video (codec : Codec) : Stream := { codec, sampleRate := defaultClockRate, channels := 0 }

/-- An audio stream. -/
def audio (codec : Codec) (sampleRate channels : UInt32) : Stream := { codec, sampleRate, channels }

/-- The fixed payload type of the stream. An audio stream has none when its sample rate or its number of channels is not
that of the table: the payload type would misdescribe it. -/
def fixedPayloadType? (s : Stream) : Option UInt8 :=
  (PayloadTable.ofCodec? s.codec).bind fun e =>
    if s.kind = .audio ∧ (s.sampleRate ≠ e.clockRate ∨ s.channels ≠ e.channels) then none else some e.payloadType

end Stream

end MediaSession
