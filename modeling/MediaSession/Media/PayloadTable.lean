import MediaSession.Media.Codec

/-!
# Static payload types

Some payload types stand for one fixed encoding, with its clock rate and its number of channels, so a description need
not spell them out. The numbers from 96 on are never fixed. A number without an entry counts as one channel at 90 kHz.
-/

namespace MediaSession

/-- The payload type of a block that has declared none. -/
def unsetPayloadType : UInt8 := 255

/-- The first payload type that is never fixed. -/
def firstDynamicPayloadType : UInt8 := 96

/-- The clock rate of video, and of every payload type without an entry. -/
def defaultClockRate : UInt32 := 90000

/-- One fixed payload type. -/
structure PayloadEntry where
  name : Text
  kind : TrackKind
  payloadType : UInt8
  clockRate : UInt32
  channels : UInt32
  codec : Codec
  deriving DecidableEq, Repr

namespace PayloadTable

/-- The fixed payload types, in ascending order. -/
def entries : List PayloadEntry := [
  ⟨"PCMU".toList, .audio, 0, 8000, 1, .g711U⟩,
  ⟨"GSM".toList, .audio, 3, 8000, 1, .invalid⟩,
  ⟨"G723".toList, .audio, 4, 8000, 1, .invalid⟩,
  ⟨"DVI4_8000".toList, .audio, 5, 8000, 1, .invalid⟩,
  ⟨"DVI4_16000".toList, .audio, 6, 16000, 1, .invalid⟩,
  ⟨"LPC".toList, .audio, 7, 8000, 1, .invalid⟩,
  ⟨"PCMA".toList, .audio, 8, 8000, 1, .g711A⟩,
  ⟨"G722".toList, .audio, 9, 8000, 1, .invalid⟩,
  ⟨"L16_Stereo".toList, .audio, 10, 44100, 2, .l16⟩,
  ⟨"L16_Mono".toList, .audio, 11, 44100, 1, .invalid⟩,
  ⟨"QCELP".toList, .audio, 12, 8000, 1, .invalid⟩,
  ⟨"CN".toList, .audio, 13, 8000, 1, .invalid⟩,
  ⟨"MPA".toList, .audio, 14, 90000, 1, .invalid⟩,
  ⟨"G728".toList, .audio, 15, 8000, 1, .invalid⟩,
  ⟨"DVI4_11025".toList, .audio, 16, 11025, 1, .invalid⟩,
  ⟨"DVI4_22050".toList, .audio, 17, 22050, 1, .invalid⟩,
  ⟨"G729".toList, .audio, 18, 8000, 1, .invalid⟩,
  ⟨"CelB".toList, .video, 25, 90000, 1, .invalid⟩,
  ⟨"JPEG".toList, .video, 26, 90000, 1, .jpeg⟩,
  ⟨"nv".toList, .video, 28, 90000, 1, .invalid⟩,
  ⟨"H261".toList, .video, 31, 90000, 1, .invalid⟩,
  ⟨"MPV".toList, .video, 32, 90000, 1, .invalid⟩,
  ⟨"MP2T".toList, .video, 33, 90000, 1, .invalid⟩,
  ⟨"H263".toList, .video, 34, 90000, 1, .invalid⟩]

/-- The entry of a payload type. -/
def find? (payloadType : UInt8) : Option PayloadEntry := entries.find? (·.payloadType == payloadType)

/-- The clock rate of a payload type. -/
def clockRate (payloadType : UInt8) : UInt32 := (find? payloadType).elim defaultClockRate (·.clockRate)

/-- The number of channels of a payload type. -/
def channels (payloadType : UInt8) : UInt32 := (find? payloadType).elim 1 (·.channels)

/-- The kind of media of a payload type. -/
def kind (payloadType : UInt8) : TrackKind := (find? payloadType).elim .invalid (·.kind)

/-- The name of a payload type. -/
def name (payloadType : UInt8) : Text := (find? payloadType).elim "unknown payload type".toList (·.name)

/-- The codec of a payload type. -/
def codec (payloadType : UInt8) : Codec := (find? payloadType).elim .invalid (·.codec)

/-- The first entry of a codec. Entries without a codec are no codec's entries. -/
def ofCodec? (codec : Codec) : Option PayloadEntry :=
  if codec = .invalid then none else entries.find? (·.codec == codec)

/-- The clock rate of a codec's entry. -/
def clockRateOfCodec (codec : Codec) : UInt32 := (ofCodec? codec).elim defaultClockRate (·.clockRate)

end PayloadTable

end MediaSession
