import MediaSession.Media.BitReader
import MediaSession.Text.Hex

/-!
# Audio configurations

The format parameters of an AAC track may hold the decoder's configuration in hexadecimal, and the configuration holds
the sample rate. It is a sequence of bits: five for the object type, six more when all five are set, then four for the
rate, an index into a table or, when all four are set, a sign that the rate itself follows in 24 bits.
-/

namespace MediaSession.AudioConfig

/-- The sample rates that an index stands for. -/
def sampleRates : List UInt32 :=
  [96000, 88200, 64000, 48000, 44100, 32000, 24000, 22050, 16000, 12000, 11025, 8000, 7350]

/-- The reader after the object type. -/
def skipObjectType? (r : BitReader) : Option BitReader :=
  (r.read 5).bind fun (type, r) => if type = 31 then (r.read 6).map (·.2) else some r

/-- The sample rate of a configuration, unless a field is cut short or the index stands for no rate. -/
def sampleRate? (config : Bytes) : Option UInt32 :=
  (skipObjectType? { data := config }).bind fun r =>
    (r.read 4).bind fun (index, r) =>
      if index = 15 then (r.read 24).map (·.1) else sampleRates[index.toNat]?

/-- The value of the first parameter of the given name, in letters of either case, among `name=value` parameters between
semicolons. -/
def parameter? (name : Text) (parameters : Text) : Option Text :=
  (((parameters.splitOn ';').filterMap fun p => Text.cut? '=' (Text.trim p)).find? fun (key, _) =>
    Text.sameLetters key name).map (·.2)

/-- The sample rate in the `config` parameter of format parameters. -/
def sampleRateOfParameters? (parameters : Text) : Option UInt32 :=
  (parameter? "config".toList parameters).bind fun value =>
    match Hex.decode (Text.octets (Text.trim value)) with
    | .ok config => sampleRate? config
    | .error _ => none

end MediaSession.AudioConfig
