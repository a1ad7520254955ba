import MediaSession.Text.Numeral

/-!
# Media lines

The value of an `m` line has four words or more: the medium, the port, the transport and the payload type. The port may
be followed by a slash and a count, which must be a number too. Further words are ignored.
-/

namespace MediaSession

/-- The value of an `m` line. -/
structure MediaLine where
  media : Text
  port : UInt16
  portCount : Option UInt16
  transport : Text
  payloadType : UInt8
  deriving DecidableEq, Repr

namespace MediaLine

/-- The port and the count of ports, if there is one. -/
def readPort? (word : Text) : Option (UInt16 × Option UInt16) :=
  match Text.readUInt16? word with
  | some port => some (port, none)
  | none =>
    (Text.cut? '/' word).bind fun (port, count) =>
      (Text.readUInt16? port).bind fun port => (Text.readUInt16? count).map fun count => (port, some count)

/-- The media line that a value writes. -/
def read? (value : Text) : Option MediaLine :=
  match Text.words value with
  | media :: port :: transport :: payloadType :: _ =>
    (Text.readUInt8? payloadType).bind fun payloadType =>
      (readPort? port).map fun (port, portCount) => { media, port, portCount, transport, payloadType }
  | _ => none

end MediaLine

end MediaSession
