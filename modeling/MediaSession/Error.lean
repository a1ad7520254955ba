import MediaSession.Ports.Protocol
import MediaSession.Text.Quoted

/-!
# Errors

What can go wrong, by its cause, and the message for each. Descriptions are not among them: reading one never fails.
-/

namespace MediaSession

/-- The least number of ports that a range must hold. -/
def minPortSpan : Nat := 36

/-- Why an operation failed. -/
inductive Error where
  /-- The text is no range of ports. -/
  | invalidPortRange (text : Text)
  /-- The range holds too few ports. -/
  | portRangeTooNarrow (min max : UInt16)
  /-- There are fewer octets than a packet needs. -/
  | tooShort (size : Nat)
  /-- A frame does not begin with its mark. -/
  | missingFrameMark
  /-- A frame holds more or fewer octets than it says. -/
  | frameLengthMismatch (declared actual : Nat)
  /-- A packet is too long for a frame. -/
  | tooLargeForFrame (size : Nat)
  /-- Every pair of ports is held. -/
  | poolExhausted (protocol : Protocol)
  /-- A socket could not be opened. -/
  | socketRefused (protocol : Protocol) (port : UInt16) (reason : String)
  /-- The system reports a failure. -/
  | system (reason : String)
  deriving DecidableEq, Repr

/-- The message of an error. -/
def Error.message : Error → String
  | invalidPortRange text => "parse error: invalid port range " ++ String.ofList (Text.quoted text)
  | portRangeTooNarrow min max =>
    "port range " ++ toString min ++ "-" ++ toString max ++ " is too narrow (at least " ++ toString minPortSpan ++
      " ports required)"
  | tooShort size => "RTP error: " ++ toString size ++ " bytes is shorter than the RTP header"
  | missingFrameMark => "RTP error: interleaved frame must start with '$'"
  | frameLengthMismatch declared actual =>
    "RTP error: interleaved prefix declares " ++ toString declared ++ " bytes, frame carries " ++ toString actual
  | tooLargeForFrame size => "RTP error: " ++ toString size ++ " bytes does not fit a 16-bit interleaved length"
  | poolExhausted protocol => "no reserved " ++ protocol.name ++ " port pair left in pool"
  | socketRefused protocol port reason =>
    "open " ++ protocol.name ++ " socket on port " ++ toString port ++ " failed: " ++ reason
  | system reason => "I/O error: " ++ reason

end MediaSession
