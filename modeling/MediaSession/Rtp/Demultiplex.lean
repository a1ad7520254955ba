import MediaSession.Rtp.Header

/-!
# Telling packets apart

Media packets and control packets may share a port. They are told apart by their first octets alone: control packets
have the payload types from 64 to 95, and media packets are of version 2 and have the others.
-/

namespace MediaSession.Rtp

/-- Whether a payload type, the marker bit left out, is one that control packets use. -/
def isControlType (payloadType : UInt8) : Bool := 64 ≤ payloadType && payloadType < 96

/-- Whether the octets look like a media packet. -/
def isMedia : Bytes → Bool
  | first :: second :: _ => !isControlType (second &&& 0x7f) && first >>> 6 == version
  | _ => false

/-- Whether the octets look like a control packet, of whatever version. -/
def isControl : Bytes → Bool
  | _ :: second :: _ => isControlType (second &&& 0x7f)
  | _ => false

/-- The four octets from position 8 on, where a media packet names its sender. -/
def ssrc? (bytes : Bytes) : Option UInt32 :=
  match (bytes.drop 8).take 4 with
  | [a, b, c, d] => some (Bytes.toUInt32 a b c d)
  | _ => none

end MediaSession.Rtp
