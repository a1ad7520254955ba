import MediaSession.Bytes
import MediaSession.Text.Hex

/-!
# RTP packets as they lie in a buffer

A packet begins with twelve octets: two bits of version, the padding and the extension bit and a count of contributing
sources; the marker bit and the payload type; the sequence number; the timestamp; the sender. Then follow four octets
for each contributing source, the extension (four octets that end in a length, and that many words), the payload, and
the padding, whose length is the last octet of the packet.

The lengths may claim more octets than there are. Then the size of the payload is negative, and there is none.
-/

namespace MediaSession.Rtp

/-- The number of octets at the beginning of every packet. -/
def fixedSize : Nat := 12

/-- The version of the protocol. -/
def version : UInt8 := 2

/-- A packet, seen through its header: octets that are enough for the fixed part. -/
structure Header where
  bytes : Bytes
  fixedSize_le : fixedSize ≤ bytes.length
  deriving DecidableEq, Repr

namespace Header

/-- The packet in the given octets, if they hold the fixed part. -/
def ofBytes? (bytes : Bytes) : Option Header :=
  if h : fixedSize ≤ bytes.length then some ⟨bytes, h⟩ else none

/-- The octet at a position, 0 beyond the end. -/
def octet (h : Header) (position : Nat) : UInt8 := h.bytes.getD position 0

/-- The number of octets of the packet. -/
def size (h : Header) : Nat := h.bytes.length

/-- The version of the protocol that the packet states. -/
def version (h : Header) : UInt8 := h.octet 0 >>> 6

/-- Whether there is padding. -/
def hasPadding (h : Header) : Bool := h.octet 0 &&& 0x20 != 0

/-- Whether there is an extension. -/
def hasExtension (h : Header) : Bool := h.octet 0 &&& 0x10 != 0

/-- The number of contributing sources. -/
def sourceCount (h : Header) : UInt8 := h.octet 0 &&& 0x0f

/-- The marker bit. -/
def marker (h : Header) : Bool := h.octet 1 &&& 0x80 != 0

/-- The payload type. -/
def payloadType (h : Header) : UInt8 := h.octet 1 &&& 0x7f

/-- The sequence number. -/
def sequence (h : Header) : UInt16 := Bytes.toUInt16 (h.octet 2) (h.octet 3)

/-- The timestamp in ticks of the clock rate. -/
def timestamp (h : Header) : UInt32 := Bytes.toUInt32 (h.octet 4) (h.octet 5) (h.octet 6) (h.octet 7)

/-- The sender. -/
def ssrc (h : Header) : UInt32 := Bytes.toUInt32 (h.octet 8) (h.octet 9) (h.octet 10) (h.octet 11)

/-- The octets from an offset after the fixed part, if there are that many. -/
def region? (h : Header) (offset length : Nat) : Option Bytes :=
  if fixedSize + offset + length ≤ h.size then some ((h.bytes.drop (fixedSize + offset)).take length) else none

/-- The octets that the contributing sources take. -/
def sourcesSize (h : Header) : Nat := 4 * h.sourceCount.toNat

/-- The contributing sources, if there are any and they are not cut off. -/
def sources? (h : Header) : Option Bytes :=
  if h.sourceCount = 0 then none else h.region? 0 h.sourcesSize

/-- The first four octets of the extension: 16 bits for the profile and the number of words that follow. -/
def extensionLead? (h : Header) : Option Bytes :=
  if h.hasExtension then h.region? h.sourcesSize 4 else none

/-- The octets of the extension after the first four. -/
def extensionSize (h : Header) : Nat :=
  match h.extensionLead? with
  | some [_, _, high, low] => 4 * (Bytes.toUInt16 high low).toNat
  | _ => 0

/-- The 16 bits of the extension that belong to the profile. -/
def extensionProfile (h : Header) : UInt16 :=
  match h.extensionLead? with
  | some (high :: low :: _) => Bytes.toUInt16 high low
  | _ => 0

/-- The extension after its first four octets, if there is one and it is not cut off. -/
def extension? (h : Header) : Option Bytes :=
  h.extensionLead?.bind fun _ => h.region? (h.sourcesSize + 4) h.extensionSize

/-- Where the payload begins, counted from the end of the fixed part. -/
def payloadOffset (h : Header) : Nat := h.sourcesSize + if h.hasExtension then 4 + h.extensionSize else 0

/-- The length of the padding. -/
def paddingSize (h : Header) : Nat := if h.hasPadding then (h.bytes.getLastD 0).toNat else 0

/-- The length of the payload, below zero when the header claims more octets than there are. -/
def payloadSize (h : Header) : Int := (h.size : Int) - (h.payloadOffset + h.paddingSize + fixedSize : Nat)

/-- The payload, unless the header claims more octets than there are. -/
def payload? (h : Header) : Option Bytes :=
  if h.payloadSize < 0 then none else h.region? h.payloadOffset h.payloadSize.toNat

/-- The fields, one a line, without an end to the last line. -/
def dump (h : Header) : String :=
  "\n".intercalate [
    "version:" ++ toString h.version,
    "padding:" ++ toString h.paddingSize,
    "ext:" ++ toString h.extensionSize,
    "csrc:" ++ toString h.sourcesSize,
    "mark:" ++ (if h.marker then "1" else "0"),
    "pt:" ++ toString h.payloadType,
    "seq:" ++ toString h.sequence,
    "stamp:" ++ toString h.timestamp,
    "ssrc:" ++ Hex.ofUInt32 h.ssrc,
    "rtp size:" ++ toString h.size,
    "payload offset:" ++ toString h.payloadOffset,
    "payload size:" ++ toString h.payloadSize]

/-- The fields of the fixed part on one line. -/
def summary (h : Header) : String :=
  "RtpHeader \x7b version: " ++ toString h.version ++ ", padding: " ++ toString h.hasPadding ++
    ", extension: " ++ toString h.hasExtension ++ ", csrc_count: " ++ toString h.sourceCount ++
    ", marker: " ++ toString h.marker ++ ", payload_type: " ++ toString h.payloadType ++
    ", sequence: " ++ toString h.sequence ++ ", timestamp: " ++ toString h.timestamp ++
    ", ssrc: 0x" ++ Hex.ofUInt32 h.ssrc ++ ", len: " ++ toString h.size ++ " \x7d"

end Header

end MediaSession.Rtp
