import MediaSession.Error
import MediaSession.Media.Kind
import MediaSession.Rtp.Header

/-!
# Packets and their frames

A packet travels alone in a datagram, or in a frame within a stream that carries other data too. A frame is a dollar
sign, a channel, the length of the packet in two octets, and the packet. So only a packet of fewer than `2 ^ 16` octets
can be framed.
-/

namespace MediaSession.Rtp

/-- The octet that begins a frame, a dollar sign. -/
def frameMark : UInt8 := 0x24

/-- The largest size of a packet in a frame. -/
def maxFramedSize : Nat := 65535

/-- The octets of a frame before the packet. -/
def frameLead (size : UInt16) (channel : UInt8) : Bytes := frameMark :: channel :: Bytes.ofUInt16 size

/-- The number of octets of a frame before the packet. -/
def frameLeadSize : Nat := 4

/-- A packet on its way, alone or in a frame. It is kept as the octets that travel. -/
structure Packet where
  /-- The octets as they travel. -/
  bytes : Bytes
  /-- How many of them come before the packet: those of a frame, or none. -/
  lead : Nat
  /-- The rest holds the fixed part of a packet. -/
  fixedSize_le : fixedSize + lead ≤ bytes.length
  /-- The clock rate that the timestamp counts in. -/
  sampleRate : UInt32 := 90000
  /-- The time of presentation in milliseconds, when it is known from elsewhere. -/
  ntpStamp : Option UInt64 := none
  kind : TrackKind := .invalid
  /-- The place of the track that the packet belongs to. -/
  trackIndex : Nat := 0
  deriving DecidableEq, Repr

namespace Packet

/-- The octets of the packet, without a frame. -/
def rtpBytes (p : Packet) : Bytes := p.bytes.drop p.lead

theorem fixedSize_le_length_rtpBytes (p : Packet) : fixedSize ≤ p.rtpBytes.length := by
  have h := p.fixedSize_le
  rw [rtpBytes, List.length_drop]
  omega

/-- The packet, seen through its header. -/
def header (p : Packet) : Header := ⟨p.rtpBytes, p.fixedSize_le_length_rtpBytes⟩

/-- Whether the packet is in a frame. -/
def isFramed (p : Packet) : Bool := p.lead == frameLeadSize

/-- The channel of the frame, if the packet is in one. -/
def channel (p : Packet) : Option UInt8 := if p.isFramed then p.bytes[1]? else none

/-- The packet in the octets that travel, so many of which come before it. -/
def ofBytes (bytes : Bytes) (lead : Nat) : Except Error Packet :=
  if h : fixedSize + lead ≤ bytes.length then .ok { bytes, lead, fixedSize_le := h }
  else .error (.tooShort (bytes.length - lead))

/-- The packet in a datagram. -/
def ofDatagram (bytes : Bytes) : Except Error Packet := ofBytes bytes 0

/-- The packet in a frame. -/
def ofFrame (bytes : Bytes) : Except Error Packet :=
  match bytes with
  | mark :: _ :: high :: low :: rtp =>
    let declared := (Bytes.toUInt16 high low).toNat
    if mark ≠ frameMark then .error .missingFrameMark
    else if declared ≠ rtp.length then .error (.frameLengthMismatch declared rtp.length)
    else ofBytes bytes frameLeadSize
  | _ => .error (.tooShort bytes.length)

/-- Puts the packet in a frame of the given channel. In a frame that is there already the channel is overwritten. -/
def frame (p : Packet) (channel : UInt8) : Except Error Packet :=
  if p.isFramed then .ok { p with bytes := p.bytes.set 1 channel, fixedSize_le := by simpa using p.fixedSize_le }
  else if p.bytes.length ≤ maxFramedSize then
    .ok { p with
      bytes := frameLead (UInt16.ofNat p.bytes.length) channel ++ p.bytes
      lead := frameLeadSize
      fixedSize_le := by
        have h := p.fixedSize_le
        simp only [frameLead, frameLeadSize, List.length_append, List.length_cons, Bytes.length_ofUInt16]
        omega }
  else .error (.tooLargeForFrame p.bytes.length)

/-- The time of presentation in milliseconds: the known one, or the timestamp in terms of the clock rate. A clock that
does not tick gives 0. -/
def stampMs (p : Packet) : UInt64 :=
  match p.ntpStamp with
  | some stamp => stamp
  | none =>
    if p.sampleRate = 0 then 0 else p.header.timestamp.toUInt64 * 1000 / p.sampleRate.toUInt64

end Packet

end MediaSession.Rtp
