import MediaSession.Rtp.Packet

/-!
# Writing packets

A sender counts its packets and the ticks of its clock. The count that goes into a packet has sixteen bits and the clock
thirty-two, while the sender's own clock has sixty-four, so that lengths of time can be told from it.
-/

namespace MediaSession.Rtp

/-- A sender of packets. -/
structure Writer where
  payloadType : UInt8
  ssrc : UInt32
  /-- The number of the next packet. -/
  sequence : UInt16 := 0
  /-- The ticks so far. -/
  timestamp : UInt64 := 0
  deriving DecidableEq, Repr

namespace Writer

/-- The fixed part of the next packet: no padding, no extension, no contributing sources. -/
def headerBytes (w : Writer) (marker : Bool) : Bytes :=
  [version <<< 6, (if marker then 0x80 else 0) ||| (w.payloadType &&& 0x7f)] ++ Bytes.ofUInt16 w.sequence ++
    Bytes.ofUInt32 w.timestamp.toUInt32 ++ Bytes.ofUInt32 w.ssrc

theorem length_headerBytes (w : Writer) (marker : Bool) : (w.headerBytes marker).length = fixedSize := rfl

/-- The sender after a packet. -/
def next (w : Writer) : Writer := { w with sequence := w.sequence + 1 }

/-- The header of the next packet, and the sender after it. -/
def write (w : Writer) (marker : Bool) : Bytes × Writer := (w.headerBytes marker, w.next)

/-- The next packet with a payload, and the sender after it. -/
def packet (w : Writer) (marker : Bool) (payload : Bytes) : Packet × Writer :=
  ({ bytes := w.headerBytes marker ++ payload, lead := 0, fixedSize_le := by simp [length_headerBytes] }, w.next)

/-- Moves the clock on. -/
def advance (w : Writer) (ticks : UInt32) : Writer := { w with timestamp := w.timestamp + ticks.toUInt64 }

end Writer

end MediaSession.Rtp
