import MediaSession.Bytes

/-!
# Reading bits

A reader goes through the bits of octets, the most significant bit of each octet first. It gives so many bits at a time as a
number of 32 bits: each bit moves the ones before it up by one place.
-/

namespace MediaSession

/-- A reader of the bits of octets. -/
structure BitReader where
  data : Bytes
  /-- The number of bits before the next one. -/
  position : Nat := 0
  deriving DecidableEq, Repr

namespace BitReader

/-- The next bit, if the octets have not come to their end. -/
def bit? (r : BitReader) : Option UInt32 :=
  r.data[r.position / 8]?.map fun octet => ((octet >>> UInt8.ofNat (7 - r.position % 8)) &&& 1).toUInt32

/-- The given number with the next `width` bits after it, and the reader after these. -/
def readOnto (r : BitReader) (value : UInt32) : Nat → Option (UInt32 × BitReader)
  | 0 => some (value, r)
  | width + 1 =>
    r.bit?.bind fun bit => readOnto { r with position := r.position + 1 } ((value <<< 1) ||| bit) width

/-- The number in the next `width` bits and the reader after them; nothing when the octets end before. -/
def read (r : BitReader) (width : Nat) : Option (UInt32 × BitReader) := r.readOnto 0 width

end BitReader

end MediaSession
