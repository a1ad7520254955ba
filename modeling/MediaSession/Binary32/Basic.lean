import MediaSession.Binary32.Magnitude

/-!
# Binary32 numbers

Times of a description are numbers of the 32-bit binary format: a sign and a magnitude, or no number at all. Sums and
differences are exact and then rounded once, to the nearest number and to the one of even rank on a tie.
-/

namespace MediaSession

/-- A number of the 32-bit binary format, or the one value that is no number. -/
inductive Binary32 where
  /-- The result of an operation that has no value. -/
  | nan
  /-- A magnitude with its sign; zero has two signs. -/
  | signed (negative : Bool) (magnitude : Binary32.Magnitude)
  deriving DecidableEq, Repr

namespace Binary32

/-- The zero without a minus sign. -/
def zero : Binary32 := .signed false .zero

instance : Inhabited Binary32 := ⟨zero⟩

/-- The infinity of the given sign. -/
def infinity (negative : Bool) : Binary32 := .signed negative .infinite

/-- Whether the value is a number, and not an infinite one. -/
def isFinite : Binary32 → Bool
  | .nan => false
  | .signed _ a => !a.isInfinite

/-- The number of the given sign nearest to `num / den` units of `2 ^ -149`. -/
def ofRatio (negative : Bool) (num den : Nat) : Binary32 := .signed negative (.ofRatio num den)

/-- The number nearest to a natural number. -/
def ofNat (n : Nat) : Binary32 := ofRatio false (n <<< 149) 1

/-- The number with the other sign. -/
def neg : Binary32 → Binary32
  | .nan => .nan
  | .signed negative a => .signed (!negative) a

/-- The sum of two finite numbers: the magnitudes are added or subtracted in units, and a sum of zero has a minus sign
only when both terms have one. -/
def addUnits (na : Bool) (a : Nat) (nb : Bool) (b : Nat) : Binary32 :=
  if na = nb then ofRatio na (a + b) 1
  else if b < a then ofRatio na (a - b) 1
  else if a < b then ofRatio nb (b - a) 1
  else zero

/-- The sum. An infinite term decides it; two infinite terms of opposite sign have no sum. -/
def add : Binary32 → Binary32 → Binary32
  | .nan, _ => .nan
  | _, .nan => .nan
  | .signed na a, .signed nb b =>
    if a.isInfinite then
      if b.isInfinite && na != nb then .nan else .signed na a
    else if b.isInfinite then .signed nb b
    else addUnits na a.units nb b.units

/-- The difference. -/
def sub (x y : Binary32) : Binary32 := x.add y.neg

instance : Add Binary32 := ⟨add⟩

instance : Sub Binary32 := ⟨sub⟩

/-- Whether the value is a number that is zero or less. -/
def isNonpositive : Binary32 → Bool
  | .nan => false
  | .signed negative a => negative || a.rank == 0

/-- The number with the given bit pattern: the sign in the highest bit, the rank in the others; the patterns beyond
infinity are no numbers. -/
def ofBits (bits : UInt32) : Binary32 :=
  let rank := bits.toNat % 0x80000000
  if h : rank ≤ infiniteRank then .signed (0x80000000 ≤ bits.toNat) ⟨rank, h⟩ else .nan

end Binary32

end MediaSession
