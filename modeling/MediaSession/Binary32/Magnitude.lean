/-!
# Magnitudes of binary32 numbers

The magnitudes of the 32-bit binary format, zero and infinity included, stand in a row, and a magnitude is known by its
place in it, its rank: zero has rank 0, the least positive one, `2 ^ -149`, rank 1, and infinity the last rank. Each
stretch of `2 ^ 23` ranks is evenly spaced, at twice the step of the stretch before (the first two share the least
step). So every magnitude is a whole number of units of `2 ^ -149`, and arithmetic on magnitudes is arithmetic on
natural numbers followed by one rounding.
-/

namespace MediaSession.Binary32

/-- The number of ranks in a stretch that is evenly spaced, `2 ^ 23`. -/
def stretch : Nat := 0x800000

/-- The rank of infinity. -/
def infiniteRank : Nat := 255 * stretch

/-- The number of doublings of the least step between the magnitude of the given rank and the next one. -/
def stepExponent (rank : Nat) : Nat := rank / stretch - 1

/-- The magnitude of the given rank, in units of `2 ^ -149`. For the rank of infinity it is the magnitude that would
follow the largest finite one, and rounding treats it so. -/
def unitsOfRank (rank : Nat) : Nat := (rank - stepExponent rank * stretch) <<< stepExponent rank

/-- The natural number nearest to `num / den`; of two equally near ones, the even one. -/
def roundHalfEven (num den : Nat) : Nat :=
  let q := num / den
  let r := num % den
  if 2 * r < den then q else if den < 2 * r then q + 1 else q + q % 2

/-- The rank of the magnitude nearest to `num / den` units; of two equally near ones, that of even rank. What would
round beyond the largest finite magnitude is infinite. -/
def rankOfRatio (num den : Nat) : Nat :=
  let doublings := Nat.log2 (num / den) - 23
  min infiniteRank (doublings * stretch + roundHalfEven num (den <<< doublings))

/-- A magnitude, known by its rank. -/
structure Magnitude where
  /-- The place among the magnitudes in ascending order. -/
  rank : Nat
  /-- Infinity is the last. -/
  rank_le : rank ≤ infiniteRank
  deriving DecidableEq, Repr

namespace Magnitude

/-- The magnitude of zero. -/
def zero : Magnitude := ⟨0, by decide⟩

/-- The magnitude beyond all finite ones. -/
def infinite : Magnitude := ⟨infiniteRank, Nat.le_refl _⟩

/-- Whether the magnitude is beyond all finite ones. -/
def isInfinite (a : Magnitude) : Bool := a.rank == infiniteRank

/-- The magnitude in units of `2 ^ -149`. -/
def units (a : Magnitude) : Nat := unitsOfRank a.rank

/-- The magnitude nearest to `num / den` units. -/
def ofRatio (num den : Nat) : Magnitude := ⟨rankOfRatio num den, Nat.min_le_left _ _⟩

end Magnitude

end MediaSession.Binary32
