import MediaSession.Binary32.Basic
import MediaSession.Text.Numeral

/-!
# Shortest decimals

A number is written with the fewest digits that still tell it from its neighbours. The decimals that round to a
magnitude are those between the midpoints to its two neighbours; a midpoint itself belongs to it when its rank is even.
The search goes through the decimal grids from the coarsest on: the first grid with a point among those decimals gives
the digits. When the two grid points around the magnitude both qualify, the nearer one is taken, and the upper one when
they are equally near.
-/

namespace MediaSession.Binary32

/-- The digits `n` at the decimal place `place`, the number `n * 10 ^ place`. -/
structure Decimal where
  digits : Nat
  place : Int
  deriving DecidableEq, Repr

/-- The point of the grid of multiples of `10 ^ place` that stands for the magnitude of the given rank, if one of the
two around it rounds to that magnitude. All lengths are in units of `2 ^ -150`, times `10 ^ -place` below the units
place. -/
def gridPoint? (rank : Nat) (place : Int) : Option Decimal :=
  let scale := Nat.pow 10 (-place).toNat
  let step := Nat.pow 10 place.toNat <<< 150
  let low := (unitsOfRank (rank - 1) + unitsOfRank rank) * scale
  let value := 2 * unitsOfRank rank * scale
  let high := (unitsOfRank rank + unitsOfRank (rank + 1)) * scale
  let rounds (n : Nat) : Bool :=
    if rank % 2 = 0 then low ≤ n * step && n * step ≤ high else low < n * step && n * step < high
  let below := value / step
  if rounds below && (!rounds (below + 1) || 2 * (value % step) < step) then some ⟨below, place⟩
  else if rounds (below + 1) then some ⟨below + 1, place⟩
  else none

/-- The shortest decimal of the magnitude of the given rank. The largest magnitudes need no grid coarser than
`10 ^ 38`, the least ones none finer than `10 ^ -60`. -/
def shortest? (rank : Nat) : Option Decimal :=
  (List.range 99).findSome? fun (i : Nat) => gridPoint? rank (38 - (i : Int))

/-- A decimal in positional notation, with a point only when there are digits after it. -/
def Decimal.write (d : Decimal) : Text :=
  let digits := Text.ofNat d.digits
  if 0 ≤ d.place then digits ++ List.replicate d.place.toNat '0'
  else
    let places := (-d.place).toNat
    let padded := List.replicate (places + 1 - digits.length) '0' ++ digits
    padded.take (padded.length - places) ++ '.' :: padded.drop (padded.length - places)

/-- The text of a magnitude. -/
def Magnitude.write (a : Magnitude) : Text :=
  if a.isInfinite then "inf".toList
  else if a.rank = 0 then "0".toList
  else (shortest? a.rank).elim "0".toList Decimal.write

/-- The text of a number: its shortest decimal in positional notation, after a minus sign if it has one. -/
def write : Binary32 → Text
  | .nan => "NaN".toList
  | .signed negative a => (if negative then ['-'] else []) ++ a.write

end MediaSession.Binary32
