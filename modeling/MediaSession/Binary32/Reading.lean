import MediaSession.Binary32.Basic
import MediaSession.Text.Numeral

/-!
# Reading numbers

A number is read from an optional sign followed by digits, with at most one point before, among or after them, and an
optional exponent; or from an optional sign followed by one of the words for infinity and for no number, in letters of
either case. The exact decimal is rounded once. What is too large for a finite number is infinite.
-/

namespace MediaSession.Binary32

/-- A text without its sign, and whether the sign was a minus. -/
def cutSign : Text → Bool × Text
  | '-' :: t => (true, t)
  | '+' :: t => (false, t)
  | t => (false, t)

/-- The value of the digits of an exponent. It stops growing once it has reached `2 ^ 16`. -/
def exponentValue (digits : Text) : Nat :=
  digits.foldl (fun e c => if e < 0x10000 then 10 * e + (c.toNat - '0'.toNat) else e) 0

/-- The exponent that ends a number: nothing, or a letter, an optional sign and one or more digits. -/
def readExponent? : Text → Option Int
  | [] => some 0
  | c :: t =>
    let (negative, digits) := cutSign t
    if (c == 'e' || c == 'E') && !digits.isEmpty && digits.all Char.isDigit then
      some (if negative then -(exponentValue digits : Int) else exponentValue digits)
    else none

/-- The magnitude nearest to `digits * 10 ^ exponent`, where `digits` has at most `count` digits. From `10 ^ 39` on
every number rounds to infinity, and below `10 ^ -46` every number rounds to zero. -/
def Magnitude.ofDecimal (digits count : Nat) (exponent : Int) : Magnitude :=
  if digits = 0 then .zero
  else if 39 ≤ exponent then .infinite
  else if count + exponent ≤ -46 then .zero
  else .ofRatio ((digits * Nat.pow 10 exponent.toNat) <<< 149) (Nat.pow 10 (-exponent).toNat)

/-- The magnitude that digits with an optional point and an optional exponent denote. -/
def readDigits? (t : Text) : Option Magnitude :=
  let whole := t.takeWhile Char.isDigit
  let (fraction, rest) :=
    match t.dropWhile Char.isDigit with
    | '.' :: r => (r.takeWhile Char.isDigit, r.dropWhile Char.isDigit)
    | r => ([], r)
  let digits := whole ++ fraction
  if digits.isEmpty then none
  else (readExponent? rest).map fun e =>
    .ofDecimal (Nat.ofDigitChars 10 digits 0) digits.length (e - fraction.length)

/-- The number that a text denotes. -/
def read? (t : Text) : Option Binary32 :=
  let (negative, rest) := cutSign t
  match readDigits? rest with
  | some a => some (.signed negative a)
  | none =>
    if Text.sameLetters rest "inf".toList || Text.sameLetters rest "infinity".toList then some (infinity negative)
    else if Text.sameLetters rest "nan".toList then some .nan
    else none

end MediaSession.Binary32
