import MediaSession.Binary32.Reading

/-!
# Time ranges

The value of a `range` attribute is `unit=start-end`, with times in seconds or as hours, minutes and seconds. A start of
`now` and an end that is left out both count as zero, so a live range is no longer than zero.
-/

namespace MediaSession

/-- A range of times, in seconds. -/
structure TimeRange where
  start : Binary32
  stop : Binary32
  deriving DecidableEq, Repr

namespace TimeRange

/-- Hours and minutes in seconds, when they and their products fit 32 bits. -/
def wholeSeconds? (hours minutes : UInt32) : Option Nat :=
  let total := hours.toNat * 3600 + minutes.toNat * 60
  if total < UInt32.size then some total else none

/-- The seconds of a time `hours:minutes:seconds`. -/
def readClock? (hours minutes seconds : Text) : Option Binary32 :=
  (Binary32.read? seconds).bind fun seconds =>
    (Text.readUInt32? minutes).bind fun minutes =>
      (Text.readUInt32? hours).bind fun hours =>
        (wholeSeconds? hours minutes).map fun whole => Binary32.ofNat whole + seconds

/-- The seconds of a time, with or without minutes and hours before them. -/
def readTime? (time : Text) : Option Binary32 :=
  match time.splitOn ':' with
  | [seconds] => Binary32.read? seconds
  | [minutes, seconds] => readClock? ['0'] minutes seconds
  | [hours, minutes, seconds] => readClock? hours minutes seconds
  | _ => none

/-- The start of a range. It must not be empty. -/
def readStart? (start : Text) : Option Binary32 :=
  let time := Text.trim start
  if time = [] then none else if time = "now".toList then some .zero else readTime? time

/-- The end of a range: its first word, or zero. -/
def readStop? (stop : Text) : Option Binary32 :=
  match Text.words stop with
  | [] => some .zero
  | time :: _ => readTime? time

/-- The range that a value writes. The unit must not be blank but is not looked at otherwise. -/
def read? (value : Text) : Option TimeRange :=
  (Text.cut? '=' value).bind fun (unit, times) =>
    if Text.trim unit = [] then none
    else
      let (start, stop) := (Text.cut? '-' times).getD (times, [])
      (readStart? start).bind fun start => (readStop? stop).map fun stop => ⟨start, stop⟩

/-- The length of the range. -/
def duration (r : TimeRange) : Binary32 := r.stop - r.start

end TimeRange

end MediaSession
