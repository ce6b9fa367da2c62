/-!
# Moments and their dates

A moment is a time relative to the start of 1970 in UTC. Files carry one as their modification
time, and descriptions show it as a date of the proleptic Gregorian calendar, where every year has
a number and the year before 1 is 0.
-/

namespace RatingArchive

/-- A point in time. -/
structure Moment where
  /-- Nanoseconds since the start of 1970; negative before it. -/
  nanos : Int
  deriving DecidableEq, Inhabited, Repr

/-- The moment as a signed 64-bit count of whole milliseconds. The count wraps around; moments
before 1970 count as its start. -/
def Moment.millis (moment : Moment) : Int :=
  if moment.nanos < 0 then 0 else (moment.nanos / 1000000).bmod UInt64.size

namespace Calendar

/-- A day of the calendar. -/
structure Date where
  year : Int
  month : Nat
  day : Nat
  deriving DecidableEq, Repr

/-- The date of the day with the given number, day zero being the first of January 1970.

The calendar repeats every 146097 days. Counted from the first of March of the year 0, leap days
come last in a year, and the months have a fixed pattern of lengths of 153 days in five months. -/
def dateOfDay (dayNumber : Int) : Date :=
  let days := dayNumber + 719468
  let cycle := days / 146097
  let inCycle := (days % 146097).toNat
  let yearInCycle := (inCycle - inCycle / 1460 + inCycle / 36524 - inCycle / 146096) / 365
  let inYear := inCycle - (365 * yearInCycle + yearInCycle / 4 - yearInCycle / 100)
  let monthFromMarch := (5 * inYear + 2) / 153
  let day := inYear - (153 * monthFromMarch + 2) / 5 + 1
  let month := if monthFromMarch < 10 then monthFromMarch + 3 else monthFromMarch - 9
  let year : Int := 400 * cycle + yearInCycle + if month ≤ 2 then 1 else 0
  ⟨year, month, day⟩

/-- The digits of `n`, at least `width` of them. -/
def padded (width n : Nat) : String :=
  let digits := Nat.toDigits 10 n
  String.ofList (List.replicate (width - digits.length) '0' ++ digits)

/-- Years have at least four digits, and a sign unless they lie between 0 and 9999. -/
def yearText (year : Int) : String :=
  if year < 0 then "-" ++ padded 4 year.natAbs
  else if 9999 < year then "+" ++ padded 4 year.natAbs
  else padded 4 year.natAbs

/-- The first millisecond that has a date: the start of the year -262143. -/
def firstMilli : Int := -8334601228800000

/-- The last millisecond that has a date: the end of the year 262142. -/
def lastMilli : Int := 8210266876799999

/-- The date and the time of day, to the second, of a count of milliseconds since the start
of 1970. Counts without a date are shown as the start of 1970. -/
def timeText (millis : Int) : String :=
  let millis := if firstMilli ≤ millis ∧ millis ≤ lastMilli then millis else 0
  let seconds := millis / 1000
  let date := dateOfDay (seconds / 86400)
  let inDay := (seconds % 86400).toNat
  yearText date.year ++ "-" ++ padded 2 date.month ++ "-" ++ padded 2 date.day ++ " " ++
    padded 2 (inDay / 3600) ++ ":" ++ padded 2 (inDay / 60 % 60) ++ ":" ++ padded 2 (inDay % 60)

end Calendar

end RatingArchive
