/-!
# Timestamps

`timestamp` writes a moment as a date and a time of day in UTC. A year begins in March here, so that the day that leap
years add is the last one; `dateOf` counts days from the first of March of the year 0.
-/

namespace FixtureCheck.Text

/-- A day of the calendar. -/
structure Date where
  year : Nat
  month : Nat
  day : Nat
  deriving DecidableEq, Repr

/-- The days from the first of March of the year 0 to the first of January 1970. -/
def daysBefore1970 : Nat := 719468

/-- The days of 400 years. -/
def daysOfCycle : Nat := 146097

/-- The date of a day, counted from the first of March of the year 0. -/
def dateOf (day : Nat) : Date :=
  let inCycle := day % daysOfCycle
  let year := (inCycle - inCycle / 1460 + inCycle / 36524 - inCycle / 146096) / 365
  let inYear := inCycle - (365 * year + year / 4 - year / 100)
  let month := (5 * inYear + 2) / 153
  { year := year + 400 * (day / daysOfCycle) + if month < 10 then 0 else 1
    month := if month < 10 then month + 3 else month - 9
    day := inYear - (153 * month + 2) / 5 + 1 }

/-- A number with zeros in front of it. -/
def zeroPadded (width n : Nat) : String :=
  let digits := Nat.toDigits 10 n
  String.ofList (List.replicate (width - digits.length) '0' ++ digits)

/-- The moment `seconds` and `micros` millionths of a second after the beginning of 1970. -/
def timestamp (seconds micros : Nat) : String :=
  let date := dateOf (daysBefore1970 + seconds / 86400)
  let ofDay := seconds % 86400
  let days := "-".intercalate [zeroPadded 4 date.year, zeroPadded 2 date.month, zeroPadded 2 date.day]
  let times := ":".intercalate ([ofDay / 3600, ofDay / 60 % 60, ofDay % 60].map (zeroPadded 2))
  let fraction := if micros = 0 then "" else "." ++ zeroPadded 6 micros
  s!"{days}T{times}{fraction}+00:00"

end FixtureCheck.Text
