import Ksnap.Foundation.Text

/-!
# Dates of instants

The calendar date and the time of day of an instant, in UTC, and the form that ISO 8601
gives them. Instants are microseconds since the start of 1970, and the calendar is the
Gregorian one in both directions.
-/

namespace Foundation

structure Date where
  year : ℤ
  month : ℤ
  day : ℤ
  deriving DecidableEq

/-- The date of a day counted from the start of 1970. The years are counted from March here,
so that a leap day is the last day of its year. -/
def dateOfDay (day : ℤ) : Date :=
  let shifted := day + 719468
  let era := shifted / 146097
  let dayOfEra := shifted % 146097
  let yearOfEra := (dayOfEra - dayOfEra / 1460 + dayOfEra / 36524 - dayOfEra / 146096) / 365
  let dayOfYear := dayOfEra - (365 * yearOfEra + yearOfEra / 4 - yearOfEra / 100)
  let marchMonth := (5 * dayOfYear + 2) / 153
  let month := if marchMonth < 10 then marchMonth + 3 else marchMonth - 9
  { year := yearOfEra + era * 400 + if month ≤ 2 then 1 else 0
    month := month
    day := dayOfYear - (153 * marchMonth + 2) / 5 + 1 }

def microsecondsPerDay : ℤ := 86400 * 1000000

def dateOf (instant : ℤ) : Date :=
  dateOfDay (instant / microsecondsPerDay)

/-- A number with leading zeros. -/
def padded (width : ℕ) (number : ℤ) : Text :=
  let digits := text (toString number)
  List.replicate (width - digits.length) 48 ++ digits

/-- `2026-01-31T12:00:00+00:00`, with the microseconds where there are any. -/
def isoformat (instant : ℤ) : Text :=
  let date := dateOf instant
  let microseconds := instant % microsecondsPerDay
  let seconds := microseconds / 1000000
  let fraction := microseconds % 1000000
  padded 4 date.year ++ text "-" ++ padded 2 date.month ++ text "-" ++ padded 2 date.day ++
    text "T" ++ padded 2 (seconds / 3600) ++ text ":" ++ padded 2 (seconds / 60 % 60) ++
    text ":" ++ padded 2 (seconds % 60) ++
    (if fraction = 0 then [] else text "." ++ padded 6 fraction) ++ text "+00:00"

end Foundation
