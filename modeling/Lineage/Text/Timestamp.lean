/-!
# Timestamps

Seconds since 1970 as a date and a time of day in the calendar of today, carried back and forth without end.
-/

namespace Lineage.Timestamp

def secondsPerDay : Int := 86400

/-- Year, month and day of a number of days since 1970-01-01.  The years are counted from the first of March,
so that the day that may be missing comes last; 400 of them have 146097 days. -/
def date (days : Int) : Int × Int × Int :=
  let shifted := days + 719468
  let era := shifted.fdiv 146097
  let day := shifted.fmod 146097
  let year := (day - day / 1460 + day / 36524 - day / 146096) / 365
  let dayOfYear := day - (365 * year + year / 4 - year / 100)
  let month := (5 * dayOfYear + 2) / 153
  let dayOfMonth := dayOfYear - (153 * month + 2) / 5 + 1
  let january := decide (10 ≤ month)
  (year + era * 400 + (if january then 1 else 0), if january then month - 9 else month + 3, dayOfMonth)

/-- A number with at least so many digits. -/
def padded (width : Nat) (n : Int) : String :=
  let digits := toString n.natAbs
  (if n < 0 then "-" else "") ++ String.ofList (List.replicate (width - digits.length) '0') ++ digits

/-- The text of a moment, to the second, in universal time. -/
def text (seconds : Int) : String :=
  let (year, month, day) := date (seconds.fdiv secondsPerDay)
  let rest := seconds.fmod secondsPerDay
  s!"{padded 4 year}-{padded 2 month}-{padded 2 day}T" ++
    s!"{padded 2 (rest / 3600)}:{padded 2 (rest / 60 % 60)}:{padded 2 (rest % 60)}Z"

end Lineage.Timestamp
