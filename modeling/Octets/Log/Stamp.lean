/-!
# Time stamps

A moment, in microseconds since the start of the year 1970, as a date and a time of day in the time
zone of Greenwich: `2024-02-29T23:59:59.000001+00:00`. A moment at a full second has no fraction.

Days are counted in eras of 400 years, each starting with a first of March, so that a leap day is
the last day of its year.
-/

namespace Octets.Log.Stamp

/-- The days of an era of 400 years. -/
def eraDays : Nat := 146097

/-- The days from the first of March of the year 0 to the start of 1970. -/
def epochDays : Nat := 719468

/-- The year, the month and the day on which this number of days have passed since the start of
1970. -/
def date (days : Nat) : Nat × Nat × Nat :=
  let days := days + epochDays
  let era := days / eraDays
  let day := days % eraDays
  let year := (day - day / 1460 + day / 36524 - day / 146096) / 365
  let day := day - (365 * year + year / 4 - year / 100)
  let month := (5 * day + 2) / 153
  let day := day - (153 * month + 2) / 5
  let (month, late) := if month < 10 then (month + 3, 0) else (month - 9, 1)
  (400 * era + year + late, month, day + 1)

/-- A number with zeros in front up to a width. -/
def padded (width n : Nat) : String :=
  let digits := toString n
  String.ofList (List.replicate (width - digits.length) '0') ++ digits

/-- The time stamp of a moment. -/
def ofMicroseconds (moment : Nat) : String :=
  let seconds := moment / 1000000
  let fraction := moment % 1000000
  let (year, month, day) := date (seconds / 86400)
  let second := seconds % 86400
  "-".intercalate [padded 4 year, padded 2 month, padded 2 day] ++ "T" ++
    ":".intercalate
      [padded 2 (second / 3600), padded 2 (second / 60 % 60), padded 2 (second % 60)] ++
    (if fraction = 0 then "" else "." ++ padded 6 fraction) ++ "+00:00"

example : date 0 = (1970, 1, 1) ∧ date 59 = (1970, 3, 1) ∧ date 19782 = (2024, 2, 29) := by decide

end Octets.Log.Stamp
