import Octets.Decimal.Reading
import Octets.Fault

/-!
# Moments

Dates, perhaps with a time of the day and a distance from universal time. `Moment.ofText?` reads the
liberal form, in which a month or a day may have one digit; `Moment.isPlain` is the stricter one, in
which a date alone has two for each. `Moment.check` refuses moments that there are not, and
`Moment.object` is the value that no parameter can use.
-/

namespace Octets.Yaml

/-- A date, perhaps with a time: its fraction in millionths, and its distance from universal time in
minutes. -/
structure Moment where
  year : Nat
  month : Nat
  day : Nat
  time : Option (Nat × Nat × Nat × Nat)
  zone : Option Int
  deriving DecidableEq, Repr

namespace Moment

/-! ## Reading -/

/-- The number in digits. -/
def number (digits : List Char) : Nat := Decimal.natural 10 digits

/-- Takes from `least` to `most` digits. -/
def take? (least most : Nat) (s : List Char) : Option (Nat × List Char) :=
  let digits := (s.take most).takeWhile Decimal.isDigit
  if digits.length < least then none else some (number digits, s.drop digits.length)

/-- Takes one character. -/
def expect? (c : Char) : List Char → Option (List Char)
  | first :: rest => if first == c then some rest else none
  | [] => none

/-- Takes a fraction behind a point, in millionths. -/
def fraction (s : List Char) : Nat × List Char :=
  match s with
  | '.' :: rest =>
    let digits := (rest.takeWhile Decimal.isDigit).take 6
    (number digits * Nat.pow 10 (6 - digits.length), rest.dropWhile Decimal.isDigit)
  | _ => (0, s)

def isBlank (c : Char) : Bool := c == ' ' || c == '\t'

/-- Reads the distance from universal time, if there is one, up to the end of the text. -/
def zone? (s : List Char) : Option (Option Int) :=
  if s.isEmpty then some none
  else
    match s.dropWhile isBlank with
    | ['Z'] => some (some 0)
    | sign :: rest => do
      let (hours, rest) ← take? 1 2 rest
      let (minutes, rest) ← match rest with
        | ':' :: rest => take? 2 2 rest
        | rest => some (0, rest)
      let size : Int := hours * 60 + minutes
      if !rest.isEmpty then none
      else if sign == '-' then some (some (-size))
      else if sign == '+' then some (some size)
      else none
    | [] => none

/-- Takes what stands between a date and a time: a letter T, or blanks. -/
def timeStart? : List Char → Option (List Char)
  | c :: rest =>
    if c == 'T' || c == 't' then some rest
    else if isBlank c then some (rest.dropWhile isBlank)
    else none
  | [] => none

/-- Reads a moment. -/
def ofText? (s : List Char) : Option Moment := do
  let (year, rest) ← take? 4 4 s
  let rest ← expect? '-' rest
  let (month, rest) ← take? 1 2 rest
  let rest ← expect? '-' rest
  let (day, rest) ← take? 1 2 rest
  if rest.isEmpty then return ⟨year, month, day, none, none⟩
  else
    let rest ← timeStart? rest
    let (hour, rest) ← take? 1 2 rest
    let rest ← expect? ':' rest
    let (minute, rest) ← take? 2 2 rest
    let rest ← expect? ':' rest
    let (second, rest) ← take? 2 2 rest
    let (millionths, rest) := fraction rest
    let zone ← zone? rest
    return ⟨year, month, day, some (hour, minute, second, millionths), zone⟩

/-- The length of a date with all its digits. -/
def dateLength : Nat := 10

/-- Is the text a moment by its form alone? A date without a time must have all its digits. -/
def isPlain (s : List Char) : Bool :=
  match ofText? s with
  | some m => m.time.isSome || s.length == dateLength
  | none => false

/-! ## Distances from universal time -/

/-- The minutes of a day. -/
def dayMinutes : Int := 1440

/-- A length of time, as it is quoted: whole days, and the seconds beyond them. -/
def durationShown (minutes : Int) : String :=
  let days := Int.fdiv minutes dayMinutes
  let seconds := Int.fmod minutes dayMinutes * 60
  let parts :=
    (if days = 0 then [] else ["days=" ++ Decimal.integerString days]) ++
      (if seconds = 0 then [] else ["seconds=" ++ Decimal.integerString seconds])
  "datetime.timedelta(" ++ (if parts.isEmpty then "0" else Value.commas parts) ++ ")"

/-- A distance from universal time, as it is quoted. -/
def zoneShown (minutes : Int) : String :=
  if minutes = 0 then "datetime.timezone.utc"
  else "datetime.timezone(" ++ durationShown minutes ++ ")"

/-- A number with at least `width` digits. -/
def padded (width n : Nat) : String := String.ofList (Decimal.padded width n)

/-- A distance from universal time. -/
def zoneText (minutes : Int) : String :=
  (if minutes < 0 then "-" else "+") ++ padded 2 (minutes.natAbs / 60) ++ ":" ++
    padded 2 (minutes.natAbs % 60)

/-! ## Checking -/

/-- Refuses a part of a moment in words of its own. -/
def refuse (message : String) : Except Fault Unit := .error (.badValue (.refused message))

/-- The number of days in a month. -/
def daysIn (year month : Nat) : Nat :=
  if month = 2 then
    if year % 4 = 0 ∧ (year % 100 ≠ 0 ∨ year % 400 = 0) then 29 else 28
  else if month = 4 ∨ month = 6 ∨ month = 9 ∨ month = 11 then 30
  else 31

/-- Refuses a distance of a day or more. -/
def checkZone (m : Moment) : Except Fault Unit :=
  match m.zone with
  | none => .ok ()
  | some minutes =>
    if minutes.natAbs < dayMinutes.natAbs then .ok ()
    else .error (.badValue (.zoneRange (durationShown minutes)))

/-- Refuses a date that there is not. -/
def checkDate (m : Moment) : Except Fault Unit :=
  if m.year = 0 then refuse "year 0 is out of range"
  else if m.month = 0 ∨ 12 < m.month then refuse "month must be in 1..12"
  else if m.day = 0 ∨ daysIn m.year m.month < m.day then refuse "day is out of range for month"
  else .ok ()

/-- Refuses a time of the day that there is not. -/
def checkTime (m : Moment) : Except Fault Unit :=
  match m.time with
  | none => .ok ()
  | some (hour, minute, second, _) =>
    if 23 < hour then refuse "hour must be in 0..23"
    else if 59 < minute then refuse "minute must be in 0..59"
    else if 59 < second then refuse "second must be in 0..59"
    else .ok ()

/-- Refuses a moment that there is not: first for its distance, then for its date, then for its
time. -/
def check (m : Moment) : Except Fault Unit := do
  m.checkZone
  m.checkDate
  m.checkTime

/-! ## Values -/

/-- The number of a day, counted over all years. -/
def dayNumber (m : Moment) : Nat :=
  let y := m.year - 1
  let before := (List.range (m.month - 1)).foldl (fun days i => days + daysIn m.year (i + 1)) 0
  y * 365 + y / 4 - y / 100 + y / 400 + before + m.day

/-- What tells a moment from others: two with a distance from universal time are one if they are at
the same instant, and any others if they have the same text. -/
def identity (m : Moment) (text : String) : String :=
  match m.time, m.zone with
  | some (hour, minute, second, millionths), some z =>
    let minutes : Int := ((m.dayNumber * 24 + hour) * 60 + minute : Nat) - z
    Decimal.integerString ((minutes * 60 + second) * 1000000 + millionths)
  | _, _ => text

/-- The moment as an object that no parameter can use. -/
def object (m : Moment) : Inert :=
  let date := padded 4 m.year ++ "-" ++ padded 2 m.month ++ "-" ++ padded 2 m.day
  let parts := [m.year, m.month, m.day]
  match m.time with
  | none =>
    ⟨"date", "datetime.date(" ++ Value.commas (parts.map toString) ++ ")", date, date⟩
  | some (hour, minute, second, millionths) =>
    let text := date ++ " " ++ padded 2 hour ++ ":" ++ padded 2 minute ++ ":" ++ padded 2 second ++
      (if millionths = 0 then "" else "." ++ padded 6 millionths) ++
      ((m.zone.map zoneText).getD "")
    let tail :=
      if millionths ≠ 0 then [second, millionths] else if second ≠ 0 then [second] else []
    let zone := match m.zone with
      | some z => ["tzinfo=" ++ zoneShown z]
      | none => []
    ⟨"datetime",
      "datetime.datetime(" ++
        Value.commas (((parts ++ [hour, minute] ++ tail).map toString) ++ zone) ++ ")",
      text, m.identity text⟩

end Moment

end Octets.Yaml
