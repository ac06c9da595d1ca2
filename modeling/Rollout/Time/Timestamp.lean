/-!
# Moments

* `Timestamp`: a moment in universal time, to the nanosecond.
* `Timestamp.ofCivil?`: the moment of a date, a time of day and an offset.
* `Timestamp.render`: the moment as text, with as many groups of three digits behind the point as it
  needs.

Days are counted in the Gregorian calendar, extended to all years; a year begins in March while its
days are counted, so that the day that may be missing comes last.
-/

namespace Rollout

/-- A moment. In a leap second the count of seconds stands still and the nanoseconds go on. -/
@[ext]
structure Timestamp where
  /-- The seconds since the beginning of 1970. -/
  seconds : Int
  /-- The nanoseconds since then, fewer than two thousand million. -/
  nanos : Nat
  deriving DecidableEq, Repr, Inhabited

namespace Timestamp

/-- The beginning of 1970. -/
def epoch : Timestamp := ⟨0, 0⟩

/-- The moment some nanoseconds after another one. -/
def addNanos (t : Timestamp) (n : Nat) : Timestamp :=
  let total := t.nanos + n
  ⟨t.seconds + (total / 1000000000 : Nat), total % 1000000000⟩

/-! ## The calendar -/

/-- The year has a day more. -/
def isLeapYear (year : Int) : Bool := year % 4 = 0 && (year % 100 ≠ 0 || year % 400 = 0)

/-- The number of days in a month of a year. -/
def daysInMonth (year : Int) (month : Nat) : Nat :=
  if month = 2 then (if isLeapYear year then 29 else 28)
  else if month = 4 ∨ month = 6 ∨ month = 9 ∨ month = 11 then 30
  else 31

/-- The number of days from the beginning of 1970 to a date. -/
def daysOfDate (year : Int) (month day : Nat) : Int :=
  let marchYear := if month ≤ 2 then year - 1 else year
  let marchMonth : Nat := (month + 9) % 12
  let dayOfYear : Int := ((153 * marchMonth + 2) / 5 + day - 1 : Nat)
  marchYear * 365 + marchYear / 4 - marchYear / 100 + marchYear / 400 + dayOfYear - 719468

/-- The date that lies some days after the beginning of 1970. -/
def dateOfDays (days : Int) : Int × Nat × Nat :=
  let shifted := days + 719468
  let era := shifted / 146097
  let dayOfEra := (shifted % 146097).toNat
  let yearOfEra := (dayOfEra - dayOfEra / 1460 + dayOfEra / 36524 - dayOfEra / 146096) / 365
  let dayOfYear := dayOfEra - (365 * yearOfEra + yearOfEra / 4 - yearOfEra / 100)
  let marchMonth := (5 * dayOfYear + 2) / 153
  let day := dayOfYear - (153 * marchMonth + 2) / 5 + 1
  let month := if marchMonth < 10 then marchMonth + 3 else marchMonth - 9
  let year := era * 400 + yearOfEra
  (if month ≤ 2 then year + 1 else year, month, day)

/-- The moment of a date and a time of day in a zone that is `offset` minutes ahead. The second may
be 60: that is a leap second. -/
def ofCivil? (year : Int) (month day hour minute second nanos : Nat) (offset : Int) :
    Option Timestamp :=
  if -262143 ≤ year ∧ year ≤ 262142 ∧ 1 ≤ month ∧ month ≤ 12 ∧ 1 ≤ day ∧
      day ≤ daysInMonth year month ∧ hour < 24 ∧ minute < 60 ∧ second ≤ 60 then
    let leap := if second = 60 then 1 else 0
    some ⟨daysOfDate year month day * 86400 + (hour * 3600 + minute * 60 + second - leap : Nat)
      - offset * 60, nanos + leap * 1000000000⟩
  else none

/-! ## Text -/

/-- A number with zeros before it, up to some width. -/
def padded (width n : Nat) : String :=
  let digits := toString n
  String.ofList (List.replicate (width - digits.length) '0') ++ digits

/-- A year: four digits, or a sign and at least four digits outside of the years 0 to 9999. -/
def renderYear (year : Int) : String :=
  if year < 0 then "-" ++ padded 4 year.natAbs
  else if year ≤ 9999 then padded 4 year.natAbs
  else "+" ++ padded 4 year.natAbs

/-- The digits behind the point: none, three, six or nine. -/
def renderFraction (nanos : Nat) : String :=
  if nanos = 0 then ""
  else if nanos % 1000000 = 0 then "." ++ padded 3 (nanos / 1000000)
  else if nanos % 1000 = 0 then "." ++ padded 6 (nanos / 1000)
  else "." ++ padded 9 nanos

/-- The moment as text, in universal time. -/
def render (t : Timestamp) : String :=
  let (year, month, day) := dateOfDays (t.seconds / 86400)
  let second := (t.seconds % 86400).toNat
  let leap := t.nanos / 1000000000
  renderYear year ++ "-" ++ padded 2 month ++ "-" ++ padded 2 day ++ "T" ++
    padded 2 (second / 3600) ++ ":" ++ padded 2 (second / 60 % 60) ++ ":" ++
    padded 2 (second % 60 + leap) ++ renderFraction (t.nanos % 1000000000) ++ "Z"

end Timestamp

end Rollout
