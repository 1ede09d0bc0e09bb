/-!
# Moments

A moment is counted in nanoseconds from the beginning of 1970 and written as a date and a time of
day, both in UTC. A year is taken to begin in March, so that a leap day is its last.
-/

set_option autoImplicit false

namespace ScriptWorker.Program

/-- A moment by the nanoseconds since the beginning of 1970. -/
structure Moment where
  nanoseconds : Nat

namespace Moment

/-- Nanoseconds in a second. -/
def perSecond : Nat := 1000000000

/-- The year, the month and the day of the month on which a number of days have passed since the
beginning of 1970. -/
def dateOf (days : Nat) : Nat × Nat × Nat :=
  let day := days + 719468
  let dayOfCycle := day % 146097
  let yearOfCycle :=
    (dayOfCycle - dayOfCycle / 1460 + dayOfCycle / 36524 - dayOfCycle / 146096) / 365
  let dayOfYear := dayOfCycle - (365 * yearOfCycle + yearOfCycle / 4 - yearOfCycle / 100)
  let monthOfYear := (5 * dayOfYear + 2) / 153
  let month := if monthOfYear < 10 then monthOfYear + 3 else monthOfYear - 9
  let year := yearOfCycle + day / 146097 * 400
  (if month ≤ 2 then year + 1 else year, month, dayOfYear - (153 * monthOfYear + 2) / 5 + 1)

/-- The decimal digits of a number, filled up with zeros to a width. -/
def digits (width n : Nat) : List Char :=
  let shown := Nat.toDigits 10 n
  List.replicate (width - shown.length) '0' ++ shown

/-- The part of a second that has passed, without zeros at the end. -/
def fraction (m : Moment) : List Char :=
  let part := (digits 9 (m.nanoseconds % perSecond)).reverse.dropWhile (· = '0')
  if part.isEmpty then [] else '.' :: part.reverse

/-- The moment in writing. -/
def render (m : Moment) : String :=
  let seconds := m.nanoseconds / perSecond
  let (year, month, day) := dateOf (seconds / 86400)
  let second := seconds % 86400
  String.ofList (digits 4 year ++ '-' :: digits 2 month ++ '-' :: digits 2 day ++
    'T' :: digits 2 (second / 3600) ++ ':' :: digits 2 (second / 60 % 60) ++
    ':' :: digits 2 (second % 60) ++ m.fraction ++ ['Z'])

example : (Moment.mk 951782400000000000).render = "2000-02-29T00:00:00Z" := by decide +kernel

example : (Moment.mk 1767323045120000000).render = "2026-01-02T03:04:05.12Z" := by
  decide +kernel

end Moment

end ScriptWorker.Program
