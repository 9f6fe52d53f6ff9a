import BanBoard.Number.Core

/-!
Days of the proleptic Gregorian calendar. A day is numbered from the first of January 1970, and
years run on through zero into the negative ones without a gap.
-/

namespace BanBoard.Time

/-- A calendar date. Nothing in the type says that the month has that day; `Date.isValid` does. -/
structure Date where
  year : Int
  month : Nat
  day : Nat
  deriving DecidableEq

/-- A year with a twenty-ninth of February. -/
def isLeapYear (year : Int) : Bool :=
  year % 4 == 0 && (year % 100 != 0 || year % 400 == 0)

def monthLengths (leap : Bool) : List Nat :=
  [31, if leap then 29 else 28, 31, 30, 31, 30, 31, 31, 30, 31, 30, 31]

/-- The days from the first of January of year one to that of the given year. -/
def daysBeforeYear (year : Int) : Int :=
  let past := year - 1
  365 * past + past / 4 - past / 100 + past / 400

/-- The first of January 1970, counted from the first of January of year one. -/
def epochDays : Int := 719162

/-- The number of the day that a date names. -/
def Date.toDays (d : Date) : Int :=
  daysBeforeYear d.year + ((monthLengths (isLeapYear d.year)).take (d.month - 1)).sum +
    ((d.day : Int) - 1) - epochDays

def Date.isValid (d : Date) : Bool :=
  match d.month with
  | 0 => false
  | m + 1 =>
    match (monthLengths (isLeapYear d.year))[m]? with
    | none => false
    | some length => 1 ≤ d.day && d.day ≤ length

/-- The year in which a day falls, both counted from year one. Four hundred years have 146097 days,
and the proportional guess is never more than one year off. -/
def yearOfDay (day : Int) : Int :=
  let guess := day * 400 / 146097 + 1
  if day < daysBeforeYear guess then guess - 1
  else if daysBeforeYear (guess + 1) ≤ day then guess + 1
  else guess

/-- Find the month of a day of the year, given the lengths of the months that are left. Both the
month and the day of the month are counted from one. -/
def monthOfDay : (lengths : List Nat) → (month day : Nat) → Nat × Nat
  | [], month, day => (month, day + 1)
  | length :: lengths, month, day =>
    if day < length then (month, day + 1) else monthOfDay lengths (month + 1) (day - length)

def Date.ofDays (days : Int) : Date :=
  let day := days + epochDays
  let year := yearOfDay day
  let (month, dayOfMonth) :=
    monthOfDay (monthLengths (isLeapYear year)) 1 (day - daysBeforeYear year).toNat
  ⟨year, month, dayOfMonth⟩

end BanBoard.Time
