import BanBoard.Text.Blank
import BanBoard.Text.Decimal
import BanBoard.Time.Instant

/-!
Times in the form of RFC 3339. Writing gives the shortest exact fraction of three, six or nine
digits, and the strict reading of this module takes every field at its full width.
-/

namespace BanBoard.Time

open BanBoard.Text

/-- The year of a date as it is written: four digits, or a sign and at least four digits when the
year needs a sign or more digits. -/
def writeYear (year : Int) : List Char :=
  if 0 ≤ year && year ≤ 9999 then decimalPadded 4 year.toNat
  else if year < 0 then '-' :: decimalPadded 4 (-year).toNat
  else '+' :: decimalPadded 4 year.toNat

def twoDigits (n : Nat) : List Char := decimalPadded 2 n

def writeDate (d : Date) : List Char :=
  writeYear d.year ++ '-' :: twoDigits d.month ++ '-' :: twoDigits d.day

/-- The fraction of a second, empty when it is zero. -/
def writeFraction (nanos : Nat) : List Char :=
  if nanos = 0 then []
  else if nanos % 1000000 = 0 then '.' :: decimalPadded 3 (nanos / 1000000)
  else if nanos % 1000 = 0 then '.' :: decimalPadded 6 (nanos / 1000)
  else '.' :: decimalPadded 9 nanos

/-- Hours, minutes and seconds, without a fraction. A leap second is written one second higher than
the second that it follows. -/
def writeClock (t : Instant) : List Char :=
  let s := t.secondOfDay
  let leap := if t.nanos < nanosPerSecond then 0 else 1
  twoDigits (s / 3600) ++ ':' :: twoDigits (s / 60 % 60) ++ ':' :: twoDigits (s % 60 + leap)

/-- An instant in universal time, marked with a `Z`. -/
def Instant.write (t : Instant) : List Char :=
  writeDate t.date ++ 'T' :: writeClock t ++ writeFraction (t.nanos % nanosPerSecond) ++ ['Z']

inductive TimeError where
  | invalid
  | outOfRange
  | tooShort
  | trailing
  deriving DecidableEq

def TimeError.message : TimeError → String
  | .invalid => "input contains invalid characters"
  | .outOfRange => "input is out of range"
  | .tooShort => "premature end of input"
  | .trailing => "trailing input"

/-- Read exactly `count` digits onto the number read so far. -/
def digitsExactly : (count acc : Nat) → List Char → Except TimeError (Nat × List Char)
  | 0, acc, rest => .ok (acc, rest)
  | _ + 1, _, [] => .error .invalid
  | count + 1, acc, c :: rest =>
    if isDigit c then digitsExactly count (acc * 10 + (c.toNat - '0'.toNat)) rest
    else .error .invalid

def expect (p : Char → Bool) : List Char → Except TimeError (List Char)
  | c :: rest => if p c then .ok rest else .error .invalid
  | [] => .error .invalid

/-- The letter or space that may stand between a date and a time. -/
def isDateTimeSeparator (c : Char) : Bool := c = 'T' || c = 't' || c = ' '

/-- Read the digits of a fraction, in nanoseconds. Digits past the ninth are read and dropped. -/
def readFraction (s : List Char) : Except TimeError (Nat × List Char) :=
  match takeDigits 9 s with
  | ([], []) => .error .tooShort
  | ([], _) => .error .invalid
  | (digits, rest) => .ok (digitsValue digits * 10 ^ (9 - digits.length), rest.dropWhile isDigit)

/-- A time of day is given by its second and its nanoseconds, when there is such a time. A sixtieth
second is a leap second of whatever minute it stands in. -/
def secondOfDay? (hour minute second : Nat) : Option (Nat × Nat) :=
  if 23 < hour || 59 < minute || 60 < second then none
  else if second = 60 then some (hour * 3600 + minute * 60 + 59, nanosPerSecond)
  else some (hour * 3600 + minute * 60 + second, 0)

/-- Read two digits of an offset. A text too short for two bytes is told apart from one whose next
two bytes are no digits. -/
def offsetDigits (s : List Char) : Except TimeError (Nat × Nat × List Char) :=
  if byteLength s < 2 then .error .tooShort
  else
    match s with
    | a :: b :: rest =>
      if isDigit a && isDigit b then .ok (a.toNat - '0'.toNat, b.toNat - '0'.toNat, rest)
      else .error .invalid
    | _ => .error .invalid

/-- Read the hours and minutes behind the sign of an offset, in seconds to the east. What stands
between them is read by `between`, and the minutes are never left out. -/
def readOffsetFields (between : List Char → Except TimeError (List Char)) (east : Bool)
    (s : List Char) : Except TimeError (Int × List Char) := do
  let (h₁, h₂, s) ← offsetDigits s
  let s ← between s
  let (m₁, m₂, s) ← offsetDigits s
  if 5 < m₁ then .error .outOfRange
  else
    let amount : Int := ((h₁ * 10 + h₂) * 3600 + (m₁ * 10 + m₂) * 60 : Nat)
    .ok (if east then amount else -amount, s)

/-- Read the offset from universal time, in seconds to the east. -/
def readOffset (between : List Char → Except TimeError (List Char)) :
    List Char → Except TimeError (Int × List Char)
  | 'Z' :: rest => .ok (0, rest)
  | 'z' :: rest => .ok (0, rest)
  | '+' :: rest => readOffsetFields between true rest
  | '-' :: rest => readOffsetFields between false rest
  | '\u2212' :: rest => readOffsetFields between false rest
  | [] => .error .tooShort
  | _ :: _ => .error .invalid

def offsetColon : List Char → Except TimeError (List Char)
  | [] => .error .tooShort
  | ':' :: rest => .ok rest
  | _ :: _ => .error .invalid

/-- The instant that a clock with an offset shows, when the offset is less than a day and the
instant lies in the calendar. -/
def atOffset (shown : Instant) (offset : Int) : Except TimeError Instant :=
  if offset ≤ -86400 || 86400 ≤ offset then .error .outOfRange
  else
    let instant := shown.shift (-offset)
    if instant.isRepresentable then .ok instant else .error .outOfRange

/-- Read a time strictly. Faults are reported in reading order, and an impossible date comes before
anything that follows the date. -/
def Instant.parse (s : List Char) : Except TimeError Instant := do
  if byteLength s < 19 then .error .tooShort
  else
    let (year, s) ← digitsExactly 4 0 s
    let s ← expect (· = '-') s
    let (month, s) ← digitsExactly 2 0 s
    let s ← expect (· = '-') s
    let (day, s) ← digitsExactly 2 0 s
    let date : Date := ⟨year, month, day⟩
    if !date.isValid then .error .outOfRange
    else
      let s ← expect isDateTimeSeparator s
      let (hour, s) ← digitsExactly 2 0 s
      let s ← expect (· = ':') s
      let (minute, s) ← digitsExactly 2 0 s
      let s ← expect (· = ':') s
      let (second, s) ← digitsExactly 2 0 s
      let (fraction, s) ← match s with
        | '.' :: rest => readFraction rest
        | _ => .ok (0, s)
      match secondOfDay? hour minute second with
      | none => .error .outOfRange
      | some (secondOfDay, extra) =>
        let (offset, s) ← readOffset offsetColon s
        if !s.isEmpty then .error .trailing
        else atOffset (Instant.ofDate date secondOfDay (extra + fraction)) offset

end BanBoard.Time
