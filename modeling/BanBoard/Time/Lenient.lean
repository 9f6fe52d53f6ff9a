import BanBoard.Time.Rfc3339

/-!
Lenient readings of times. One accepts what a stored record may hold, the other the local
wall-clock stamp that a daemon prints; both allow fewer digits than the full width and blanks before
a number.
-/

namespace BanBoard.Time

open BanBoard.Text

/-- Read a number of at most `limit` digits, blanks before it skipped. -/
def numberUpTo (limit : Nat) (s : List Char) : Option (Nat × List Char) :=
  match takeDigits limit (trimStart s) with
  | ([], _) => none
  | (digits, rest) => some (digitsValue digits, rest)

/-- Read a year. With a sign it may have any number of digits, and without one at most four. -/
def signedYear (s : List Char) : Option (Int × List Char) :=
  let signed (sign : Int) (s : List Char) : Option (Int × List Char) :=
    match takeDigits s.length s with
    | ([], _) => none
    | (digits, rest) => some (sign * digitsValue digits, rest)
  match trimStart s with
  | '-' :: rest => signed (-1) rest
  | '+' :: rest => signed 1 rest
  | s => (numberUpTo 4 s).map fun (year, rest) => ((year : Int), rest)

def exactly (c : Char) : List Char → Option (List Char)
  | d :: rest => if d = c then some rest else none
  | [] => none

def isCalendarYear (year : Int) : Bool := -262143 ≤ year && year ≤ 262142

/-- Read a date whose fields are joined by hyphens, with `gap` allowed before each hyphen. -/
def lenientDate (gap : List Char → List Char) (s : List Char) : Option (Date × List Char) := do
  let (year, s) ← signedYear s
  let s ← exactly '-' (gap s)
  let (month, s) ← numberUpTo 2 s
  let s ← exactly '-' (gap s)
  let (day, s) ← numberUpTo 2 s
  let date : Date := ⟨year, month, day⟩
  if isCalendarYear year && date.isValid then some (date, s) else none

/-- Read a time of day whose fields are joined by colons, with `gap` allowed before each colon. -/
def lenientClock (gap : List Char → List Char) (s : List Char) :
    Option ((Nat × Nat) × List Char) := do
  let (hour, s) ← numberUpTo 2 s
  let s ← exactly ':' (gap s)
  let (minute, s) ← numberUpTo 2 s
  let s ← exactly ':' (gap s)
  let (second, s) ← numberUpTo 2 s
  let clock ← secondOfDay? hour minute second
  some (clock, s)

/-- Read the zone of a stored time: `UTC` in any case, or an offset whose hours and minutes may be
joined by any run of colons and blanks. -/
def lenientZone (s : List Char) : Option (Int × List Char) :=
  match s with
  | a :: b :: c :: rest =>
    if lowerAscii [a, b, c] = ['u', 't', 'c'] then some (0, rest) else offset s
  | _ => offset s
where
  /-- The numeric offset, or a `Z`. -/
  offset (s : List Char) : Option (Int × List Char) :=
    (readOffset (fun s => .ok (s.dropWhile fun c => c = ':' || isBlank c)) s).toOption

def dateTimeSeparator : List Char → Option (List Char)
  | c :: rest => if isDateTimeSeparator c then some rest else none
  | [] => none

/-- Read the fraction of a second in nanoseconds, if there is one. -/
def lenientFraction : List Char → Option (Nat × List Char)
  | '.' :: rest => (readFraction rest).toOption
  | s => some (0, s)

/-- Read a time as a stored record may hold it. Everything that the strict form writes is read back
with the same meaning. -/
def Instant.parseLenient? (s : List Char) : Option Instant := do
  let (date, s) ← lenientDate trimStart s
  let s ← dateTimeSeparator s
  let ((secondOfDay, extra), s) ← lenientClock trimStart s
  let (fraction, s) ← lenientFraction s
  let (offset, s) ← lenientZone (trimStart s)
  if (trimStart s).isEmpty then
    (atOffset (Instant.ofDate date secondOfDay (extra + fraction)) offset).toOption
  else none

/-- Read a wall-clock stamp without a zone, such as `2024-05-01 10:00:00`. The instant is what the
stamp would mean in universal time. -/
def Instant.parseStamp? (s : List Char) : Option Instant := do
  let (date, s) ← lenientDate id s
  let ((secondOfDay, nanos), s) ← lenientClock id (trimStart s)
  if s.isEmpty then some (Instant.ofDate date secondOfDay nanos) else none

end BanBoard.Time
