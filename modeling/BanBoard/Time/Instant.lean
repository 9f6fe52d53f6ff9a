import BanBoard.Time.Calendar

/-!
Instants of universal time. Seconds are counted from the start of 1970 without leap seconds, and a
leap second is the second before it together with a thousand million nanoseconds or more.
-/

namespace BanBoard.Time

/-- An instant. The nanoseconds stay below two thousand million, and from one thousand million on
they say that the instant lies in a leap second. -/
structure Instant where
  seconds : Int
  nanos : Nat
  deriving DecidableEq, Inhabited

def nanosPerSecond : Nat := 1000000000

namespace Instant

/-- Whether one instant comes before another or is the same. A leap second lies between its two
neighbours. -/
def le (a b : Instant) : Bool :=
  a.seconds < b.seconds || (a.seconds == b.seconds && a.nanos ≤ b.nanos)

def lt (a b : Instant) : Bool := !le b a

def latest (a b : Instant) : Instant := if le a b then b else a

def earliest (a b : Instant) : Instant := if le a b then a else b

/-- The first second of the calendar that times are kept in. -/
def firstSecond : Int := Date.toDays ⟨-262143, 1, 1⟩ * 86400

/-- The last second of the calendar that times are kept in. -/
def lastSecond : Int := Date.toDays ⟨262142, 12, 31⟩ * 86400 + 86399

/-- Whether an instant lies in the calendar that times are kept in. -/
def isRepresentable (t : Instant) : Bool :=
  firstSecond ≤ t.seconds && t.seconds ≤ lastSecond && t.nanos < 2 * nanosPerSecond

/-- Move an instant by whole seconds. Leaving a leap second takes one second in either direction,
so going back from it first reaches the second before it. -/
def addSeconds (t : Instant) (amount : Int) : Instant :=
  if t.nanos < nanosPerSecond || amount == 0 then ⟨t.seconds + amount, t.nanos⟩
  else if 0 < amount then ⟨t.seconds + amount, t.nanos - nanosPerSecond⟩
  else ⟨t.seconds + 1 + amount, t.nanos - nanosPerSecond⟩

/-- Read an instant on a clock that shows other seconds. A leap second stays one, whatever second
of the minute it then follows. -/
def shift (t : Instant) (amount : Int) : Instant := ⟨t.seconds + amount, t.nanos⟩

def hour (t : Instant) : Int := t.seconds / 3600

/-- The beginning of a second, if the calendar holds it. -/
def ofSeconds? (seconds : Int) : Option Instant :=
  if isRepresentable ⟨seconds, 0⟩ then some ⟨seconds, 0⟩ else none

/-- The start of the hour in which an instant lies, or the instant itself if the calendar does not hold
that start. -/
def floorHour (t : Instant) : Instant := (ofSeconds? (t.seconds / 3600 * 3600)).getD t

/-- The instant at which a date and a time of that day are reached. -/
def ofDate (d : Date) (secondOfDay nanos : Nat) : Instant :=
  ⟨d.toDays * 86400 + secondOfDay, nanos⟩

def date (t : Instant) : Date := Date.ofDays (t.seconds / 86400)

def secondOfDay (t : Instant) : Nat := (t.seconds % 86400).toNat

end Instant

end BanBoard.Time
