import BanBoard.Json.Value
import BanBoard.Time.Rfc3339

/-!
The timeline: the number of bans in each of the twenty-four hours that end with the current one.
-/

namespace BanBoard.Overview

open BanBoard.Json
open BanBoard.Time (Instant twoDigits)

/-- The number of hours that a timeline shows. -/
def timelineHours : Nat := 24

/-- One hour of a timeline with the bans in it. -/
structure Bucket where
  hour : Instant
  label : List Char
  count : UInt32
  deriving DecidableEq

def hourLabel (hour : Instant) : List Char := twoDigits (hour.secondOfDay / 3600) ++ ":00".toList

/-- The first instant of the window that ends with the hour of `now`. -/
def windowStart (now : Instant) : Instant :=
  now.floorHour.addSeconds (-(3600 * ((timelineHours : Int) - 1)))

/-- The first instant after that window. -/
def windowEnd (now : Instant) : Instant := now.floorHour.addSeconds 3600

/-- Whether the calendar has all of the window, its end included. -/
def hasWindow (now : Instant) : Bool :=
  (windowStart now).isRepresentable && (windowEnd now).isRepresentable

/-- The position of an event's bucket, for an event inside the window. -/
def bucketIndex (now event : Instant) : Nat :=
  (event.floorHour.hour - (windowStart now).hour).toNat

/-- Whether an event lies in the window. -/
def inWindow (now event : Instant) : Bool :=
  !event.lt (windowStart now) && event.lt (windowEnd now)

def bump : (index : Nat) → List UInt32 → List UInt32
  | _, [] => []
  | 0, count :: counts => (count + 1) :: counts
  | index + 1, count :: counts => count :: bump index counts

/-- Count one event, if it lies in the window. -/
def countEvent (now : Instant) (counts : List UInt32) (event : Instant) : List UInt32 :=
  if inWindow now event then bump (bucketIndex now event) counts else counts

/-- The counts of all hours, the oldest hour first. -/
def hourCounts (events : List Instant) (now : Instant) : List UInt32 :=
  events.foldl (countEvent now) (List.replicate timelineHours 0)

/-- The timeline of the hours up to `now`, the oldest first. There is none when the window leaves the
calendar. -/
def timeline? (events : List Instant) (now : Instant) : Option (List Bucket) :=
  if hasWindow now then
    some <| (hourCounts events now).mapIdx fun index count =>
      let hour := (windowStart now).addSeconds (3600 * index)
      ⟨hour, hourLabel hour, count⟩
  else none

def Bucket.toValue (bucket : Bucket) : Value :=
  .object
    [("hour", .text bucket.hour.write), ("label", .text bucket.label),
      ("count", .nat bucket.count.toNat)]

end BanBoard.Overview
