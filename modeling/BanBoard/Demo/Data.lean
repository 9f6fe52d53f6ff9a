import BanBoard.Demo.Ban
import BanBoard.Jail.Basic
import BanBoard.Overview.Timeline

/-!
Synthetic jails at an instant. They are drawn with the times of their bans, which are counted back from
the present, and then come the events of the last twenty-four hours, none of which lies in the future.
-/

namespace BanBoard.Demo

open BanBoard.Random
open BanBoard.Time (Instant)

/-- The seed of the hour in which an instant lies, as a word that wraps around. -/
def hourSeed (now : Instant) : UInt64 := (now.hour % (2 ^ 64 : Int)).toNat.toUInt64

/-- Synthetic jails together with the times of bans in the last twenty-four hours, oldest first. -/
structure Data where
  jails : List Jail
  banEvents : List Instant
  deriving DecidableEq

def PlannedBan.entry (now : Instant) (jail : List Char) (ban : PlannedBan) : BannedAddress :=
  ⟨ban.origin.ip, jail, some (now.addSeconds (-(60 * (ban.minutesAgo : Int)))),
    some ban.origin.country⟩

/-- Draw bans into a jail. It refuses an address that it lists already. -/
def drawBans (tries : Nat) (now : Instant) (pool : List Origin) (name : List Char) :
    (count : Nat) → Jail → Draw Jail
  | 0, jail => return jail
  | count + 1, jail => do
    let ban ← drawBan tries pool
    drawBans tries now pool name count (jail.addBanned (ban.entry now name)).2

def drawJail (tries : Nat) (now : Instant) (pool : List Origin) (name : String) : Draw Jail := do
  let count ← range64 tries 0 (maxBans + 1)
  let jail ← drawBans tries now pool name.toList count (Jail.empty name.toList)
  let currentlyFailed ← range64 tries 0 11
  let totalFailed ← range64 tries 100 4901
  let otherBanned ← range64 tries 5 46
  return { jail with
    currentlyFailed := currentlyFailed.toUInt64
    totalFailed := totalFailed.toUInt64
    totalBanned := (jail.currentlyBanned + otherBanned).toUInt64 }

/-- The start of the current hour for events. It keeps the fraction of a second that `now` has. -/
def eventHour (now : Instant) : Instant := now.addSeconds (-(now.seconds % 3600))

/-- A second of the hour that began so many hours before the current one, or the present if that is
earlier. -/
def eventTime (now : Instant) (hoursAgo second : Nat) : Instant :=
  Instant.earliest (((eventHour now).addSeconds (-(3600 * (hoursAgo : Int)))).addSeconds second) now

/-- Draw the events of one jail in one hour. One jail is attacked more often than the others. -/
def drawEvents (tries : Nat) (now : Instant) (hoursAgo : Nat) (name : String) :
    Draw (List Instant) := do
  let count ← range32 tries 0 (if name = "sshd" then 16 else 6)
  times (do return eventTime now hoursAgo (← range64 tries 0 3600)) count

def banTimes (jails : List Jail) : List Instant :=
  jails.flatMap fun jail => jail.banned.filterMap BannedAddress.bannedAt

/-- Draw the pool of shared addresses, the jails, and the events from the oldest hour on. -/
def drawData (tries : Nat) (now : Instant) : Draw Data := do
  let pool ← times (drawOrigin tries) poolSize
  let jails ← forEach (drawJail tries now pool) jailNames
  let events ← forEach (fun hoursAgo => forEach (drawEvents tries now hoursAgo) jailNames)
    (List.range 24).reverse
  return ⟨jails, (events.flatten.flatten ++ banTimes jails).mergeSort Instant.le⟩

/-- The synthetic data that is drawn from a stream. There is none when its oldest hour leaves the calendar. -/
def Data.ofStream? (stream : Stream) (now : Instant) : Option Data :=
  if ((eventHour now).addSeconds (-(3600 * 23))).isRepresentable then
    drawn? (fun tries => drawData tries now) stream
  else none

def Data.ofSeed? (seed : UInt64) (now : Instant) : Option Data :=
  ofStream? (.ofSeed seed) now

def Data.jail? (data : Data) (name : List Char) : Option Jail :=
  data.jails.find? fun jail => jail.name = name

end BanBoard.Demo
