import BanBoard.Mode
import BanBoard.Overview.Offenders
import BanBoard.Overview.Timeline
import BanBoard.Overview.Totals

/-!
The snapshot that the dashboard shows: all jails at one instant with what is aggregated from them.
-/

namespace BanBoard.Overview

open BanBoard.Json
open BanBoard.Time (Instant)

/-- The number of offenders in a snapshot. -/
def shownOffenders : Nat := 10

/-- The state of all jails at one instant. -/
structure Snapshot where
  mode : Mode
  generatedAt : Instant
  totals : Totals
  jails : List Jail
  timeline : List Bucket
  topOffenders : List Offender
  deriving DecidableEq

namespace Snapshot

/-- Compose a snapshot from jails and the times of bans. There is none when a total is no word or when the
hours of the timeline leave the calendar. -/
def compose? (mode : Mode) (jails : List Jail) (events : List Instant) (now : Instant) :
    Option Snapshot := do
  let totals ← Totals.ofJails? jails
  let timeline ← timeline? events now
  return ⟨mode, now, totals, jails, timeline, Overview.topOffenders jails shownOffenders⟩

/-- A snapshot shows what is aggregated, and nothing else can be missing. -/
theorem compose?_eq {mode : Mode} {jails : List Jail} {events : List Instant} {now : Instant}
    {totals : Totals} {timeline : List Bucket} (hTotals : Totals.ofJails? jails = some totals)
    (hTimeline : timeline? events now = some timeline) :
    compose? mode jails events now =
      some ⟨mode, now, totals, jails, timeline, Overview.topOffenders jails shownOffenders⟩ := by
  rw [compose?, hTotals, Option.bind_eq_bind, Option.bind_some, hTimeline]
  rfl

def toValue (snapshot : Snapshot) : Value :=
  .object
    [("mode", snapshot.mode.toValue), ("generatedAt", .text snapshot.generatedAt.write),
      ("totals", snapshot.totals.toValue), ("jails", .array (snapshot.jails.map Jail.toValue)),
      ("timeline", .array (snapshot.timeline.map Bucket.toValue)),
      ("topOffenders", .array (snapshot.topOffenders.map Offender.toValue))]

end Snapshot

end BanBoard.Overview
