import BanBoard.Time.Instant

/-!
Time zones as the map from wall-clock readings to instants. Readings are written as the instants
they would be in universal time, so the intervals of a zone compare like instants.
-/

namespace BanBoard.Time

/-- Readings that a zone skips: a clock there never shows one of them. -/
structure Gap where
  start : Instant
  stop : Instant

/-- Readings that a zone shows twice, with the offset of the first and of the second time. -/
structure Fold where
  start : Instant
  stop : Instant
  first : Int
  second : Int

/-- A zone with a standard offset, in seconds to the east, and the readings at which it deviates. -/
structure Zone where
  offset : Int
  gaps : List Gap
  folds : List Fold

def Zone.utc : Zone := ⟨0, [], []⟩

def Instant.isWithin (reading start stop : Instant) : Bool :=
  start.le reading && reading.lt stop

/-- The first offset under which a zone shows a reading, if it ever shows it. -/
def Zone.offsetAt? (zone : Zone) (reading : Instant) : Option Int :=
  if zone.gaps.any fun gap => reading.isWithin gap.start gap.stop then none
  else
    match zone.folds.find? fun fold => reading.isWithin fold.start fold.stop with
    | some fold => some fold.first
    | none => some zone.offset

/-- The first instant at which a zone shows a reading. There is none in a gap, nor outside the
calendar. -/
def Zone.earliest? (zone : Zone) (reading : Instant) : Option Instant :=
  match zone.offsetAt? reading with
  | none => none
  | some offset =>
    let instant := reading.shift (-offset)
    if instant.isRepresentable then some instant else none

end BanBoard.Time
