import BanBoard.Jail.Basic
import BanBoard.Number.Word

/-!
The counters of all jails together. They are words of sixty-four bits like the counters of one jail, so
there are no totals when a sum is no word.
-/

namespace BanBoard.Overview

open BanBoard.Json

/-- The sums of the counters over a list of jails. -/
structure Totals where
  jails : Nat
  currentlyBanned : UInt64
  currentlyFailed : UInt64
  totalBanned : UInt64
  totalFailed : UInt64
  deriving DecidableEq

namespace Totals

def zero : Totals := ⟨0, 0, 0, 0, 0⟩

def add? (t : Totals) (jail : Jail) : Option Totals := do
  let currentlyBanned ← Number.add? t.currentlyBanned jail.currentlyBanned.toUInt64
  let currentlyFailed ← Number.add? t.currentlyFailed jail.currentlyFailed
  let totalBanned ← Number.add? t.totalBanned jail.totalBanned
  let totalFailed ← Number.add? t.totalFailed jail.totalFailed
  return ⟨t.jails + 1, currentlyBanned, currentlyFailed, totalBanned, totalFailed⟩

/-- The totals of a list of jails, if no sum on the way to them overflows. -/
def ofJails? (jails : List Jail) : Option Totals := jails.foldlM add? zero

def toValue (t : Totals) : Value :=
  .object
    [("jails", .nat t.jails), ("currentlyBanned", .nat t.currentlyBanned.toNat),
      ("currentlyFailed", .nat t.currentlyFailed.toNat), ("totalBanned", .nat t.totalBanned.toNat),
      ("totalFailed", .nat t.totalFailed.toNat)]

end Totals

end BanBoard.Overview
