import BanBoard.Overview.Offenders
import BanBoard.Overview.Totals
import BanBoard.Proofs.Time.Order
import Mathlib.Data.Option.Basic

/-!
Overviews of jails whose times have moved. The ranking compares times with each other and nothing else,
so a move that keeps their order keeps every place in it, and each record but for its time.
-/

namespace BanBoard

open BanBoard.Time (Instant)

/-- Whether a move of times keeps their order. -/
def Time.KeepsOrder (move : Instant → Instant) : Prop := ∀ a b, (move a).le (move b) = a.le b

def BannedAddress.moved (move : Instant → Instant) (entry : BannedAddress) : BannedAddress :=
  { entry with bannedAt := entry.bannedAt.map move }

def Jail.moved (move : Instant → Instant) (jail : Jail) : Jail :=
  jail.withBanned (jail.banned.map (BannedAddress.moved move))

namespace Overview

def Ban.moved (move : Instant → Instant) (ban : Ban) : Ban := (ban.1, ban.2.moved move)

def CountrySource.moved (move : Instant → Instant) (source : CountrySource) : CountrySource :=
  { source with time := source.time.map move }

def Offender.moved (move : Instant → Instant) (offender : Offender) : Offender :=
  { offender with lastBanned := offender.lastBanned.map move }

section Jails

variable (move : Instant → Instant) (jails : List Jail)

/-- No time is counted. -/
theorem ofJails?_moved : Totals.ofJails? (jails.map (Jail.moved move)) = Totals.ofJails? jails := by
  have hSame (totals : Totals) (jail : Jail) : totals.add? (jail.moved move) = totals.add? jail := by
    have hCount : (jail.moved move).currentlyBanned = jail.currentlyBanned :=
      (List.length_map _).trans jail.counted.symm
    rw [Totals.add?, hCount]
    rfl
  rw [Totals.ofJails?, List.foldlM_map]
  simp only [hSame]
  rfl

/-- The bans of moved jails are the moved bans. -/
theorem bansOf_moved : bansOf (jails.map (Jail.moved move)) = (bansOf jails).map (Ban.moved move) := by
  rw [bansOf, bansOf, List.flatMap_map, List.map_flatMap]
  refine congrArg (List.flatMap · jails) (funext fun jail => ?_)
  show (jail.banned.map (BannedAddress.moved move)).map (fun entry => (jail.name, entry)) =
    (jail.banned.map fun entry => (jail.name, entry)).map (Ban.moved move)
  rw [List.map_map, List.map_map]
  rfl

end Jails

variable {move : Instant → Instant} (h : Time.KeepsOrder move)
include h

/-- What keeps the order of instants keeps them apart. -/
theorem keepsOrder_injective : Function.Injective move := by
  intro a b hEq
  have hab : a.le b = true := by rw [← h, hEq, Instant.le_refl]
  have hba : b.le a = true := by rw [← h, hEq, Instant.le_refl]
  exact Instant.le_antisymm hab hba

theorem map_move_inj {a b : Option Instant} : a.map move = b.map move ↔ a = b :=
  (Option.map_injective (keepsOrder_injective h)).eq_iff

/-- Times that may be missing are compared as before the move. -/
theorem timeLe_map (a b : Option Instant) : timeLe (a.map move) (b.map move) = timeLe a b := by
  cases a with
  | none => rfl
  | some a =>
      cases b with
      | none => rfl
      | some b => exact h a b

theorem laterTime_map (a b : Option Instant) :
    laterTime (a.map move) (b.map move) = (laterTime a b).map move := by
  rw [laterTime, laterTime, timeLe_map h]
  split <;> rfl

theorem foldl_laterTime_map (times : List (Option Instant)) (first : Option Instant) :
    (times.map (Option.map move)).foldl laterTime (first.map move) =
      (times.foldl laterTime first).map move := by
  rw [List.foldl_map]
  exact List.foldl_hom (Option.map move) fun latest time => laterTime_map h latest time

/-- Sources of a country are compared as before the move. -/
theorem le_moved (a b : CountrySource) : (a.moved move).le (b.moved move) = a.le b := by
  rw [CountrySource.le, CountrySource.le]
  exact if_congr (map_move_inj h) rfl (timeLe_map h a.time b.time)

/-- The best source so far moves with the sources. -/
theorem bestSource_moved (best : Option CountrySource) (source : CountrySource) :
    bestSource (best.map (CountrySource.moved move)) (source.moved move) =
      (bestSource best source).map (CountrySource.moved move) := by
  cases best with
  | none => rfl
  | some current =>
      rw [Option.map_some, bestSource, bestSource, le_moved h]
      split <;> rfl

theorem foldl_bestSource_moved (sources : List CountrySource) (first : Option CountrySource) :
    (sources.map (CountrySource.moved move)).foldl bestSource (first.map (CountrySource.moved move)) =
      (sources.foldl bestSource first).map (CountrySource.moved move) := by
  rw [List.foldl_map]
  exact List.foldl_hom (Option.map (CountrySource.moved move)) fun best source =>
    bestSource_moved h best source

section Bans

variable (bans : List Ban)

theorem latestBan_moved : latestBan (bans.map (Ban.moved move)) = (latestBan bans).map move := by
  have hTimes : (bans.map (Ban.moved move)).map (fun ban => ban.2.bannedAt) =
      (bans.map fun ban => ban.2.bannedAt).map (Option.map move) := by
    rw [List.map_map, List.map_map]
    rfl
  rw [latestBan, hTimes]
  exact foldl_laterTime_map h _ none

/-- The country does not move, because it is chosen by comparisons only. -/
theorem countryOf_moved : countryOf (bans.map (Ban.moved move)) = countryOf bans := by
  have hSource (ban : Ban) : CountrySource.ofBan? (ban.moved move) =
      (CountrySource.ofBan? ban).map (CountrySource.moved move) := by
    rw [CountrySource.ofBan?, CountrySource.ofBan?, Option.map_map]
    rfl
  have hSources : (bans.map (Ban.moved move)).filterMap CountrySource.ofBan? =
      (bans.filterMap CountrySource.ofBan?).map (CountrySource.moved move) := by
    rw [List.filterMap_map, List.map_filterMap]
    exact congrArg (List.filterMap · bans) (funext hSource)
  have hBest (sources : List CountrySource) :
      (sources.map (CountrySource.moved move)).foldl bestSource none =
        (sources.foldl bestSource none).map (CountrySource.moved move) :=
    foldl_bestSource_moved h sources none
  rw [countryOf, hSources, hBest, Option.map_map]
  rfl

/-- An offender moves in its latest time only. -/
theorem offenderOf_moved (ip : List Char) :
    offenderOf (bans.map (Ban.moved move)) ip = (offenderOf bans ip).moved move := by
  have hOwn : (bans.map (Ban.moved move)).filter (fun ban => ban.2.ip = ip) =
      (bans.filter fun ban => ban.2.ip = ip).map (Ban.moved move) := List.filter_map
  have hNames (own : List Ban) : (own.map (Ban.moved move)).map Prod.fst = own.map Prod.fst :=
    List.map_map
  rw [offenderOf, hOwn, hNames, latestBan_moved h, countryOf_moved h]
  rfl

end Bans

theorem rankLe_moved (a b : Offender) : rankLe (a.moved move) (b.moved move) = rankLe a b := by
  rw [rankLe, rankLe]
  exact if_congr Iff.rfl
    (if_congr (map_move_inj h) rfl (timeLe_map h b.lastBanned a.lastBanned)) rfl

variable (jails : List Jail)

/-- The ranking of moved jails is the moved ranking. -/
theorem ranking_moved :
    ranking (jails.map (Jail.moved move)) = (ranking jails).map (Offender.moved move) := by
  have hIps : ((bansOf jails).map (Ban.moved move)).map (fun ban => ban.2.ip) =
      (bansOf jails).map fun ban => ban.2.ip := List.map_map
  have hOffenders : offenderOf ((bansOf jails).map (Ban.moved move)) =
      Offender.moved move ∘ offenderOf (bansOf jails) := funext (offenderOf_moved h (bansOf jails))
  rw [ranking, bansOf_moved, hIps, hOffenders, ← List.map_map, ranking]
  exact (List.map_mergeSort fun a _ b _ => (rankLe_moved h a b).symm).symm

/-- The same addresses are shown in the same places. -/
theorem topOffenders_moved (limit : Nat) :
    topOffenders (jails.map (Jail.moved move)) limit =
      (topOffenders jails limit).map (Offender.moved move) := by
  rw [topOffenders, ranking_moved h, topOffenders, List.map_take]

end Overview

end BanBoard
