import BanBoard.Proofs.Demo.Data
import BanBoard.Proofs.Overview.MovedTimes
import BanBoard.Proofs.Time.Calendar
import BanBoard.Service.Jails

/-!
Synthetic data at two instants. The seed knows no more of an instant than its hour, and a plan at
another instant shows the same bans with all times moved by as much as the instants are apart, so within
an hour no refresh of a view changes anything but times.
-/

namespace BanBoard.Demo

open BanBoard.Overview
open BanBoard.Random
open BanBoard.Time

/-- Whether two instants lie in the same hour of the same day. -/
structure SameHour (a b : Instant) : Prop where
  date : a.date = b.date
  hour : a.secondOfDay / 3600 = b.secondOfDay / 3600

/-- The nanoseconds from the start of 1970 to an instant that lies in no leap second. -/
def sinceEpoch (t : Instant) : Int := t.seconds * nanosPerSecond + t.nanos

/-- Whether two entries differ in their times alone, the second one by so many nanoseconds later. -/
structure IsMovedBan (amount : Int) (entry other : BannedAddress) : Prop where
  ip : other.ip = entry.ip
  jail : other.jail = entry.jail
  country : other.country = entry.country
  bannedAt : ∃ t moved : Instant, entry.bannedAt = some t ∧ other.bannedAt = some moved ∧
    t.nanos < nanosPerSecond ∧ moved.nanos < nanosPerSecond ∧ sinceEpoch moved - sinceEpoch t = amount

/-- Whether two jails differ in the times of their bans alone. -/
structure IsMovedJail (amount : Int) (jail other : Jail) : Prop where
  name : other.name = jail.name
  currentlyFailed : other.currentlyFailed = jail.currentlyFailed
  totalFailed : other.totalFailed = jail.totalFailed
  totalBanned : other.totalBanned = jail.totalBanned
  currentlyBanned : other.currentlyBanned = jail.currentlyBanned
  fileList : other.fileList = jail.fileList
  banned : List.Forall₂ (IsMovedBan amount) jail.banned other.banned

/-- Whether two answers have the same jails but for the times of their bans, and as many events. -/
structure Data.IsMoved (amount : Int) (data other : Data) : Prop where
  jails : List.Forall₂ (IsMovedJail amount) data.jails other.jails
  banEvents : other.banEvents.length = data.banEvents.length

def Data.snapshot? (data : Data) (now : Instant) : Option Snapshot :=
  Snapshot.compose? .demo data.jails data.banEvents now

/-- The place of an offender in a ranking, which has no time in it. -/
def place (offender : Offender) : List Char × List (List Char) × Nat × Option (List Char) :=
  (offender.ip, offender.jails, offender.jailCount, offender.country)

/-- Whether two snapshots show the same but for times. -/
structure SameView (amount : Int) (snapshot other : Snapshot) : Prop where
  mode : other.mode = snapshot.mode
  totals : other.totals = snapshot.totals
  jails : List.Forall₂ (IsMovedJail amount) snapshot.jails other.jails
  topOffenders : other.topOffenders.map place = snapshot.topOffenders.map place

theorem SameHour.hour_eq {a b : Instant} (h : SameHour a b) : a.hour = b.hour := by
  have hDays : a.seconds / 86400 = b.seconds / 86400 := by
    rw [← (Date.ofDays_spec (a.seconds / 86400)).2.1, ← (Date.ofDays_spec (b.seconds / 86400)).2.1]
    exact congrArg Date.toDays h.date
  have hHour := h.hour
  unfold Instant.secondOfDay at hHour
  unfold Instant.hour
  omega

/-- The seed is taken from the number of the hour alone. -/
theorem SameHour.hourSeed_eq {a b : Instant} (h : SameHour a b) : hourSeed a = hourSeed b := by
  rw [hourSeed, hourSeed, h.hour_eq]

/-- The start of 1970, from which plans are moved. -/
def epoch : Instant := ⟨0, 0⟩

/-- The instant that is as far from `now` as another one is from the start of 1970. -/
def since (now t : Instant) : Instant := ⟨now.seconds + t.seconds, now.nanos + t.nanos⟩

/-- Moving all times by one distance keeps their order. -/
theorem keepsOrder_since (now : Instant) : KeepsOrder (since now) := by
  intro a b
  rw [Bool.eq_iff_iff, Instant.le_iff, Instant.le_iff]
  unfold since
  dsimp only
  omega

section Plain

variable {now : Instant} (h : now.nanos < nanosPerSecond)
include h

theorem entry_eq (name : List Char) (ban : PlannedBan) :
    ban.entry now name = (ban.entry epoch name).moved (since now) := by
  have hEpoch : epoch.nanos < nanosPerSecond := by decide
  rw [PlannedBan.entry, PlannedBan.entry, Instant.addSeconds_eq h, Instant.addSeconds_eq hEpoch,
    BannedAddress.moved, Option.map_some, since, epoch, Int.zero_add, Nat.add_zero]

/-- The jail of a plan is the one at the start of 1970 with its times moved. -/
theorem jail_at_eq_moved (plan : PlannedJail) : plan.at_ now = (plan.at_ epoch).moved (since now) := by
  have hEntries : plan.kept.map (PlannedBan.entry now plan.name) =
      (plan.kept.map (PlannedBan.entry epoch plan.name)).map (BannedAddress.moved (since now)) := by
    rw [List.map_map]
    exact List.map_congr_left fun ban _ => entry_eq h plan.name ban
  rw [jail_at_eq, jail_at_eq, Jail.moved]
  simp only [hEntries]
  rfl

/-- The jails at an instant are those at the epoch with their times moved. -/
theorem jails_eq_moved (plans : List PlannedJail) :
    plans.map (PlannedJail.at_ now) =
      (plans.map (PlannedJail.at_ epoch)).map (Jail.moved (since now)) := by
  rw [List.map_map]
  exact List.map_congr_left fun plan _ => jail_at_eq_moved h plan

end Plain

theorem banTimes_moved (move : Instant → Instant) (jails : List Jail) :
    banTimes (jails.map (Jail.moved move)) = (banTimes jails).map move := by
  rw [banTimes, banTimes, List.flatMap_map, List.map_flatMap]
  refine congrArg (List.flatMap · jails) (funext fun jail => ?_)
  show (jail.banned.map (BannedAddress.moved move)).filterMap BannedAddress.bannedAt = _
  rw [List.filterMap_map, List.map_filterMap]
  rfl

section Two

variable {now₁ now₂ : Instant} (h₁ : now₁.nanos < nanosPerSecond) (h₂ : now₂.nanos < nanosPerSecond)
include h₁ h₂

/-- Between two instants, an entry moves by their distance. -/
theorem isMovedBan_entry (name : List Char) (ban : PlannedBan) :
    IsMovedBan (sinceEpoch now₂ - sinceEpoch now₁) (ban.entry now₁ name) (ban.entry now₂ name) := by
  refine ⟨rfl, rfl, rfl, _, _, rfl, rfl, ?_⟩
  rw [Instant.addSeconds_eq h₁, Instant.addSeconds_eq h₂, sinceEpoch, sinceEpoch, sinceEpoch, sinceEpoch]
  refine ⟨h₁, h₂, ?_⟩
  unfold nanosPerSecond
  dsimp only
  omega

/-- Between two instants, nothing but the times of a jail moves. -/
theorem isMovedJail_at (plan : PlannedJail) :
    IsMovedJail (sinceEpoch now₂ - sinceEpoch now₁) (plan.at_ now₁) (plan.at_ now₂) := by
  rw [jail_at_eq, jail_at_eq]
  refine ⟨rfl, rfl, rfl, rfl, ?_, rfl, ?_⟩
  · exact (List.length_map _).trans (List.length_map _).symm
  · rw [List.forall₂_map_left_iff, List.forall₂_map_right_iff, List.forall₂_same]
    exact fun ban _ => isMovedBan_entry h₁ h₂ plan.name ban

theorem isMovedJail_jails (plans : List PlannedJail) :
    List.Forall₂ (IsMovedJail (sinceEpoch now₂ - sinceEpoch now₁)) (plans.map (PlannedJail.at_ now₁))
      (plans.map (PlannedJail.at_ now₂)) := by
  rw [List.forall₂_map_left_iff, List.forall₂_map_right_iff, List.forall₂_same]
  exact fun plan _ => isMovedJail_at h₁ h₂ plan

end Two

/-- A jail counts the bans that were kept, whatever the instant. -/
theorem currentlyBanned_data (plan : Plan) (now : Instant) :
    (plan.data now).jails.map Jail.currentlyBanned = plan.jails.map fun jail => jail.kept.length := by
  rw [Plan.data, List.map_map]
  refine List.map_congr_left fun jail _ => ?_
  rw [Function.comp_apply, jail_at_eq]
  exact List.length_map _

/-- There are as many events as the plan has, whatever the instant. -/
theorem length_banEvents_data (plan : Plan) (now : Instant) : (plan.data now).banEvents.length =
    plan.events.length + (plan.jails.map fun jail => jail.kept.length).sum := by
  rw [Plan.data, List.length_mergeSort, Plan.times, List.length_append, List.length_map, banTimes_at,
    List.length_map, Plan.listed, List.length_flatMap]

/-- As many events are shown at any instant. -/
theorem length_times_at {now : Instant} (h : now.nanos < nanosPerSecond) (plan : Plan) :
    (plan.times now).length = (plan.times epoch).length := by
  rw [Plan.times, List.length_append, List.length_map, jails_eq_moved h, banTimes_moved, List.length_map,
    Plan.times, List.length_append, List.length_map]

theorem Plan.IsSound.snapshot?_eq {now : Instant} {plan : Plan} (h : plan.IsSound) (hRoom : HasRoom now) :
    ∃ totals timeline, Totals.ofJails? (plan.jails.map (PlannedJail.at_ now)) = some totals ∧
      (plan.data now).snapshot? now = some ⟨.demo, now, totals, plan.jails.map (PlannedJail.at_ now),
        timeline, topOffenders (plan.jails.map (PlannedJail.at_ now)) shownOffenders⟩ := by
  obtain ⟨totals, hTotals⟩ := h.exists_totals now
  exact ⟨totals, _, hTotals, Snapshot.compose?_eq hTotals (timeline?_eq hRoom.hasWindow _)⟩

theorem totals_at {now : Instant} (h : now.nanos < nanosPerSecond) (plans : List PlannedJail) :
    Totals.ofJails? (plans.map (PlannedJail.at_ now)) =
      Totals.ofJails? (plans.map (PlannedJail.at_ epoch)) := by
  rw [jails_eq_moved h, ofJails?_moved]

/-- The places of the ranking do not depend on the instant. -/
theorem places_at {now : Instant} (h : now.nanos < nanosPerSecond) (plans : List PlannedJail)
    (limit : Nat) :
    (topOffenders (plans.map (PlannedJail.at_ now)) limit).map place =
      (topOffenders (plans.map (PlannedJail.at_ epoch)) limit).map place := by
  rw [jails_eq_moved h, topOffenders_moved (keepsOrder_since now), List.map_map]
  rfl

/-- A service in synthetic mode shows the snapshot of the data of its seed, which is that of the hour when
none is given. -/
theorem statusAt_demo {σ : Type} {service : Service σ} (state : Service.State σ) {now : Instant}
    {seed : UInt64} {data : Data} {snapshot : Snapshot} (hDemo : service.mode = .demo)
    (hSeed : service.seed.getD (hourSeed now) = seed) (hData : Data.ofSeed? seed now = some data)
    (hSnapshot : data.snapshot? now = some snapshot) : (service.statusAt state now).1 = .ok snapshot := by
  subst hSeed
  rw [Service.statusAt, hDemo]
  -- The synthetic data has to be out of the way, or checking this evaluates it.
  change service.demoData? now = some data at hData
  generalize service.demoData? now = data? at hData
  subst hData
  show Service.snapshotOf .demo data.jails data.banEvents now = .ok snapshot
  rw [Data.snapshot?] at hSnapshot
  rw [Service.snapshotOf, hSnapshot]

/-- Of one plan, any two instants are shown the same jails with all times of bans moved by exactly as much
as the instants are apart, and as many events, and so the same totals and the same ranking. -/
theorem Plan.IsSound.sameView {now₁ now₂ : Instant} {plan : Plan} (h : plan.IsSound)
    (hRoom₁ : HasRoom now₁) (hRoom₂ : HasRoom now₂) (h₁ : now₁.nanos < nanosPerSecond)
    (h₂ : now₂.nanos < nanosPerSecond) : ∃ snapshot₁ snapshot₂,
      (plan.data now₁).IsMoved (sinceEpoch now₂ - sinceEpoch now₁) (plan.data now₂) ∧
      (plan.data now₁).snapshot? now₁ = some snapshot₁ ∧
      (plan.data now₂).snapshot? now₂ = some snapshot₂ ∧
      SameView (sinceEpoch now₂ - sinceEpoch now₁) snapshot₁ snapshot₂ := by
  have hJails := isMovedJail_jails h₁ h₂ plan.jails
  have hPlaces := (places_at h₂ plan.jails shownOffenders).trans
    (places_at h₁ plan.jails shownOffenders).symm
  obtain ⟨totals₁, timeline₁, hTotals₁, hSnapshot₁⟩ := h.snapshot?_eq hRoom₁
  obtain ⟨totals₂, timeline₂, hTotals₂, hSnapshot₂⟩ := h.snapshot?_eq hRoom₂
  have hTotals : totals₂ = totals₁ := by
    rw [totals_at h₂, ← totals_at h₁, hTotals₁] at hTotals₂
    exact (Option.some.inj hTotals₂).symm
  refine ⟨_, _, ⟨hJails, ?_⟩, hSnapshot₁, hSnapshot₂, ⟨rfl, hTotals, hJails, hPlaces⟩⟩
  rw [Plan.data, Plan.data, List.length_mergeSort, List.length_mergeSort, length_times_at h₁,
    length_times_at h₂]

/-- The bans that the jails list and the events of a seed, here of the hour that begins at noon on the first
of May 2024. Towards the end of the hour some bans no longer lie in the hours that they were in at noon. -/
theorem exists_plan_noon : ∃ plan rest,
    (drawPlan 5).run (.ofSeed 476268) = some (plan, rest) ∧
    plan.jails.map (fun jail => jail.kept.length) = [0, 1, 8, 8, 6, 3] ∧ plan.events.length = 458 ∧
    ((List.range 24).map fun i => (plan.hoursAgoAt ⟨1714564800, 0⟩).count (23 - i)) =
      [28, 26, 26, 13, 25, 16, 34, 24, 20, 11, 22, 15, 27, 22, 12, 19, 17, 17, 13, 20, 27, 14, 17, 19] ∧
    ((List.range 24).map fun i => (plan.hoursAgoAt ⟨1714568399, 0⟩).count (23 - i)) =
      [27, 23, 28, 15, 24, 17, 30, 28, 19, 10, 23, 14, 27, 24, 12, 19, 15, 18, 14, 20, 26, 15, 17, 19] := by
  have hFacts : ((drawPlan 5).run (.ofSeed 476268)).map (fun result =>
      (result.1.jails.map (fun jail => jail.kept.length), result.1.events.length,
        (List.range 24).map fun i => (result.1.hoursAgoAt ⟨1714564800, 0⟩).count (23 - i),
        (List.range 24).map fun i => (result.1.hoursAgoAt ⟨1714568399, 0⟩).count (23 - i))) =
      some ([0, 1, 8, 8, 6, 3], 458,
        [28, 26, 26, 13, 25, 16, 34, 24, 20, 11, 22, 15, 27, 22, 12, 19, 17, 17, 13, 20, 27, 14, 17, 19],
        [27, 23, 28, 15, 24, 17, 30, 28, 19, 10, 23, 14, 27, 24, 12, 19, 15, 18, 14, 20, 26, 15, 17, 19]) := by
    decide +kernel
  obtain ⟨⟨plan, rest⟩, hRun, hPlan⟩ := Option.map_eq_some_iff.mp hFacts
  simp only [Prod.mk.injEq] at hPlan
  exact ⟨plan, rest, hRun, hPlan⟩

/-- Within an hour every instant has the same seed. From one stream of random words, either no number of
tries is enough at any instant, or any two instants draw from the same words the same jails with all times
of bans moved by exactly as much as the instants are apart, and as many events, and so the same totals and
the same ranking are shown. A service in synthetic mode shows nothing else, whether its seed is given or
that of the hour. -/
theorem demoViews_areStable {now₁ now₂ : Instant} (hRoom₁ : HasRoom now₁) (hRoom₂ : HasRoom now₂)
    (h₁ : now₁.nanos < nanosPerSecond) (h₂ : now₂.nanos < nanosPerSecond) :
    (SameHour now₁ now₂ → hourSeed now₁ = hourSeed now₂) ∧
    ∀ stream : Stream,
      (Data.ofStream? stream now₁ = none ∧ Data.ofStream? stream now₂ = none ∧
        ∀ tries now, (drawData tries now).run stream = none) ∨
      ∃ data₁ data₂ snapshot₁ snapshot₂,
        Data.ofStream? stream now₁ = some data₁ ∧ Data.ofStream? stream now₂ = some data₂ ∧
        (∃ tries rest, (drawData tries now₁).run stream = some (data₁, rest) ∧
          (drawData tries now₂).run stream = some (data₂, rest)) ∧
        data₁.IsMoved (sinceEpoch now₂ - sinceEpoch now₁) data₂ ∧
        data₁.snapshot? now₁ = some snapshot₁ ∧ data₂.snapshot? now₂ = some snapshot₂ ∧
        SameView (sinceEpoch now₂ - sinceEpoch now₁) snapshot₁ snapshot₂ ∧
        ∀ seed, stream = .ofSeed seed →
          Data.ofSeed? seed now₁ = some data₁ ∧ Data.ofSeed? seed now₂ = some data₂ ∧
          ∀ {σ : Type} (service : Service σ) (state : Service.State σ), service.mode = .demo →
            (service.seed = some seed ∨
              (service.seed = none ∧ hourSeed now₁ = seed ∧ SameHour now₁ now₂)) →
            (service.statusAt state now₁).1 = .ok snapshot₁ ∧
            (service.statusAt state now₂).1 = .ok snapshot₂ := by
  refine ⟨SameHour.hourSeed_eq, fun stream => ?_⟩
  cases hDrawn : drawn? drawPlan stream with
  | none =>
      refine .inl ⟨?_, ?_, fun tries now => ?_⟩
      · rw [hRoom₁.ofStream?_eq, hDrawn, Option.map_none]
      · rw [hRoom₂.ofStream?_eq, hDrawn, Option.map_none]
      · rw [drawData_eq, StateT.run_map, (drawn?_eq_none_iff isSteady_drawPlan).mp hDrawn tries]
        rfl
  | some plan =>
      obtain ⟨tries, hPlan⟩ := (drawn?_eq_some_iff isSteady_drawPlan).mp hDrawn
      obtain ⟨⟨_, rest⟩, hRun, rfl⟩ := Option.map_eq_some_iff.mp hPlan
      obtain ⟨snapshot₁, snapshot₂, hMoved, hSnapshot₁, hSnapshot₂, hView⟩ :=
        (yields_drawPlan stream _ rest hRun).sameView hRoom₁ hRoom₂ h₁ h₂
      have hData₁ := hRoom₁.ofStream?_eq stream
      have hData₂ := hRoom₂.ofStream?_eq stream
      rw [hDrawn, Option.map_some] at hData₁ hData₂
      refine .inr ⟨_, _, snapshot₁, snapshot₂, hData₁, hData₂,
        ⟨tries, rest, run_drawData_eq_some_iff.mpr ⟨_, hRun, rfl⟩,
          run_drawData_eq_some_iff.mpr ⟨_, hRun, rfl⟩⟩,
        hMoved, hSnapshot₁, hSnapshot₂, hView, ?_⟩
      rintro seed rfl
      refine ⟨hData₁, hData₂, fun service state hDemo hSeed => ?_⟩
      obtain ⟨hDraw₁, hDraw₂⟩ :
          service.seed.getD (hourSeed now₁) = seed ∧ service.seed.getD (hourSeed now₂) = seed := by
        rcases hSeed with hGiven | ⟨hNone, rfl, hHour⟩
        · rw [hGiven]
          exact ⟨rfl, rfl⟩
        · rw [hNone]
          exact ⟨rfl, hHour.hourSeed_eq.symm⟩
      exact ⟨statusAt_demo state hDemo hDraw₁ hData₁ hSnapshot₁,
        statusAt_demo state hDemo hDraw₂ hData₂ hSnapshot₂⟩

/-- The first and the last instant of an hour, which draw twenty-six bans into five of the six jails. -/
theorem demoViews_areStable_noon :
    let now₁ : Instant := ⟨1714564800, 0⟩
    let now₂ : Instant := ⟨1714568399, 999999999⟩
    HasRoom now₁ ∧ HasRoom now₂ ∧ now₁.nanos < nanosPerSecond ∧ now₂.nanos < nanosPerSecond ∧
    SameHour now₁ now₂ ∧ hourSeed now₁ = 476268 ∧ hourSeed now₂ = 476268 ∧
    ∃ data₁ data₂ snapshot₁ snapshot₂,
      Data.ofSeed? 476268 now₁ = some data₁ ∧ Data.ofSeed? 476268 now₂ = some data₂ ∧
      data₁.jails.map Jail.currentlyBanned = [0, 1, 8, 8, 6, 3] ∧ data₁.banEvents.length = 484 ∧
      data₁.IsMoved 3599999999999 data₂ ∧
      data₁.snapshot? now₁ = some snapshot₁ ∧ data₂.snapshot? now₂ = some snapshot₂ ∧
      SameView 3599999999999 snapshot₁ snapshot₂ ∧
      ∀ {σ : Type} (service : Service σ) (state : Service.State σ), service.mode = .demo →
        service.seed = none →
        (service.statusAt state now₁).1 = .ok snapshot₁ ∧ (service.statusAt state now₂).1 = .ok snapshot₂ := by
  intro now₁ now₂
  have hRoom₁ : HasRoom now₁ := ⟨by decide, by decide⟩
  have hRoom₂ : HasRoom now₂ := ⟨by decide, by decide⟩
  have h₁ : now₁.nanos < nanosPerSecond := by decide
  have h₂ : now₂.nanos < nanosPerSecond := by decide
  have hHour : SameHour now₁ now₂ := ⟨by decide, by decide⟩
  have hAmount : sinceEpoch now₂ - sinceEpoch now₁ = 3599999999999 := by decide
  have hNoon : hourSeed now₁ = 476268 := by decide
  obtain ⟨hSeed, hStreams⟩ := demoViews_areStable hRoom₁ hRoom₂ h₁ h₂
  obtain ⟨plan, rest, hRun, hListed, hFurther, -, -⟩ := exists_plan_noon
  obtain ⟨-, -, hNever⟩ | ⟨data₁, data₂, snapshot₁, snapshot₂, hData₁, hData₂, -, hMoved, hSnapshot₁,
    hSnapshot₂, hView, hSeeds⟩ := hStreams (.ofSeed 476268)
  · have hNone := hNever 5 now₁
    rw [run_drawData_eq_some_iff.mpr ⟨plan, hRun, rfl⟩] at hNone
    cases hNone
  obtain ⟨hOf₁, hOf₂, hServices⟩ := hSeeds 476268 rfl
  have hDrawn := drawn?_eq_of_run isSteady_drawPlan hRun
  have hPlan : plan.data now₁ = data₁ := by
    rw [hRoom₁.ofStream?_eq, hDrawn, Option.map_some] at hData₁
    exact Option.some.inj hData₁
  rw [hAmount] at hMoved hView
  refine ⟨hRoom₁, hRoom₂, h₁, h₂, hHour, hNoon, (hSeed hHour) ▸ hNoon, data₁, data₂, snapshot₁, snapshot₂,
    hOf₁, hOf₂, ?_, ?_, hMoved, hSnapshot₁, hSnapshot₂, hView, fun service state hDemo hNone =>
      hServices service state hDemo (.inr ⟨hNone, hNoon, hHour⟩)⟩
  · rw [← hPlan, currentlyBanned_data, hListed]
  · rw [← hPlan, length_banEvents_data, hFurther, hListed]
    rfl

end BanBoard.Demo
