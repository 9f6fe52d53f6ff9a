import Mathlib.Algebra.Order.BigOperators.Group.List
import Mathlib.Algebra.Order.Group.Nat
import BanBoard.Proofs.Demo.Stability

/-!
The timeline of synthetic data within an hour. The hours that it shows and the number of bans in all of
them stay as they are, and so do the further events in each hour. The bans that are listed are so many
minutes ago, so their hours change as the present moves on, and with them the counts.
-/

namespace BanBoard.Demo

open BanBoard.Overview
open BanBoard.Random
open BanBoard.Time

variable {now : Instant}

/-- The hour of a listed ban is so many hours back. -/
theorem PlannedBan.IsSound.hour_eq {ban : PlannedBan} (h : ban.IsSound) :
    (now.addSeconds (-(60 * (ban.minutesAgo : Int)))).hour = now.hour - ban.hoursAgoAt now := by
  have hLeast := h.one_le
  have hLeap := now.leapSecond_le
  rw [now.addSeconds_back (by omega)]
  unfold PlannedBan.hoursAgoAt Instant.hour
  dsimp only
  omega

/-- An event of the present hour is in it although it may not have come yet. Any other is counted from the
start of its own hour, which a leap second puts off. -/
theorem PlannedEvent.IsSound.hour_eq {event : PlannedEvent} (h : event.IsSound)
    (hNow : now.nanos < 2 * nanosPerSecond) : (event.at_ now).hour = now.hour - event.hoursAgoAt now := by
  have hSecond := h.second
  have hLeap := now.leapSecond_le
  rw [PlannedEvent.at_, eventTime, Instant.hour_earliest]
  obtain hPresent | hPast := Nat.eq_zero_or_pos event.hoursAgo
  -- The start of the hour is enough of a bound, because what comes after the present does not count.
  · have hHour := now.seconds_addSeconds_bounds (-(now.seconds % 3600))
    have hBack := (eventHour now).seconds_addSeconds_bounds (-(3600 * (event.hoursAgo : Int)))
    have hOn := ((eventHour now).addSeconds (-(3600 * (event.hoursAgo : Int)))).seconds_addSeconds_bounds
      event.second
    rw [← eventHour] at hHour
    unfold PlannedEvent.hoursAgoAt Instant.hour
    omega
  · have hBefore : -(3600 * (event.hoursAgo : Int)) < 0 := by omega
    have hStep : -(now.seconds % 3600) + -(3600 * (event.hoursAgo : Int)) < 0 := by omega
    rw [eventHour, Instant.addSeconds_addSeconds_back hNow (by omega) hBefore,
      now.addSeconds_back hStep, Instant.addSeconds_eq (Instant.nanos_sub_leapSecond_lt hNow)]
    unfold PlannedEvent.hoursAgoAt Instant.hour
    dsimp only
    omega

/-- No listed ban is older than the hours that are shown. -/
theorem PlannedBan.IsSound.hoursAgoAt_lt {ban : PlannedBan} (h : ban.IsSound) :
    ban.hoursAgoAt now < 24 := by
  have hMost := h.le_day
  unfold PlannedBan.hoursAgoAt
  omega

theorem PlannedEvent.IsSound.hoursAgoAt_lt {event : PlannedEvent} (h : event.IsSound) :
    event.hoursAgoAt now < 24 := by
  have hHours := h.hour
  unfold PlannedEvent.hoursAgoAt
  omega

/-- The bucket of a plan for the hour that began so many hours before the present one. -/
def Plan.bucketAt (now : Instant) (plan : Plan) (hoursAgo : Nat) : Bucket :=
  ⟨.startOfHour (now.hour - hoursAgo), hourLabel (.startOfHour (now.hour - hoursAgo)),
    UInt32.ofNat ((plan.hoursAgoAt now).count hoursAgo)⟩

def Plan.timelineAt (now : Instant) (plan : Plan) : List Bucket :=
  (List.range 24).map fun i => plan.bucketAt now (23 - i)

/-- The hours and labels of a timeline depend on the present hour alone. -/
theorem Plan.axis_timelineAt {now₁ now₂ : Instant} (h : now₁.hour = now₂.hour) (plan : Plan) :
    ((plan.timelineAt now₂).map fun bucket => (bucket.hour, bucket.label)) =
      (plan.timelineAt now₁).map fun bucket => (bucket.hour, bucket.label) := by
  rw [Plan.timelineAt, Plan.timelineAt, List.map_map, List.map_map]
  refine List.map_congr_left fun i _ => ?_
  rw [Function.comp_apply, Function.comp_apply, Plan.bucketAt, Plan.bucketAt, h]

section Sound

variable {plan : Plan} (h : plan.IsSound)
include h

theorem Plan.IsSound.isSound_of_mem_listed : ∀ ban ∈ plan.listed, ban.IsSound := by
  intro ban hMem
  obtain ⟨jail, hJail, hBan⟩ := List.mem_flatMap.mp hMem
  exact (h.jails jail hJail).bans ban ((foldl_keepBan_sublist jail.bans).subset hBan)

/-- Nothing in a sound plan is older than the hours that are shown. -/
theorem Plan.IsSound.hoursAgoAt_lt : ∀ hoursAgo ∈ plan.hoursAgoAt now, hoursAgo < 24 :=
  List.forall_mem_append.mpr
    ⟨List.forall_mem_map.mpr fun event hMem => (h.events event hMem).hoursAgoAt_lt,
      List.forall_mem_map.mpr fun ban hMem => (h.isSound_of_mem_listed ban hMem).hoursAgoAt_lt⟩

/-- The hours of all events are the present one less the hours ago. -/
theorem Plan.IsSound.map_hour_times (hNow : now.nanos < 2 * nanosPerSecond) :
    (plan.times now).map Instant.hour =
      (plan.hoursAgoAt now).map fun hoursAgo : Nat => now.hour - hoursAgo := by
  rw [Plan.times, Plan.hoursAgoAt, banTimes_at, List.map_append, List.map_append, List.map_map,
    List.map_map, List.map_map, List.map_map]
  refine congrArg₂ _ (List.map_congr_left fun event hMem => ?_) (List.map_congr_left fun ban hMem => ?_)
  · exact (h.events event hMem).hour_eq hNow
  · exact (h.isSound_of_mem_listed ban hMem).hour_eq

/-- The events of an hour are counted by how many hours ago it was. -/
theorem Plan.IsSound.countOfHour_times (hNow : now.nanos < 2 * nanosPerSecond) (hoursAgo : Nat) :
    countOfHour (plan.times now) (now.hour - hoursAgo) = (plan.hoursAgoAt now).count hoursAgo := by
  have hHours : countOfHour (plan.times now) (now.hour - hoursAgo) =
      ((plan.times now).map Instant.hour).countP fun hour => hour = now.hour - hoursAgo := by
    rw [List.countP_map]
    rfl
  rw [hHours, h.map_hour_times hNow, List.countP_map, List.count]
  refine List.countP_congr fun other _ => ?_
  rw [Function.comp_apply, decide_eq_true_eq, beq_iff_eq]
  omega

/-- A timeline shows in each hour what was planned for it, whatever order the times are in. -/
theorem Plan.IsSound.timeline?_eq (hRoom : HasRoom now) (hNow : now.nanos < 2 * nanosPerSecond) :
    timeline? (plan.data now).banEvents now = some (plan.timelineAt now) := by
  rw [Plan.data, timeline?_perm (List.mergeSort_perm _ _), Overview.timeline?_eq hRoom.hasWindow]
  refine congrArg some (List.map_congr_left fun i hMem => ?_)
  have hHour : firstHour now + i = now.hour - (23 - i : Nat) := by
    have hLast := List.mem_range.mp hMem
    unfold firstHour
    omega
  rw [hHour, h.countOfHour_times hNow, Plan.bucketAt]

theorem Plan.IsSound.length_hoursAgoAt (hNow : now.nanos < 2 * nanosPerSecond) :
    (plan.hoursAgoAt now).length < 2 ^ 32 := by
  have hLength := congrArg List.length (h.map_hour_times hNow)
  rw [List.length_map, List.length_map] at hLength
  exact hLength ▸ h.length_times

theorem Plan.IsSound.count_bucketAt (hNow : now.nanos < 2 * nanosPerSecond) (hoursAgo : Nat) :
    (plan.bucketAt now hoursAgo).count.toNat = (plan.hoursAgoAt now).count hoursAgo :=
  UInt32.toNat_ofNat_of_lt' (Nat.lt_of_le_of_lt List.count_le_length (h.length_hoursAgoAt hNow))

/-- All times of a plan are counted. -/
theorem Plan.IsSound.sum_timelineAt (hRoom : HasRoom now) (hNow : now.nanos < 2 * nanosPerSecond) :
    ((plan.timelineAt now).map fun bucket => bucket.count.toNat).sum =
      plan.events.length + plan.listed.length := by
  obtain ⟨buckets, hBuckets, hSum⟩ := (h.isSound_data hRoom).counted
  obtain rfl := Option.some.inj ((h.timeline?_eq hRoom hNow).symm.trans hBuckets)
  rw [hSum, Plan.data, List.length_mergeSort, Plan.times, List.length_append, List.length_map, banTimes_at,
    List.length_map]

variable {now₁ now₂ : Instant}

/-- Within an hour, two timelines are the same just when the hours ago are the same up to order. -/
theorem Plan.IsSound.timelineAt_eq_iff (hHour : now₁.hour = now₂.hour)
    (h₁ : now₁.nanos < 2 * nanosPerSecond) (h₂ : now₂.nanos < 2 * nanosPerSecond) :
    plan.timelineAt now₂ = plan.timelineAt now₁ ↔
      (plan.hoursAgoAt now₂).Perm (plan.hoursAgoAt now₁) := by
  rw [Plan.timelineAt, Plan.timelineAt, List.map_inj_left]
  constructor
  · refine fun hBuckets => List.perm_iff_count.mpr fun hoursAgo => ?_
    by_cases hShown : hoursAgo < 24
    · have hBucket := hBuckets (23 - hoursAgo) (List.mem_range.mpr (by omega))
      rw [Nat.sub_sub_self (Nat.le_of_lt_succ hShown)] at hBucket
      rw [← h.count_bucketAt h₁, ← h.count_bucketAt h₂, hBucket]
    · have hNone (now : Instant) : hoursAgo ∉ plan.hoursAgoAt now := fun hMem =>
        hShown (h.hoursAgoAt_lt hoursAgo hMem)
      rw [List.count_eq_zero_of_not_mem (hNone now₁), List.count_eq_zero_of_not_mem (hNone now₂)]
  · intro hPerm i _
    rw [Plan.bucketAt, Plan.bucketAt, hPerm.count_eq, hHour]

end Sound

/-- Two ways to number the same things, one of them never above the other, agree if they use the same
numbers. -/
theorem eq_of_perm_of_le {α : Type} {xs : List α} {f g : α → Nat} (hLe : ∀ x ∈ xs, f x ≤ g x)
    (hPerm : (xs.map f).Perm (xs.map g)) : ∀ x ∈ xs, f x = g x := by
  intro x hMem
  by_contra hNe
  have hLess := List.sum_lt_sum f g hLe ⟨x, hMem, Nat.lt_of_le_of_ne (hLe x hMem) hNe⟩
  exact Nat.ne_of_lt hLess hPerm.sum_eq

section Plain

variable {now₁ now₂ : Instant} (h₁ : now₁.nanos < nanosPerSecond) (h₂ : now₂.nanos < nanosPerSecond)
include h₁ h₂

/-- Later in an hour, a listed ban is as many hours ago or fewer. -/
theorem PlannedBan.hoursAgoAt_le (hLater : now₁.seconds % 3600 ≤ now₂.seconds % 3600)
    (ban : PlannedBan) : ban.hoursAgoAt now₂ ≤ ban.hoursAgoAt now₁ := by
  rw [PlannedBan.hoursAgoAt, PlannedBan.hoursAgoAt, Instant.leapSecond_eq_zero h₁,
    Instant.leapSecond_eq_zero h₂]
  omega

/-- Within a minute, a listed ban stays as many hours ago. -/
theorem PlannedBan.hoursAgoAt_eq (hMinute : now₁.seconds / 60 = now₂.seconds / 60) (ban : PlannedBan) :
    ban.hoursAgoAt now₂ = ban.hoursAgoAt now₁ := by
  rw [PlannedBan.hoursAgoAt, PlannedBan.hoursAgoAt, Instant.leapSecond_eq_zero h₁,
    Instant.leapSecond_eq_zero h₂]
  omega

/-- The further events keep their hours, so the counts change as soon as one of the bans does not. -/
theorem Plan.perm_hoursAgoAt_iff (plan : Plan) :
    (plan.hoursAgoAt now₂).Perm (plan.hoursAgoAt now₁) ↔
      ∀ ban ∈ plan.listed, ban.hoursAgoAt now₂ = ban.hoursAgoAt now₁ := by
  have hEvents : plan.events.map (PlannedEvent.hoursAgoAt now₂) =
      plan.events.map (PlannedEvent.hoursAgoAt now₁) :=
    List.map_congr_left fun event _ => by
      rw [PlannedEvent.hoursAgoAt, PlannedEvent.hoursAgoAt, Instant.leapSecond_eq_zero h₁,
        Instant.leapSecond_eq_zero h₂]
  rw [Plan.hoursAgoAt, Plan.hoursAgoAt, hEvents, List.perm_append_left_iff]
  constructor
  · intro hPerm ban hMem
    rcases Int.le_total (now₁.seconds % 3600) (now₂.seconds % 3600) with hLater | hEarlier
    · exact eq_of_perm_of_le (fun ban _ => ban.hoursAgoAt_le h₁ h₂ hLater) hPerm ban hMem
    · exact (eq_of_perm_of_le (fun ban _ => ban.hoursAgoAt_le h₂ h₁ hEarlier) hPerm.symm ban hMem).symm
  · intro hSame
    rw [List.map_congr_left hSame]

end Plain

/-- Whether an instant is shown these data and this snapshot of a plan, with every count as it was
planned. -/
structure Plan.IsShown (now : Instant) (plan : Plan) (data : Data) (snapshot : Snapshot) : Prop where
  data_eq : plan.data now = data
  snapshot_eq : data.snapshot? now = some snapshot
  timeline_eq : snapshot.timeline = plan.timelineAt now
  counts_eq : (snapshot.timeline.map fun bucket => bucket.count.toNat) =
    (List.range 24).map fun i => (plan.hoursAgoAt now).count (23 - i)

/-- A sound plan is shown at every instant with room. -/
theorem Plan.IsSound.exists_isShown {plan : Plan} (h : plan.IsSound) (hRoom : HasRoom now)
    (hNow : now.nanos < 2 * nanosPerSecond) : ∃ data snapshot, plan.IsShown now data snapshot := by
  obtain ⟨totals, hTotals⟩ := h.exists_totals now
  refine ⟨_, _, rfl, Snapshot.compose?_eq hTotals (h.timeline?_eq hRoom hNow), rfl, ?_⟩
  rw [Plan.timelineAt, List.map_map]
  exact List.map_congr_left fun i _ => h.count_bucketAt hNow (23 - i)

/-- The data that are drawn are those of the plan. -/
theorem Plan.IsShown.ofStream?_eq {plan : Plan} {data : Data} {snapshot : Snapshot}
    (h : plan.IsShown now data snapshot) (hRoom : HasRoom now) {stream : Stream}
    (hDrawn : drawn? drawPlan stream = some plan) : Data.ofStream? stream now = some data := by
  rw [hRoom.ofStream?_eq, hDrawn, Option.map_some, h.data_eq]

/-- A service in synthetic mode without a seed of its own shows the plan of the hour. -/
theorem Plan.IsShown.statusAt_eq {plan : Plan} {data : Data} {snapshot : Snapshot}
    (h : plan.IsShown now data snapshot) (hRoom : HasRoom now)
    (hDrawn : drawn? drawPlan (.ofSeed (hourSeed now)) = some plan) {σ : Type}
    {service : Service σ} (state : Service.State σ) (hDemo : service.mode = .demo)
    (hSeed : service.seed = none) : (service.statusAt state now).1 = .ok snapshot := by
  refine statusAt_demo state hDemo ?_ (h.ofStream?_eq hRoom hDrawn) h.snapshot_eq
  rw [hSeed, Option.getD_none]

/-- Within an hour a plan is shown under the same hours and labels and with the same number of bans in
all, and in each hour with what was planned for it so many hours ago. The timelines are the same exactly if
as much was planned for each hour at both instants. Outside of leap seconds this is so as long as every
listed ban stays in its hour, and so throughout every minute. -/
theorem demoTimeline_countsPlan {tries : Nat} {stream : Stream} {plan : Plan} {now₁ now₂ : Instant}
    (hDraws : ((drawPlan tries).run stream).map Prod.fst = some plan) (hRoom₁ : HasRoom now₁)
    (hRoom₂ : HasRoom now₂) (hNow₁ : now₁.isRepresentable = true) (hNow₂ : now₂.isRepresentable = true)
    (hHour : SameHour now₁ now₂) :
    ∃ data₁ data₂ snapshot₁ snapshot₂,
      plan.IsShown now₁ data₁ snapshot₁ ∧ plan.IsShown now₂ data₂ snapshot₂ ∧
      Data.ofStream? stream now₁ = some data₁ ∧ Data.ofStream? stream now₂ = some data₂ ∧
      (stream = .ofSeed (hourSeed now₁) →
        ∀ {σ : Type} (service : Service σ) (state : Service.State σ), service.mode = .demo →
          service.seed = none →
          (service.statusAt state now₁).1 = .ok snapshot₁ ∧
          (service.statusAt state now₂).1 = .ok snapshot₂) ∧
      (snapshot₂.timeline.map fun bucket => (bucket.hour, bucket.label)) =
        (snapshot₁.timeline.map fun bucket => (bucket.hour, bucket.label)) ∧
      (snapshot₂.timeline.map fun bucket => bucket.count.toNat).sum =
        (snapshot₁.timeline.map fun bucket => bucket.count.toNat).sum ∧
      (snapshot₂.timeline = snapshot₁.timeline ↔
        (plan.hoursAgoAt now₂).Perm (plan.hoursAgoAt now₁)) ∧
      (now₁.nanos < nanosPerSecond → now₂.nanos < nanosPerSecond →
        (snapshot₂.timeline = snapshot₁.timeline ↔
          ∀ ban ∈ plan.listed, ban.hoursAgoAt now₂ = ban.hoursAgoAt now₁) ∧
        (now₁.seconds / 60 = now₂.seconds / 60 → snapshot₂.timeline = snapshot₁.timeline)) := by
  have hDrawn := (drawn?_eq_some_iff isSteady_drawPlan).mpr ⟨tries, hDraws⟩
  obtain ⟨⟨_, rest⟩, hRun, rfl⟩ := Option.map_eq_some_iff.mp hDraws
  have hPlan := yields_drawPlan stream _ rest hRun
  have hNanos₁ := ((Instant.isRepresentable_iff now₁).mp hNow₁).2.2
  have hNanos₂ := ((Instant.isRepresentable_iff now₂).mp hNow₂).2.2
  obtain ⟨data₁, snapshot₁, hShown₁⟩ := hPlan.exists_isShown hRoom₁ hNanos₁
  obtain ⟨data₂, snapshot₂, hShown₂⟩ := hPlan.exists_isShown hRoom₂ hNanos₂
  have hSame := hPlan.timelineAt_eq_iff hHour.hour_eq hNanos₁ hNanos₂
  refine ⟨data₁, data₂, snapshot₁, snapshot₂, hShown₁, hShown₂, hShown₁.ofStream?_eq hRoom₁ hDrawn,
    hShown₂.ofStream?_eq hRoom₂ hDrawn, ?_, ?_, ?_, ?_, ?_⟩
  · rintro rfl σ service state hDemo hSeed
    exact ⟨hShown₁.statusAt_eq hRoom₁ hDrawn state hDemo hSeed,
      hShown₂.statusAt_eq hRoom₂ (hHour.hourSeed_eq ▸ hDrawn) state hDemo hSeed⟩
  · rw [hShown₁.timeline_eq, hShown₂.timeline_eq]
    exact Plan.axis_timelineAt hHour.hour_eq _
  · rw [hShown₁.timeline_eq, hShown₂.timeline_eq, hPlan.sum_timelineAt hRoom₁ hNanos₁,
      hPlan.sum_timelineAt hRoom₂ hNanos₂]
  · rw [hShown₁.timeline_eq, hShown₂.timeline_eq]
    exact hSame
  · intro h₁ h₂
    have hBans := hSame.trans (Plan.perm_hoursAgoAt_iff h₁ h₂ _)
    rw [hShown₁.timeline_eq, hShown₂.timeline_eq]
    exact ⟨hBans, fun hMinute => hBans.mpr fun ban _ => ban.hoursAgoAt_eq h₁ h₂ hMinute⟩

/-- A stream from which one ban is drawn, a minute ago, and nothing else. -/
def oneBanStream : Stream :=
  ⟨.replicate 8 0, 0, .replicate 25 0 ++ 0x20000000 :: .replicate 200 0⟩

/-- The plan that is drawn from it. -/
def oneBanPlan : Plan :=
  ⟨⟨"sshd".toList, [⟨⟨"1.0.0.1".toList, "CN".toList⟩, 1⟩], 0, 100, 5⟩ ::
    jailNames.tail.map fun name => ⟨name.toList, [], 0, 100, 5⟩, []⟩

/-- The first minute of an hour. -/
theorem demoTimeline_countsPlan_sameMinute :
    let now₁ : Instant := ⟨1714564800, 7⟩
    let now₂ : Instant := ⟨1714564859, 999999999⟩
    ((drawPlan 1).run oneBanStream).map Prod.fst = some oneBanPlan ∧ HasRoom now₁ ∧ HasRoom now₂ ∧
    now₁.isRepresentable = true ∧ now₂.isRepresentable = true ∧ SameHour now₁ now₂ ∧
    ∃ data₁ data₂ snapshot₁ snapshot₂,
      oneBanPlan.IsShown now₁ data₁ snapshot₁ ∧ oneBanPlan.IsShown now₂ data₂ snapshot₂ ∧
      Data.ofStream? oneBanStream now₁ = some data₁ ∧ Data.ofStream? oneBanStream now₂ = some data₂ ∧
      snapshot₂.timeline = snapshot₁.timeline ∧
      (snapshot₁.timeline.map fun bucket => bucket.count.toNat) = .replicate 22 0 ++ [1, 0] := by
  intro now₁ now₂
  have hDraws : ((drawPlan 1).run oneBanStream).map Prod.fst = some oneBanPlan := by decide +kernel
  have hRoom₁ : HasRoom now₁ := ⟨by decide, by decide⟩
  have hRoom₂ : HasRoom now₂ := ⟨by decide, by decide⟩
  have hNow₁ : now₁.isRepresentable = true := by decide
  have hNow₂ : now₂.isRepresentable = true := by decide
  have hHour : SameHour now₁ now₂ := ⟨by decide, by decide⟩
  obtain ⟨data₁, data₂, snapshot₁, snapshot₂, hShown₁, hShown₂, hData₁, hData₂, -, -, -, -, hPlain⟩ :=
    demoTimeline_countsPlan hDraws hRoom₁ hRoom₂ hNow₁ hNow₂ hHour
  obtain ⟨-, hMinute⟩ := hPlain (by decide) (by decide)
  exact ⟨hDraws, hRoom₁, hRoom₂, hNow₁, hNow₂, hHour, data₁, data₂, snapshot₁, snapshot₂, hShown₁,
    hShown₂, hData₁, hData₂, hMinute (by decide), hShown₁.counts_eq.trans (by decide)⟩

/-- From noon to the end of that hour, bans from the seed of the hour leave the hours that they were in. -/
theorem demoTimeline_changesWithinHour :
    let now₁ : Instant := ⟨1714564800, 0⟩
    let now₂ : Instant := ⟨1714568399, 0⟩
    HasRoom now₁ ∧ HasRoom now₂ ∧ SameHour now₁ now₂ ∧ hourSeed now₁ = hourSeed now₂ ∧
    ∃ snapshot₁ snapshot₂,
      (∀ {σ : Type} (service : Service σ) (state : Service.State σ), service.mode = .demo →
        service.seed = none →
        (service.statusAt state now₁).1 = .ok snapshot₁ ∧
        (service.statusAt state now₂).1 = .ok snapshot₂) ∧
      (snapshot₁.timeline.map fun bucket => bucket.count.toNat) =
        [28, 26, 26, 13, 25, 16, 34, 24, 20, 11, 22, 15, 27, 22, 12, 19, 17, 17, 13, 20, 27, 14, 17, 19] ∧
      (snapshot₂.timeline.map fun bucket => bucket.count.toNat) =
        [27, 23, 28, 15, 24, 17, 30, 28, 19, 10, 23, 14, 27, 24, 12, 19, 15, 18, 14, 20, 26, 15, 17, 19] := by
  intro now₁ now₂
  have hRoom₁ : HasRoom now₁ := ⟨by decide, by decide⟩
  have hRoom₂ : HasRoom now₂ := ⟨by decide, by decide⟩
  have hHour : SameHour now₁ now₂ := ⟨by decide, by decide⟩
  have hNoon : hourSeed now₁ = 476268 := by decide
  obtain ⟨plan, rest, hRun, -, -, hCounts₁, hCounts₂⟩ := exists_plan_noon
  have hPlan := yields_drawPlan _ plan rest hRun
  obtain ⟨data₁, snapshot₁, hShown₁⟩ := hPlan.exists_isShown hRoom₁ (by decide)
  obtain ⟨data₂, snapshot₂, hShown₂⟩ := hPlan.exists_isShown hRoom₂ (by decide)
  have hDrawn : drawn? drawPlan (.ofSeed (hourSeed now₁)) = some plan := by
    rw [hNoon]
    exact drawn?_eq_of_run isSteady_drawPlan hRun
  exact ⟨hRoom₁, hRoom₂, hHour, hHour.hourSeed_eq, snapshot₁, snapshot₂, fun service state hDemo hSeed =>
    ⟨hShown₁.statusAt_eq hRoom₁ hDrawn state hDemo hSeed,
      hShown₂.statusAt_eq hRoom₂ (hHour.hourSeed_eq ▸ hDrawn) state hDemo hSeed⟩,
    hShown₁.counts_eq.trans hCounts₁, hShown₂.counts_eq.trans hCounts₂⟩

end BanBoard.Demo
