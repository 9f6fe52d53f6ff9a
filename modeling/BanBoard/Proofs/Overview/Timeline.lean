import BanBoard.Overview.Timeline
import BanBoard.Proofs.Time.Hour
import Mathlib.Data.List.Nodup

/-!
The counts of a timeline. The test for the window, the hour of an event and the position of its bucket
are three computations, and in terms of the numbers of hours they agree: an event raises the count of
its own hour and no other. From there the timeline is a count per hour, whatever order the events are in.
-/

namespace BanBoard.Overview

open BanBoard.Time

/-- The number of the first hour that is shown at an instant. -/
def firstHour (now : Instant) : Int := now.hour - 23

def countOfHour (events : List Instant) (hour : Int) : Nat := events.countP fun t => t.hour = hour

/-- Where the calendar has the whole window, the start of its last hour is found. -/
theorem floorHour_of_hasWindow {now : Instant} (h : hasWindow now = true) :
    now.floorHour = .startOfHour now.hour := by
  by_contra hNot
  have hLost : ¬(Instant.startOfHour now.hour).isRepresentable = true := fun hHeld =>
    hNot (Instant.floorHour_eq hHeld)
  have hSelf := Instant.floorHour_eq_self hLost
  rw [hasWindow, Bool.and_eq_true, windowStart, windowEnd, hSelf, Instant.isRepresentable_iff,
    Instant.isRepresentable_iff] at h
  obtain ⟨⟨hFirst, -, -⟩, -, hLast, -⟩ := h
  have hBack := now.seconds_addSeconds_bounds (-(3600 * ((timelineHours : Int) - 1)))
  have hOn := now.seconds_addSeconds_bounds 3600
  have hHours : ((timelineHours : Int) - 1) = 23 := rfl
  have hWhole := Instant.dvd_firstSecond
  refine hLost ((Instant.isRepresentable_iff _).mpr ?_)
  simp only [Instant.startOfHour, Instant.hour]
  exact ⟨by omega, by omega, by decide⟩

section Start

variable {now : Instant} (h : now.floorHour = .startOfHour now.hour)
include h

/-- The window starts with the first hour that is shown. -/
theorem windowStart_eq : windowStart now = .startOfHour (firstHour now) := by
  have hBack : -(3600 * ((timelineHours : Int) - 1)) = 3600 * (-23) := by decide
  rw [windowStart, h, hBack, Instant.addSeconds_startOfHour]
  rfl

theorem windowEnd_eq : windowEnd now = .startOfHour (now.hour + 1) := by
  rw [windowEnd, h]
  exact Instant.addSeconds_startOfHour now.hour 1

end Start

section Window

variable {now : Instant} (h : hasWindow now = true)
include h

/-- An event lies in the window just when its hour is one of those that are shown. -/
theorem inWindow_iff {event : Instant} :
    inWindow now event = true ↔ firstHour now ≤ event.hour ∧ event.hour < firstHour now + 24 := by
  have hStart := floorHour_of_hasWindow h
  rw [inWindow, windowStart_eq hStart, windowEnd_eq hStart, Bool.and_eq_true, Bool.not_eq_true',
    ← Bool.not_eq_true, Instant.lt_startOfHour_iff, Instant.lt_startOfHour_iff, firstHour]
  omega

/-- An event in the window has a bucket, and its position is the distance from the first hour. -/
theorem bucketIndex_of_inWindow {event : Instant} (hInside : inWindow now event = true) :
    (bucketIndex now event : Int) = event.hour - firstHour now ∧ bucketIndex now event < 24 := by
  rw [inWindow_iff h] at hInside
  rw [bucketIndex, windowStart_eq (floorHour_of_hasWindow h), Instant.hour_floorHour,
    Instant.hour_startOfHour]
  omega

/-- The calendar holds the start of every hour of the window. -/
theorem isRepresentable_shownHour {i : Nat} (hi : i < 24) :
    (Instant.startOfHour (firstHour now + i)).isRepresentable = true := by
  have hStart := floorHour_of_hasWindow h
  rw [hasWindow, Bool.and_eq_true, windowStart_eq hStart, windowEnd_eq hStart,
    Instant.isRepresentable_iff, Instant.isRepresentable_iff] at h
  simp only [Instant.startOfHour] at h
  rw [Instant.isRepresentable_iff]
  simp only [Instant.startOfHour]
  unfold firstHour at h ⊢
  exact ⟨by omega, by omega, by decide⟩

end Window

/-- A bump adds one to the count at its index and to no other. -/
theorem getElem?_bump (index : Nat) (counts : List UInt32) (i : Nat) :
    (bump index counts)[i]? = counts[i]?.map fun count => if index = i then count + 1 else count := by
  fun_induction bump index counts generalizing i with
  | case1 => rfl
  | case2 count counts => cases i <;> simp
  | case3 index count counts ih =>
      cases i with
      | zero => simp
      | succ i => simpa using ih i

theorem length_bump (index : Nat) (counts : List UInt32) :
    (bump index counts).length = counts.length := by
  fun_induction bump index counts <;> simp_all

theorem length_hourCounts (events : List Instant) (now : Instant) :
    (hourCounts events now).length = 24 := by
  suffices hFold : ∀ counts : List UInt32,
      (events.foldl (countEvent now) counts).length = counts.length from hFold _
  induction events with
  | nil => exact fun _ => rfl
  | cons event events ih =>
      intro counts
      rw [List.foldl_cons, ih, countEvent]
      split
      · exact length_bump _ _
      · rfl

section Window

variable {now : Instant} (h : hasWindow now = true)
include h

/-- An event is counted in the bucket of its own hour. -/
theorem getElem?_countEvent (counts : List UInt32) (event : Instant) {i : Nat} (hi : i < 24) :
    (countEvent now counts event)[i]? =
      counts[i]?.map fun count => if event.hour = firstHour now + i then count + 1 else count := by
  unfold countEvent
  split
  · rename_i hInside
    have hSame : bucketIndex now event = i ↔ event.hour = firstHour now + i := by
      have hIndex := (bucketIndex_of_inWindow h hInside).1
      omega
    simp only [getElem?_bump, hSame]
  · rename_i hOutside
    have hOther : event.hour ≠ firstHour now + i := by
      intro hHour
      rw [inWindow_iff h, hHour] at hOutside
      omega
    simp [hOther]

/-- Every bucket has as many events added to it as there are in its hour. -/
theorem getElem?_foldl_countEvent (events : List Instant) (counts : List UInt32) {i : Nat}
    (hi : i < 24) :
    (events.foldl (countEvent now) counts)[i]? =
      counts[i]?.map (· + UInt32.ofNat (countOfHour events (firstHour now + i))) := by
  induction events generalizing counts with
  | nil => simp [countOfHour]
  | cons event events ih =>
      rw [List.foldl_cons, ih, getElem?_countEvent h counts event hi, Option.map_map]
      refine congrArg (Option.map · counts[i]?) (funext fun count => ?_)
      by_cases hHour : event.hour = firstHour now + i
      · simp only [Function.comp_apply, if_pos hHour, countOfHour, List.countP_cons,
          decide_eq_true hHour, UInt32.ofNat_add]
        exact (UInt32.add_assoc _ _ _).trans (congrArg (count + ·) (UInt32.add_comm _ _))
      · simp [hHour, countOfHour]

/-- The counts are those of the hours, one after the other. -/
theorem hourCounts_eq (events : List Instant) :
    hourCounts events now =
      (List.range 24).map fun i : Nat => UInt32.ofNat (countOfHour events (firstHour now + i)) := by
  refine List.ext_getElem? fun i => ?_
  by_cases hi : i < 24
  · rw [hourCounts, getElem?_foldl_countEvent h events _ hi, timelineHours,
      List.getElem?_replicate_of_lt hi, List.getElem?_map, List.getElem?_range hi]
    simp
  · rw [List.getElem?_eq_none (by rw [length_hourCounts]; omega), List.getElem?_eq_none (by simp; omega)]

/-- A timeline is a bucket for each of twenty-four hours, with the events of that hour. -/
theorem timeline?_eq (events : List Instant) :
    timeline? events now = some ((List.range 24).map fun i : Nat =>
      ⟨.startOfHour (firstHour now + i), hourLabel (.startOfHour (firstHour now + i)),
        UInt32.ofNat (countOfHour events (firstHour now + i))⟩) := by
  rw [timeline?, if_pos h, hourCounts_eq h]
  refine congrArg some (List.ext_getElem? fun i => ?_)
  by_cases hi : i < 24
  · rw [List.getElem?_mapIdx, List.getElem?_map, List.getElem?_map, List.getElem?_range hi,
      windowStart_eq (floorHour_of_hasWindow h), Option.map_some, Option.map_some, Option.map_some,
      Instant.addSeconds_startOfHour]
  · rw [List.getElem?_eq_none (by simp; omega), List.getElem?_eq_none (by simp; omega)]

end Window

/-- Of the events nothing matters but how many there are in each hour that is shown. -/
theorem timeline?_congr {events other : List Instant} {now : Instant}
    (h : ∀ hour, firstHour now ≤ hour → countOfHour other hour = countOfHour events hour) :
    timeline? other now = timeline? events now := by
  by_cases hWindow : hasWindow now = true
  · rw [timeline?_eq hWindow, timeline?_eq hWindow]
    refine congrArg some (List.map_congr_left fun i _ => ?_)
    rw [h (firstHour now + i) (by omega)]
  · rw [timeline?, timeline?, if_neg hWindow, if_neg hWindow]

theorem timeline?_perm {events other : List Instant} (h : other.Perm events) (now : Instant) :
    timeline? other now = timeline? events now :=
  timeline?_congr fun _ _ => h.countP_eq _

/-- Events from before the window may be left out beforehand. -/
theorem timeline?_filter (events : List Instant) (now : Instant) :
    timeline? (events.filter (windowStart now).le) now = timeline? events now := by
  by_cases hWindow : hasWindow now = true
  · refine timeline?_congr fun hour hFirst => ?_
    rw [countOfHour, countOfHour, List.countP_filter]
    refine List.countP_congr fun t _ => ?_
    rw [Bool.and_eq_true, decide_eq_true_eq, windowStart_eq (floorHour_of_hasWindow hWindow),
      Instant.startOfHour_le_iff]
    exact ⟨And.left, fun hHour => ⟨hHour, hHour ▸ hFirst⟩⟩
  · rw [timeline?, timeline?, if_neg hWindow, if_neg hWindow]

/-- One more hour adds the events of that hour. -/
theorem countP_hours_succ (events : List Instant) (first : Int) (hours : Nat) :
    (events.countP fun t => first ≤ t.hour ∧ t.hour < first + (hours + 1 : Nat)) =
      (events.countP fun t => first ≤ t.hour ∧ t.hour < first + hours) +
        countOfHour events (first + hours) := by
  rw [countOfHour]
  induction events with
  | nil => rfl
  | cons event events ih =>
      simp only [List.countP_cons, ih, decide_eq_true_eq]
      split <;> split <;> split <;> omega

/-- Hours that follow each other hold the events from the first of them up to the last. -/
theorem sum_countOfHour (events : List Instant) (first : Int) (hours : Nat) :
    ((List.range hours).map fun i : Nat => countOfHour events (first + i)).sum =
      events.countP fun t => first ≤ t.hour ∧ t.hour < first + hours := by
  induction hours with
  | zero =>
      have hNone : ∀ t ∈ events, ¬decide (first ≤ t.hour ∧ t.hour < first + (0 : Nat)) = true := by
        intro t _
        rw [decide_eq_true_eq]
        omega
      rw [List.countP_eq_zero.mpr hNone]
      rfl
  | succ hours ih =>
      rw [List.range_succ, List.map_append, List.sum_append, ih, countP_hours_succ, List.map_singleton,
        List.sum_singleton]

/-- The hours of a day as they stand on an axis. -/
def hourTexts : List (List Char) :=
  ["00:00", "01:00", "02:00", "03:00", "04:00", "05:00", "06:00", "07:00", "08:00", "09:00", "10:00",
    "11:00", "12:00", "13:00", "14:00", "15:00", "16:00", "17:00", "18:00", "19:00", "20:00", "21:00",
    "22:00", "23:00"].map String.toList

theorem getElem?_hourTexts : ∀ n < 24, hourTexts[n]? = some (twoDigits n ++ ":00".toList) := by decide

theorem nodup_hourTexts : hourTexts.Nodup := by decide

/-- An hour is labelled with its place in the day. -/
theorem getElem?_hourTexts_hour (hour : Int) :
    hourTexts[(hour % 24).toNat]? = some (hourLabel (.startOfHour hour)) := by
  rw [hourLabel, Instant.secondOfDay_startOfHour]
  exact getElem?_hourTexts _ (by omega)

/-- Hours with the same label are a whole number of days apart. -/
theorem emod_eq_of_hourLabel {a b : Int}
    (h : hourLabel (.startOfHour a) = hourLabel (.startOfHour b)) : a % 24 = b % 24 := by
  have hTexts : hourTexts[(a % 24).toNat]? = hourTexts[(b % 24).toNat]? := by
    rw [getElem?_hourTexts_hour, getElem?_hourTexts_hour, h]
  have hLength : (a % 24).toNat < hourTexts.length := by
    have hAll : hourTexts.length = 24 := rfl
    omega
  have hSame := (List.getElem?_inj hLength nodup_hourTexts).mp hTexts
  omega

theorem nodup_hourLabel (first : Int) :
    ((List.range 24).map fun i : Nat => hourLabel (.startOfHour (first + i))).Nodup := by
  refine List.Nodup.map_on (fun i hi j hj hLabel => ?_) List.nodup_range
  have hDay := emod_eq_of_hourLabel hLabel
  rw [List.mem_range] at hi hj
  omega

/-- Fewer events than a counter can count are counted without wrapping around. -/
theorem toNat_ofNat_countOfHour {events : List Instant} (h : events.length < 2 ^ 32) (hour : Int) :
    (UInt32.ofNat (countOfHour events hour)).toNat = countOfHour events hour :=
  UInt32.toNat_ofNat_of_lt' (Nat.lt_of_le_of_lt List.countP_le_length h)

/-- The events in the window are those of the hours that are shown. -/
theorem countP_inWindow {now : Instant} (h : hasWindow now = true) (events : List Instant) :
    events.countP (fun t => (windowStart now).le t && t.lt (windowEnd now)) =
      events.countP fun t => firstHour now ≤ t.hour ∧ t.hour < firstHour now + (24 : Nat) := by
  refine List.countP_congr fun t _ => ?_
  have hInside : inWindow now t = true ↔ firstHour now ≤ t.hour ∧ t.hour < firstHour now + 24 :=
    inWindow_iff h
  rw [inWindow, Instant.lt, Bool.not_not] at hInside
  rw [hInside, decide_eq_true_eq]
  rfl

/-- The counts of a timeline add up to the number of events in its window. -/
theorem sum_timeline? {events : List Instant} {now : Instant} (hEvents : events.length < 2 ^ 32)
    {buckets : List Bucket} (h : timeline? events now = some buckets) :
    (buckets.map fun bucket => bucket.count.toNat).sum =
      events.countP fun t => (windowStart now).le t && t.lt (windowEnd now) := by
  have hWindow : hasWindow now = true := by
    by_contra hNone
    rw [timeline?, if_neg hNone] at h
    cases h
  obtain rfl := Option.some.inj ((timeline?_eq hWindow events).symm.trans h)
  rw [List.map_map, countP_inWindow hWindow, ← sum_countOfHour]
  exact congrArg List.sum (List.map_congr_left fun i _ => toNat_ofNat_countOfHour hEvents _)

/-- A timeline shows the twenty-four hours that end with the present one, each under its own label, and
in each the number of events whose hour it is. All events of the window are counted, each has a bucket,
and their order does not matter. -/
theorem timeline_countsHours {events : List Instant} {now : Instant} (hEvents : events.length < 2 ^ 32)
    (hWindow : hasWindow now = true) :
    ∃ buckets, timeline? events now = some buckets ∧
      buckets.map Bucket.hour =
        (List.range 24).map (fun i : Nat => now.floorHour.addSeconds (3600 * ((i : Int) - 23))) ∧
      (∀ bucket ∈ buckets, hourTexts[(bucket.hour.hour % 24).toNat]? = some bucket.label) ∧
      (buckets.map Bucket.label).Nodup ∧
      (∀ bucket ∈ buckets,
        bucket.count.toNat = events.countP fun t => t.floorHour = bucket.hour) ∧
      (buckets.map fun bucket => bucket.count.toNat).sum =
        events.countP (fun t => (windowStart now).le t && t.lt (windowEnd now)) ∧
      (∀ event, inWindow now event = true →
        (bucketIndex now event : Int) = event.floorHour.hour - (windowStart now).hour ∧
          bucketIndex now event < 24) ∧
      (∀ other, other.Perm events → timeline? other now = some buckets) := by
  have hStart := floorHour_of_hasWindow hWindow
  refine ⟨_, timeline?_eq hWindow events, ?_, ?_, ?_, ?_, ?_, ?_, ?_⟩
  · rw [List.map_map]
    refine List.map_congr_left fun i _ => ?_
    rw [hStart, Instant.addSeconds_startOfHour, Function.comp_apply, firstHour]
    exact congrArg Instant.startOfHour (by omega)
  · rw [List.forall_mem_map]
    intro i _
    rw [Instant.hour_startOfHour, getElem?_hourTexts_hour]
  · rw [List.map_map]
    exact nodup_hourLabel (firstHour now)
  · rw [List.forall_mem_map]
    intro i hMem
    rw [toNat_ofNat_countOfHour hEvents, countOfHour]
    simp only [Instant.floorHour_eq_iff (isRepresentable_shownHour hWindow (List.mem_range.mp hMem))]
  · exact sum_timeline? hEvents (timeline?_eq hWindow events)
  · intro event hInside
    rw [windowStart_eq hStart, Instant.hour_floorHour, Instant.hour_startOfHour]
    exact bucketIndex_of_inWindow hWindow hInside
  · intro other hPerm
    rw [timeline?_eq hWindow other]
    simp only [countOfHour, hPerm.countP_eq]

/-- An hour before 1970 with a leap second at its end, and events on both edges of the window. -/
theorem timeline_countsHours_leapSecond :
    let now : Instant := ⟨-1, 7⟩
    let leap : Instant := ⟨-1, 1999999999⟩
    let events : List Instant := [⟨0, 0⟩, leap, ⟨-86400, 0⟩, ⟨-3600, 0⟩, ⟨-86401, 999999999⟩, ⟨-3601, 0⟩]
    events.length < 2 ^ 32 ∧ hasWindow now = true ∧
    ∃ buckets, timeline? events now = some buckets ∧
      (∀ bucket ∈ buckets,
        bucket.count.toNat = events.countP fun t => t.floorHour = bucket.hour) ∧
      (buckets.map fun bucket => bucket.count.toNat).sum = 4 ∧
      bucketIndex now leap = 23 ∧
      timeline? events.reverse now = some buckets := by
  intro now leap events
  have hEvents : events.length < 2 ^ 32 := by decide
  have hWindow : hasWindow now = true := by decide
  obtain ⟨buckets, hTimeline, _, _, _, hCounts, hSum, hIndex, hOrder⟩ :=
    timeline_countsHours hEvents hWindow
  exact ⟨hEvents, hWindow, buckets, hTimeline, hCounts, hSum, by decide, hOrder _ events.reverse_perm⟩

end BanBoard.Overview
