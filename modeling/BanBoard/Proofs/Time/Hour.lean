import BanBoard.Proofs.Time.Order

/-!
Hours as numbers. An instant compares with the start of an hour as its own hour compares with that one,
whatever fraction of a second or leap second it carries and on either side of 1970.
-/

namespace BanBoard.Time.Instant

def startOfHour (hour : Int) : Instant := ⟨hour * 3600, 0⟩

theorem hour_startOfHour (hour : Int) : (startOfHour hour).hour = hour :=
  Int.mul_ediv_cancel hour (by decide)

/-- Different hours start at different instants. -/
theorem startOfHour_inj {a b : Int} : startOfHour a = startOfHour b ↔ a = b := by
  refine ⟨fun h => ?_, congrArg startOfHour⟩
  rw [← hour_startOfHour a, h, hour_startOfHour]

/-- The calendar begins with a whole hour. -/
theorem dvd_firstSecond : 3600 ∣ firstSecond := by decide

/-- The start of an hour is found by dividing, as long as the calendar holds it. -/
theorem floorHour_eq {t : Instant} (h : (startOfHour t.hour).isRepresentable = true) :
    t.floorHour = startOfHour t.hour := by
  have hOf : ofSeconds? (t.seconds / 3600 * 3600) = some (startOfHour t.hour) := if_pos h
  rw [floorHour, hOf, Option.getD_some]

/-- When the start of the hour cannot be represented, the floor is the instant itself. -/
theorem floorHour_eq_self {t : Instant} (h : ¬(startOfHour t.hour).isRepresentable = true) :
    t.floorHour = t := by
  have hOf : ofSeconds? (t.seconds / 3600 * 3600) = none := if_neg h
  rw [floorHour, hOf, Option.getD_none]

/-- Even the instant that stands for a start which the calendar does not hold is in the hour. -/
theorem hour_floorHour (t : Instant) : t.floorHour.hour = t.hour := by
  by_cases h : (startOfHour t.hour).isRepresentable = true
  · rw [floorHour_eq h, hour_startOfHour]
  · rw [floorHour_eq_self h]

/-- The instants of an hour are those whose hour begins with it, if the calendar holds the start. -/
theorem floorHour_eq_iff {t : Instant} {hour : Int} (h : (startOfHour hour).isRepresentable = true) :
    t.floorHour = startOfHour hour ↔ t.hour = hour := by
  constructor
  · intro hStart
    rw [← hour_floorHour, hStart, hour_startOfHour]
  · rintro rfl
    exact floorHour_eq h

/-- Whole hours lead from one start to another. -/
theorem addSeconds_startOfHour (hour count : Int) :
    (startOfHour hour).addSeconds (3600 * count) = startOfHour (hour + count) := by
  have hPlain : (startOfHour hour).nanos < nanosPerSecond := by simp [startOfHour, nanosPerSecond]
  rw [addSeconds, if_pos (by rw [decide_eq_true hPlain, Bool.true_or])]
  simp only [startOfHour, mk.injEq, and_true]
  omega

/-- An hour has started just when the present one is not before it. -/
theorem startOfHour_le_iff {hour : Int} {t : Instant} : (startOfHour hour).le t = true ↔ hour ≤ t.hour := by
  rw [le_iff]
  simp only [startOfHour, Instant.hour]
  omega

/-- An hour has not started just when the present one is before it. -/
theorem lt_startOfHour_iff {hour : Int} {t : Instant} : t.lt (startOfHour hour) = true ↔ t.hour < hour := by
  rw [lt, Bool.not_eq_true', ← Bool.not_eq_true, startOfHour_le_iff, Int.not_le]

/-- Later instants are in later hours, or the same. -/
theorem hour_le_hour {a b : Instant} (h : a.le b = true) : a.hour ≤ b.hour := by
  rw [le_iff] at h
  unfold Instant.hour
  omega

theorem hour_earliest (a b : Instant) : (a.earliest b).hour = min a.hour b.hour := by
  unfold earliest
  split
  · rename_i hLe
    exact (Int.min_eq_left (hour_le_hour hLe)).symm
  · rename_i hNot
    exact (Int.min_eq_right (hour_le_hour ((le_total a b).resolve_left hNot))).symm

/-- The hour of the day on which an hour begins. -/
theorem secondOfDay_startOfHour (hour : Int) :
    (startOfHour hour).secondOfDay / 3600 = (hour % 24).toNat := by
  simp only [secondOfDay, startOfHour]
  omega

end BanBoard.Time.Instant
