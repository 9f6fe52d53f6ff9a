import BanBoard.Demo.Data
import BanBoard.Proofs.Time.Hour

/-!
The start of an hour and the seed of an hour. The calendar begins with a whole hour, so it holds the start
of every hour in which it holds an instant, and it is far too short for two of its hours to have one seed.
-/

namespace BanBoard.Time.Instant

/-- Whether an instant begins a whole hour that another one lies in. -/
structure IsHourStart (t start : Instant) : Prop where
  whole : 3600 ∣ start.seconds
  nanos : start.nanos = 0
  le : start.le t = true
  lt : t.seconds < start.seconds + 3600

variable {t u : Instant}

/-- The start of the hour of an instant can be represented when the instant can. -/
theorem isRepresentable_startOfHour (h : t.isRepresentable = true) :
    (startOfHour t.hour).isRepresentable = true := by
  obtain ⟨hFirst, hLast, -⟩ := (isRepresentable_iff t).mp h
  have hWhole := dvd_firstSecond
  rw [isRepresentable_iff]
  simp only [startOfHour, Instant.hour]
  exact ⟨by omega, by omega, by decide⟩

section Representable

variable (ht : t.isRepresentable = true)
include ht

theorem floorHour_of_isRepresentable : t.floorHour = startOfHour t.hour :=
  floorHour_eq (isRepresentable_startOfHour ht)

/-- The start of the hour is found, so no instant stands for its own start. -/
theorem ofSeconds?_floorHour : ofSeconds? (t.seconds / 3600 * 3600) = some t.floorHour := by
  rw [floorHour_of_isRepresentable ht]
  exact if_pos (isRepresentable_startOfHour ht)

/-- A later instant has no earlier start of its hour. -/
theorem floorHour_le_floorHour (h : t.le u = true) : t.floorHour.le u.floorHour = true := by
  rw [floorHour_of_isRepresentable ht, startOfHour_le_iff, hour_floorHour]
  exact hour_le_hour h

/-- The rule for the start of an hour has one solution, and the floor is it. -/
theorem isHourStart_iff {start : Instant} : IsHourStart t start ↔ start = t.floorHour := by
  rw [floorHour_of_isRepresentable ht]
  constructor
  · rintro ⟨⟨hour, hWhole⟩, hNanos, hLe, hLt⟩
    have hStart : start = startOfHour hour := by
      cases start
      simp_all [startOfHour, Int.mul_comm]
    subst hStart
    rw [startOfHour_le_iff] at hLe
    simp only [startOfHour] at hLt
    refine startOfHour_inj.mpr ?_
    unfold Instant.hour at hLe ⊢
    omega
  · rintro rfl
    have hLt : t.seconds < t.hour * 3600 + 3600 := by
      unfold Instant.hour
      omega
    exact ⟨Int.dvd_mul_left _ _, rfl, startOfHour_le_iff.mpr (Int.le_refl _), hLt⟩

/-- The calendar has far fewer hours than a word has values. -/
theorem hour_bounds : -2 ^ 63 ≤ t.hour ∧ t.hour < 2 ^ 63 := by
  obtain ⟨hFirst, hLast, -⟩ := (isRepresentable_iff t).mp ht
  have hLeast : -2 ^ 63 * 3600 ≤ firstSecond := by decide
  have hMost : lastSecond < 2 ^ 63 * 3600 := by decide
  unfold Instant.hour
  omega

end Representable

end BanBoard.Time.Instant

namespace BanBoard.Demo

open BanBoard.Time

/-- A seed is the number of the hour as a word, also before the epoch. -/
theorem toNat_hourSeed (t : Instant) : ((hourSeed t).toNat : Int) = t.hour % 2 ^ 64 := by
  have hWord : (t.hour % 2 ^ 64).toNat < 2 ^ 64 := by omega
  rw [hourSeed, UInt64.toNat_ofNat_of_lt' hWord]
  omega

variable {t u : Instant}

/-- Different hours have different seeds. -/
theorem hourSeed_eq_iff (ht : t.isRepresentable = true) (hu : u.isRepresentable = true) :
    hourSeed t = hourSeed u ↔ t.hour = u.hour := by
  refine ⟨fun hSeed => ?_, fun hHour => ?_⟩
  · have hWord : t.hour % 2 ^ 64 = u.hour % 2 ^ 64 := by
      rw [← toNat_hourSeed, ← toNat_hourSeed, hSeed]
    have hFirst := Instant.hour_bounds ht
    have hSecond := Instant.hour_bounds hu
    omega
  · rw [hourSeed, hourSeed, hHour]

/-- Every instant of the calendar has exactly one start of its hour, which the calendar holds and which is
found by dividing. Taking the start again changes nothing, later instants have no earlier start, and two
instants have the same start exactly if they have the same seed. -/
theorem floorHour_isExact (ht : t.isRepresentable = true) :
    Instant.ofSeconds? (t.seconds / 3600 * 3600) = some t.floorHour ∧
    (∀ start, Instant.IsHourStart t start ↔ start = t.floorHour) ∧
    t.floorHour.floorHour = t.floorHour ∧
    ∀ u, u.isRepresentable = true →
      (t.le u = true → t.floorHour.le u.floorHour = true) ∧
      (t.floorHour = u.floorHour ↔ hourSeed t = hourSeed u) := by
  have hStart := Instant.floorHour_of_isRepresentable ht
  refine ⟨Instant.ofSeconds?_floorHour ht, fun start => Instant.isHourStart_iff ht, ?_, fun u hu =>
    ⟨Instant.floorHour_le_floorHour ht, ?_⟩⟩
  · rw [hStart, Instant.floorHour_eq_iff (Instant.isRepresentable_startOfHour ht),
      Instant.hour_startOfHour]
  · rw [hourSeed_eq_iff ht hu, hStart, Instant.floorHour_of_isRepresentable hu]
    exact Instant.startOfHour_inj

/-- The first instant of the calendar, a leap second right before 1970 and the last instant of all, which
is one too. -/
theorem floorHour_isExact_leapSeconds :
    let first : Instant := ⟨Instant.firstSecond, 0⟩
    let leap : Instant := ⟨-1, 1000000007⟩
    let last : Instant := ⟨Instant.lastSecond, 1999999999⟩
    first.isRepresentable = true ∧ leap.isRepresentable = true ∧ last.isRepresentable = true ∧
    Instant.ofSeconds? (Instant.firstSecond / 3600 * 3600) = some first ∧
    Instant.IsHourStart leap ⟨-3600, 0⟩ ∧
    Instant.IsHourStart last ⟨Instant.lastSecond - 3599, 0⟩ ∧
    first.floorHour.le leap.floorHour = true ∧ leap.floorHour.le last.floorHour = true ∧
    hourSeed leap = 0xffffffffffffffff ∧ hourSeed leap ≠ hourSeed last ∧
    (hourSeed leap = hourSeed ⟨-3600, 5⟩ ∧ leap.floorHour = (⟨-3600, 5⟩ : Instant).floorHour) := by
  intro first leap last
  have hFirst : first.isRepresentable = true := by decide
  have hLeap : leap.isRepresentable = true := by decide
  have hLast : last.isRepresentable = true := by decide
  have hBegins : first.floorHour = first := by decide
  have hStart : leap.floorHour = ⟨-3600, 0⟩ := by decide
  have hLastStart : last.floorHour = ⟨Instant.lastSecond - 3599, 0⟩ := by decide
  obtain ⟨hHeld, -, -, hOfFirst⟩ := floorHour_isExact hFirst
  obtain ⟨-, hStarts, -, hOfLeap⟩ := floorHour_isExact hLeap
  obtain ⟨-, hLastStarts, -, -⟩ := floorHour_isExact hLast
  have hSame : hourSeed leap = hourSeed ⟨-3600, 5⟩ := by decide
  refine ⟨hFirst, hLeap, hLast, hBegins ▸ hHeld, (hStarts _).mpr hStart.symm,
    (hLastStarts _).mpr hLastStart.symm, (hOfFirst leap hLeap).1 (by decide),
    (hOfLeap last hLast).1 (by decide), by decide, fun hSeed => ?_, hSame,
    (hOfLeap _ (by decide)).2.mpr hSame⟩
  have hEqual := (hOfLeap last hLast).2.mpr hSeed
  rw [hStart, hLastStart] at hEqual
  exact absurd hEqual (by decide)

end BanBoard.Demo
