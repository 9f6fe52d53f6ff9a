import BanBoard.Proofs.Time.Rfc3339
import BanBoard.Time.Zone

/-!
Clocks in a zone. Most readings are shown once, those in a gap never and those in a fold twice. The
instant that is taken for a reading is the first one at which a clock of the zone shows it.
-/

namespace BanBoard.Time

/-- A reading of whole seconds in a year of four digits. A leap second ends a minute. -/
structure Instant.IsStamp (reading : Instant) : Prop where
  year_nonneg : 0 ≤ reading.date.year
  year_le : reading.date.year ≤ 9999
  whole : reading.nanos = 0 ∨ reading.nanos = nanosPerSecond ∧ reading.seconds % 60 = 59

/-- All clocks show such readings within the calendar. -/
theorem Instant.IsStamp.isRepresentable_shift {reading : Instant} (h : reading.IsStamp) {amount : Int}
    (hBack : -86400 < amount) (hOn : amount < 86400) :
    (reading.shift amount).isRepresentable = true := by
  obtain ⟨hValid, hDays, -⟩ := Date.ofDays_spec (reading.seconds / 86400)
  obtain ⟨hFirst, hLast⟩ := Date.toDays_bounds_of_fourDigits (d := reading.date) hValid h.year_nonneg
    (Int.lt_add_one_of_le h.year_le)
  rw [Instant.isRepresentable_iff, Instant.firstSecond_eq, Instant.lastSecond_eq]
  have hSame : reading.date.toDays = reading.seconds / 86400 := hDays
  have hWhole := h.whole
  simp only [daysBeforeYear, epochDays, nanosPerSecond, Instant.shift] at hFirst hLast hWhole ⊢
  omega

namespace Zone

/-- A zone of clocks that are put back for a fold and never differ by a day from universal time. -/
structure IsProper (zone : Zone) : Prop where
  offset : -86400 < zone.offset ∧ zone.offset < 86400
  fold : ∀ fold ∈ zone.folds, -86400 < fold.second ∧ fold.second ≤ fold.first ∧ fold.first < 86400

/-- The reading lies in a gap, where no clock of the zone shows it. -/
def Skips (zone : Zone) (reading : Instant) : Prop :=
  ∃ gap ∈ zone.gaps, reading.isWithin gap.start gap.stop = true

/-- The reading lies in a fold and in none that is listed before it. -/
def Repeats (zone : Zone) (reading : Instant) (fold : Fold) : Prop :=
  reading.isWithin fold.start fold.stop = true ∧ ∃ before after, zone.folds = before ++ fold :: after ∧
    ∀ other ∈ before, reading.isWithin other.start other.stop = false

/-- The instants at which a clock of the zone shows a reading. -/
inductive Shows (zone : Zone) (reading : Instant) : Instant → Prop where
  | once (hGap : ¬zone.Skips reading)
      (hFold : ∀ fold ∈ zone.folds, reading.isWithin fold.start fold.stop = false) :
      Shows zone reading (reading.shift (-zone.offset))
  | first {fold : Fold} (hGap : ¬zone.Skips reading) (hFold : zone.Repeats reading fold) :
      Shows zone reading (reading.shift (-fold.first))
  | second {fold : Fold} (hGap : ¬zone.Skips reading) (hFold : zone.Repeats reading fold) :
      Shows zone reading (reading.shift (-fold.second))

/-- A clock of the zone shows the reading at this instant, and never did before. -/
def ShowsFirst (zone : Zone) (reading t : Instant) : Prop :=
  zone.Shows reading t ∧ ∀ u, zone.Shows reading u → t.le u = true

variable {zone : Zone} {reading t u : Instant}

theorem Shows.not_skips (h : zone.Shows reading t) : ¬zone.Skips reading := by
  cases h with
  | once hGap => exact hGap
  | first hGap => exact hGap
  | second hGap => exact hGap

/-- There is one instant at which a reading is shown first. -/
theorem ShowsFirst.unique (ht : zone.ShowsFirst reading t) (hu : zone.ShowsFirst reading u) : t = u :=
  Instant.le_antisymm (ht.2 u hu.1) (hu.2 t ht.1)

/-- The first fold around a reading is the one that repeats it. -/
theorem find?_eq_some_iff_repeats {fold : Fold} :
    (zone.folds.find? fun fold => reading.isWithin fold.start fold.stop) = some fold ↔
      zone.Repeats reading fold := by
  rw [List.find?_eq_some_iff_append, Repeats]
  simp only [Bool.not_eq_true']

theorem any_gaps_iff :
    (zone.gaps.any fun gap => reading.isWithin gap.start gap.stop) = true ↔ zone.Skips reading :=
  List.any_eq_true

theorem offsetAt?_of_skips (h : zone.Skips reading) : zone.offsetAt? reading = none := by
  rw [offsetAt?, if_pos (any_gaps_iff.mpr h)]

/-- A reading that is shown once has the offset of the zone. -/
theorem offsetAt?_of_once (hGap : ¬zone.Skips reading)
    (hFold : ∀ fold ∈ zone.folds, reading.isWithin fold.start fold.stop = false) :
    zone.offsetAt? reading = some zone.offset := by
  have hNone : (zone.folds.find? fun fold => reading.isWithin fold.start fold.stop) = none :=
    List.find?_eq_none.mpr fun fold hMem => Bool.eq_false_iff.mp (hFold fold hMem)
  rw [offsetAt?, if_neg (hGap ∘ any_gaps_iff.mp), hNone]

/-- A reading that is shown twice has the offset of its first time. -/
theorem offsetAt?_of_repeats {fold : Fold} (hGap : ¬zone.Skips reading)
    (hFold : zone.Repeats reading fold) : zone.offsetAt? reading = some fold.first := by
  rw [offsetAt?, if_neg (hGap ∘ any_gaps_iff.mp), find?_eq_some_iff_repeats.mpr hFold]

/-- A clock further east shows the later reading. -/
theorem shift_le {a b : Int} (h : a ≤ b) : (reading.shift a).le (reading.shift b) = true := by
  rw [Instant.le_iff]
  simp only [Instant.shift]
  omega

/-- Of the two offsets in a fold the first is the greater one, which gives the earlier instant. -/
theorem le_of_shows (hZone : zone.IsProper) {offset : Int}
    (hOffset : zone.offsetAt? reading = some offset) (h : zone.Shows reading u) :
    (reading.shift (-offset)).le u = true := by
  cases h with
  | once hGap hFold =>
      obtain rfl := Option.some.inj (hOffset.symm.trans (offsetAt?_of_once hGap hFold))
      exact Instant.le_refl _
  | first hGap hFold =>
      obtain rfl := Option.some.inj (hOffset.symm.trans (offsetAt?_of_repeats hGap hFold))
      exact Instant.le_refl _
  | second hGap hFold =>
      obtain rfl := Option.some.inj (hOffset.symm.trans (offsetAt?_of_repeats hGap hFold))
      obtain ⟨-, before, after, hFolds, -⟩ := hFold
      obtain ⟨-, hBack, -⟩ := hZone.fold _ (hFolds ▸ List.mem_append_right _ List.mem_cons_self)
      exact shift_le (by omega)

/-- A reading outside the gaps has an offset, with which it is shown, and which is that of a clock. -/
theorem exists_offsetAt? (hZone : zone.IsProper) (hGap : ¬zone.Skips reading) :
    ∃ offset, zone.offsetAt? reading = some offset ∧ zone.Shows reading (reading.shift (-offset)) ∧
      -86400 < offset ∧ offset < 86400 := by
  cases hFind : zone.folds.find? fun fold => reading.isWithin fold.start fold.stop with
  | none =>
      have hFold : ∀ fold ∈ zone.folds, reading.isWithin fold.start fold.stop = false := by
        simpa using List.find?_eq_none.mp hFind
      exact ⟨zone.offset, offsetAt?_of_once hGap hFold, .once hGap hFold, hZone.offset⟩
  | some fold =>
      have hFold := find?_eq_some_iff_repeats.mp hFind
      obtain ⟨hWest, hBack, hEast⟩ := hZone.fold fold (List.mem_of_find?_eq_some hFind)
      exact ⟨fold.first, offsetAt?_of_repeats hGap hFold, .first hGap hFold, by omega, hEast⟩

/-- A reading is passed over in a gap, and is otherwise taken for the first instant at which it is
shown. -/
theorem earliest?_spec (hZone : zone.IsProper) (hReading : reading.IsStamp) :
    (zone.Skips reading ∧ zone.earliest? reading = none) ∨
      ∃ t, zone.ShowsFirst reading t ∧ zone.earliest? reading = some t := by
  by_cases hGap : zone.Skips reading
  · refine .inl ⟨hGap, ?_⟩
    rw [earliest?, offsetAt?_of_skips hGap]
  · obtain ⟨offset, hOffset, hShows, hWest, hEast⟩ := exists_offsetAt? hZone hGap
    refine .inr ⟨_, ⟨hShows, fun u => le_of_shows hZone hOffset⟩, ?_⟩
    simp only [earliest?, hOffset]
    rw [if_pos (hReading.isRepresentable_shift (by omega) (by omega))]

end Zone

end BanBoard.Time
