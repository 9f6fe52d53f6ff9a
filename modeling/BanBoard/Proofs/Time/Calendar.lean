import BanBoard.Time.Calendar

/-!
Every numbered day has exactly one date. The year of a day is found by a proportional guess, so the
bounds on that guess come first and the month follows by going through the lengths of the months.
-/

namespace BanBoard.Time

/-- The proportional guess misses by at most one year, and the correction after it leaves the year
that really holds the day. -/
theorem daysBeforeYear_yearOfDay (day : Int) :
    daysBeforeYear (yearOfDay day) ≤ day ∧ day < daysBeforeYear (yearOfDay day + 1) := by
  unfold yearOfDay
  simp only
  split
  · rename_i hBefore
    simp only [daysBeforeYear] at hBefore ⊢
    omega
  · rename_i hNotBefore
    split
    · rename_i hAfter
      simp only [daysBeforeYear] at hNotBefore hAfter ⊢
      omega
    · rename_i hNotAfter
      exact ⟨by omega, by omega⟩

theorem daysBeforeYear_succ (year : Int) :
    daysBeforeYear (year + 1) =
      daysBeforeYear year + ((monthLengths (isLeapYear year)).sum : Nat) := by
  cases hLeap : isLeapYear year with
  | false =>
      have hSum : (monthLengths false).sum = 365 := rfl
      simp [isLeapYear] at hLeap
      rw [hSum]
      simp only [daysBeforeYear]
      omega
  | true =>
      have hSum : (monthLengths true).sum = 366 := rfl
      simp [isLeapYear] at hLeap
      rw [hSum]
      simp only [daysBeforeYear]
      omega

theorem daysBeforeYear_mono {a b : Int} (h : a ≤ b) : daysBeforeYear a ≤ daysBeforeYear b := by
  simp only [daysBeforeYear]
  omega

/-- Going through the lengths of the months finds the one in which a day of the year falls. -/
theorem monthOfDay_spec (lengths : List Nat) (month day : Nat) (h : day < lengths.sum) :
    ∃ k length, lengths[k]? = some length ∧ ∃ d < length,
      monthOfDay lengths month day = (month + k, d + 1) ∧ day = (lengths.take k).sum + d := by
  induction lengths generalizing month day with
  | nil => simp at h
  | cons length lengths ih =>
      rw [monthOfDay]
      split
      · rename_i hDay
        exact ⟨0, length, rfl, day, hDay, rfl, by simp⟩
      · rename_i hDay
        have hRest : day - length < lengths.sum := by
          simp only [List.sum_cons] at h
          omega
        obtain ⟨k, found, hFound, d, hd, hMonth, hSum⟩ := ih (month + 1) (day - length) hRest
        refine ⟨k + 1, found, by simpa using hFound, d, hd, ?_, ?_⟩
        · rw [hMonth, Nat.add_assoc, Nat.add_comm 1 k]
        · simp only [List.take_succ_cons, List.sum_cons]
          omega

theorem length_monthLengths (leap : Bool) : (monthLengths leap).length = 12 := rfl

theorem le_of_mem_monthLengths : ∀ leap, ∀ length ∈ monthLengths leap, length ≤ 31 := by decide

theorem Date.month_day_le_of_isValid {d : Date} (h : d.isValid = true) :
    d.month ≤ 12 ∧ d.day ≤ 31 := by
  unfold Date.isValid at h
  split at h
  · simp at h
  · rename_i m hMonth
    split at h
    · simp at h
    · rename_i length hLength
      have hIndex := (List.getElem?_eq_some_iff.mp hLength).1
      have hDays := le_of_mem_monthLengths _ _ (List.mem_of_getElem? hLength)
      have hDay : 1 ≤ d.day ∧ d.day ≤ length := by simpa using h
      rw [length_monthLengths] at hIndex
      omega

/-- A date is valid just when its month exists and has that day. -/
theorem Date.isValid_iff {d : Date} : d.isValid = true ↔
    ∃ length, (monthLengths (isLeapYear d.year))[d.month - 1]? = some length ∧
      1 ≤ d.month ∧ 1 ≤ d.day ∧ d.day ≤ length := by
  unfold Date.isValid
  cases d.month with
  | zero => simp
  | succ m => cases h : (monthLengths (isLeapYear d.year))[m]? <;> simp [h]

/-- A date lies within its year. -/
theorem Date.toDays_bounds {d : Date} (h : d.isValid = true) :
    daysBeforeYear d.year - epochDays ≤ d.toDays ∧
      d.toDays < daysBeforeYear (d.year + 1) - epochDays := by
  obtain ⟨length, hLength, -, hDay, hLast⟩ := Date.isValid_iff.mp h
  obtain ⟨hMonth, rfl⟩ := List.getElem?_eq_some_iff.mp hLength
  have hSplit := congrArg List.sum
    (List.take_append_drop (d.month - 1) (monthLengths (isLeapYear d.year)))
  rw [List.sum_append, List.drop_eq_getElem_cons hMonth, List.sum_cons] at hSplit
  rw [daysBeforeYear_succ]
  unfold Date.toDays
  omega

/-- A date of the years from zero to 9999 is far from both ends of the calendar. -/
theorem Date.toDays_bounds_of_fourDigits {d : Date} (hValid : d.isValid = true) (hFrom : 0 ≤ d.year)
    (hTo : d.year < 10000) :
    daysBeforeYear 0 - epochDays ≤ d.toDays ∧ d.toDays < daysBeforeYear 10000 - epochDays := by
  obtain ⟨hLower, hUpper⟩ := Date.toDays_bounds hValid
  have hFirst := daysBeforeYear_mono hFrom
  have hLast := daysBeforeYear_mono (by omega : d.year + 1 ≤ 10000)
  omega

/-- The date of a numbered day exists in the calendar, names that day and lies in its year. -/
theorem Date.ofDays_spec (days : Int) :
    (Date.ofDays days).isValid = true ∧ (Date.ofDays days).toDays = days ∧
      (Date.ofDays days).year = yearOfDay (days + epochDays) := by
  obtain ⟨hFrom, hTo⟩ := daysBeforeYear_yearOfDay (days + epochDays)
  rw [daysBeforeYear_succ] at hTo
  have hDay : (days + epochDays - daysBeforeYear (yearOfDay (days + epochDays))).toNat <
      (monthLengths (isLeapYear (yearOfDay (days + epochDays)))).sum := by omega
  obtain ⟨k, length, hLength, d, hd, hMonth, hSum⟩ := monthOfDay_spec _ 1 _ hDay
  have hDate : Date.ofDays days = ⟨yearOfDay (days + epochDays), k + 1, d + 1⟩ := by
    simp only [Date.ofDays, hMonth, Nat.add_comm 1 k]
  rw [hDate]
  refine ⟨?_, ?_, rfl⟩
  · simp only [Date.isValid, hLength]
    simpa using Nat.succ_le_of_lt hd
  · simp only [Date.toDays, Nat.add_sub_cancel]
    omega

end BanBoard.Time
