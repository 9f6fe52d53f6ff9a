import BanBoard.Proofs.Text.Decimal
import BanBoard.Proofs.Time.Calendar
import BanBoard.Proofs.Time.Order
import BanBoard.Time.Lenient

/-!
A written time is read back as the same instant. The writer has one spelling for every instant and the
lenient reader has many, so each field is followed from its digits to the number that is read.
-/

namespace BanBoard.Time

open BanBoard.Text

/-- An instant that the calendar holds. A leap second follows the last second of a minute, whatever
minute that is. -/
structure Instant.WellFormed (t : Instant) : Prop where
  representable : t.isRepresentable = true
  leap : nanosPerSecond ≤ t.nanos → t.seconds % 60 = 59

instance (t : Instant) : Decidable t.WellFormed :=
  decidable_of_iff (t.isRepresentable = true ∧ (nanosPerSecond ≤ t.nanos → t.seconds % 60 = 59))
    ⟨fun h => ⟨h.1, h.2⟩, fun h => ⟨h.1, h.2⟩⟩

theorem trimStart_decimalPadded (width n : Nat) (rest : List Char) :
    trimStart (decimalPadded width n ++ rest) = decimalPadded width n ++ rest := by
  obtain ⟨c, tail, hDigits, hc⟩ := decimalPadded_eq_cons width n
  simp [trimStart, hDigits, isBlank_of_isDigit hc]

/-- A padded numeral is read with just its own digits. -/
theorem numberUpTo_decimalPadded {limit n : Nat} (hLimit : 0 < limit) (h : n < 10 ^ limit)
    (rest : List Char) : numberUpTo limit (decimalPadded limit n ++ rest) = some (n, rest) := by
  have hLength := length_decimalPadded hLimit h
  rw [numberUpTo, trimStart_decimalPadded,
    takeDigits_append (fun _ => isDigit_of_mem_decimalPadded) (Nat.le_of_eq hLength) (Or.inl hLength)]
  cases hDigits : decimalPadded limit n with
  | nil => exact (decimalPadded_ne_nil limit n hDigits).elim
  | cons c tail =>
      simp only
      rw [← hDigits, digitsValue_decimalPadded]

@[simp] theorem numberUpTo_twoDigits {n : Nat} (h : n < 100) (rest : List Char) :
    numberUpTo 2 (twoDigits n ++ rest) = some (n, rest) :=
  numberUpTo_decimalPadded (by decide) h rest

/-- All digits of a signed year are read, since a sign lifts the limit of four digits. -/
theorem readSigned_decimalPadded (sign : Int) (n : Nat) {rest : List Char}
    (hRest : StopsBefore isDigit rest) :
    (match takeDigits (decimalPadded 4 n ++ rest).length (decimalPadded 4 n ++ rest) with
      | ([], _) => none
      | (digits, rest) => some (sign * digitsValue digits, rest)) = some (sign * (n : Int), rest) := by
  rw [takeDigits_append (fun _ => isDigit_of_mem_decimalPadded) (by simp) (Or.inr hRest)]
  have hValue := digitsValue_decimalPadded 4 n
  cases hDigits : decimalPadded 4 n with
  | nil => exact (decimalPadded_ne_nil 4 n hDigits).elim
  | cons c tail =>
      rw [hDigits] at hValue
      simp only [hValue]

/-- A written year is read back, with a sign or without one. -/
theorem signedYear_writeYear (year : Int) {rest : List Char} (hRest : StopsBefore isDigit rest) :
    signedYear (writeYear year ++ rest) = some (year, rest) := by
  unfold writeYear
  split
  · rename_i hPlain
    have hYear : 0 ≤ year ∧ year ≤ 9999 := by simpa using hPlain
    obtain ⟨c, tail, hDigits, hc⟩ := decimalPadded_eq_cons 4 year.toNat
    have hNumber := numberUpTo_decimalPadded (by decide : 0 < 4)
      (by omega : year.toNat < 10 ^ 4) rest
    have hMinus : c ≠ '-' := by rintro rfl; simp [isDigit] at hc
    have hPlus : c ≠ '+' := by rintro rfl; simp [isDigit] at hc
    rw [signedYear, trimStart_decimalPadded]
    simp only [hDigits, List.cons_append] at hNumber ⊢
    simp [hMinus, hPlus, hNumber]
    omega
  · split
    · have hSign : ((-1 : Int) * ((-year).toNat : Nat)) = year := by omega
      rw [signedYear, trimStart, List.cons_append, List.dropWhile_cons_of_neg (by decide)]
      exact (readSigned_decimalPadded (-1) _ hRest).trans (by rw [hSign])
    · have hSign : ((1 : Int) * (year.toNat : Nat)) = year := by omega
      rw [signedYear, trimStart, List.cons_append, List.dropWhile_cons_of_neg (by decide)]
      exact (readSigned_decimalPadded 1 _ hRest).trans (by rw [hSign])

/-- A written date is read back under any reading of gaps that leaves the hyphens in place. -/
theorem lenientDate_writeDate {gap : List Char → List Char}
    (hGap : ∀ s, gap ('-' :: s) = '-' :: s) {date : Date} (hValid : date.isValid = true)
    (hYear : isCalendarYear date.year = true) (rest : List Char) :
    lenientDate gap (writeDate date ++ rest) = some (date, rest) := by
  obtain ⟨hMonth, hDay⟩ := Date.month_day_le_of_isValid hValid
  have hMonth : date.month < 100 := by omega
  have hDay : date.day < 100 := by omega
  simp [lenientDate, writeDate, signedYear_writeYear, hGap, exactly, hMonth, hDay, hValid, hYear,
    isDigit]

theorem Instant.secondOfDay_lt (t : Instant) : t.secondOfDay < 86400 := by
  unfold Instant.secondOfDay
  omega

/-- The fields of a written time of day make the second of the day and its leap second again. -/
theorem lenientClock_writeClock {gap : List Char → List Char}
    (hGap : ∀ s, gap (':' :: s) = ':' :: s) {t : Instant} (h : t.WellFormed) (rest : List Char) :
    lenientClock gap (writeClock t ++ rest) =
      some ((t.secondOfDay, if t.nanos < nanosPerSecond then 0 else nanosPerSecond), rest) := by
  have hDay := t.secondOfDay_lt
  have hHour : t.secondOfDay / 3600 < 100 := by omega
  have hMinute : t.secondOfDay / 60 % 60 < 100 := by omega
  by_cases hNanos : t.nanos < nanosPerSecond
  · have hSecond : t.secondOfDay % 60 < 100 := by omega
    have hClock : secondOfDay? (t.secondOfDay / 3600) (t.secondOfDay / 60 % 60)
        (t.secondOfDay % 60) = some (t.secondOfDay, 0) := by
      rw [secondOfDay?, if_neg (by simp; omega), if_neg (by omega)]
      simp only [Option.some.injEq, Prod.mk.injEq, and_true]
      omega
    simp [lenientClock, writeClock, hGap, exactly, hHour, hMinute, hSecond, hNanos, hClock]
  · have hLeap : t.secondOfDay % 60 = 59 := by
      have hLast := h.leap (Nat.le_of_not_lt hNanos)
      unfold Instant.secondOfDay
      omega
    have hClock : secondOfDay? (t.secondOfDay / 3600) (t.secondOfDay / 60 % 60) 60 =
        some (t.secondOfDay, nanosPerSecond) := by
      rw [secondOfDay?, if_neg (by simp; omega), if_pos rfl]
      simp only [Option.some.injEq, Prod.mk.injEq, and_true]
      omega
    simp [lenientClock, writeClock, hGap, exactly, hHour, hMinute, hNanos, hLeap, hClock]

/-- A fraction of up to nine digits is read in nanoseconds. -/
theorem readFraction_decimalPadded {width n : Nat} (hWidth : 0 < width) (hNine : width ≤ 9)
    (h : n < 10 ^ width) {rest : List Char} (hRest : StopsBefore isDigit rest) :
    readFraction (decimalPadded width n ++ rest) = .ok (n * 10 ^ (9 - width), rest) := by
  have hLength := length_decimalPadded hWidth h
  have hTake := takeDigits_append (fun c (hc : c ∈ decimalPadded width n) =>
    isDigit_of_mem_decimalPadded hc) (by omega : (decimalPadded width n).length ≤ 9) (Or.inr hRest)
  have hValue := digitsValue_decimalPadded width n
  rw [readFraction, hTake]
  cases hDigits : decimalPadded width n with
  | nil => exact (decimalPadded_ne_nil width n hDigits).elim
  | cons c tail =>
      rw [hDigits] at hLength hValue
      simp only [hLength, hValue, hRest.dropWhile_eq]

/-- A nonzero fraction is written with as many digits as it needs in groups of three, and its value in
nanoseconds is read back up to whatever follows the digits. -/
theorem readFraction_writeFraction {nanos : Nat} (h : nanos < nanosPerSecond) (hNonzero : nanos ≠ 0)
    {rest : List Char} (hRest : StopsBefore isDigit rest) :
    ∃ digits, writeFraction nanos = '.' :: digits ∧
      readFraction (digits ++ rest) = .ok (nanos, rest) := by
  unfold nanosPerSecond at h
  unfold writeFraction
  rw [if_neg hNonzero]
  split
  · rename_i hMillis
    refine ⟨_, rfl, ?_⟩
    rw [readFraction_decimalPadded (by decide) (by decide) (by omega) hRest]
    have hExact : nanos / 1000000 * 10 ^ (9 - 3) = nanos := by omega
    rw [hExact]
  · split
    · rename_i hMicros
      refine ⟨_, rfl, ?_⟩
      rw [readFraction_decimalPadded (by decide) (by decide) (by omega) hRest]
      have hExact : nanos / 1000 * 10 ^ (9 - 6) = nanos := by omega
      rw [hExact]
    · refine ⟨_, rfl, ?_⟩
      rw [readFraction_decimalPadded (by decide) (by decide) (by omega) hRest]
      simp

/-- The first and the last second of the calendar are those of its first and its last year. -/
theorem Instant.firstSecond_eq :
    Instant.firstSecond = (daysBeforeYear (-262143) - epochDays) * 86400 := by decide

theorem Instant.lastSecond_eq :
    Instant.lastSecond = (daysBeforeYear 262143 - epochDays) * 86400 - 1 := by decide

/-- The year of an instant is one of the calendar. -/
theorem Instant.isCalendarYear_of_isRepresentable {t : Instant} (h : t.isRepresentable = true) :
    isCalendarYear t.date.year = true := by
  obtain ⟨hFirst, hLast, _⟩ := t.isRepresentable_iff.mp h
  rw [Instant.firstSecond_eq] at hFirst
  rw [Instant.lastSecond_eq] at hLast
  obtain ⟨hFrom, hTo⟩ := daysBeforeYear_yearOfDay (t.seconds / 86400 + epochDays)
  have hYear : t.date.year = yearOfDay (t.seconds / 86400 + epochDays) := (Date.ofDays_spec _).2.2
  rw [← hYear] at hFrom hTo
  have hLower : -262143 ≤ t.date.year := by
    refine Int.not_lt.mp fun hBelow => ?_
    have hMono := daysBeforeYear_mono (by omega : t.date.year + 1 ≤ -262143)
    omega
  have hUpper : t.date.year ≤ 262142 := by
    refine Int.not_lt.mp fun hAbove => ?_
    have hMono := daysBeforeYear_mono (by omega : 262143 ≤ t.date.year)
    omega
  simp [isCalendarYear, hLower, hUpper]

/-- An instant is put together again from its date, the second of its day and its nanoseconds. -/
theorem Instant.ofDate_date (t : Instant) : Instant.ofDate t.date t.secondOfDay t.nanos = t := by
  have hDays : t.date.toDays = t.seconds / 86400 := (Date.ofDays_spec _).2.1
  have hSeconds : t.date.toDays * 86400 + t.secondOfDay = t.seconds := by
    rw [hDays, Instant.secondOfDay]
    omega
  simp only [Instant.ofDate, hSeconds]

/-- The nanoseconds of an instant are those of its fraction, and a whole second more in a leap
second. -/
theorem Instant.nanos_eq {t : Instant} (h : t.isRepresentable = true) :
    (if t.nanos < nanosPerSecond then 0 else nanosPerSecond) + t.nanos % nanosPerSecond =
      t.nanos := by
  have hNanos := (t.isRepresentable_iff.mp h).2.2
  unfold nanosPerSecond at *
  split <;> omega

/-- The fraction is read back in front of the mark of the zone, also when it was left out. -/
theorem lenientFraction_writeFraction {nanos : Nat} (h : nanos < nanosPerSecond) (rest : List Char) :
    lenientFraction (writeFraction nanos ++ 'Z' :: rest) = some (nanos, 'Z' :: rest) := by
  by_cases hZero : nanos = 0
  · subst hZero
    rfl
  · obtain ⟨digits, hDigits, hRead⟩ := readFraction_writeFraction h hZero
      (by simp [isDigit] : StopsBefore isDigit ('Z' :: rest))
    rw [hDigits, List.cons_append, lenientFraction, hRead]
    rfl

/-- Every instant of the calendar is read back from what is written for it. -/
theorem Instant.parseLenient?_write {t : Instant} (h : t.WellFormed) :
    Instant.parseLenient? t.write = some t := by
  have hDate : ∀ rest, lenientDate trimStart (writeDate t.date ++ rest) = some (t.date, rest) :=
    lenientDate_writeDate (fun _ => rfl) (Date.ofDays_spec (t.seconds / 86400)).1
      (t.isCalendarYear_of_isRepresentable h.representable)
  have hClock : ∀ rest, lenientClock trimStart (writeClock t ++ rest) =
      some ((t.secondOfDay, if t.nanos < nanosPerSecond then 0 else nanosPerSecond), rest) :=
    lenientClock_writeClock (fun _ => rfl) h
  have hFraction := lenientFraction_writeFraction (Nat.mod_lt t.nanos (by decide)) []
  have hSeparator : ∀ rest, dateTimeSeparator ('T' :: rest) = some rest := fun _ => rfl
  have hZone : lenientZone (trimStart ['Z']) = some (0, []) := by decide
  have hEnd : trimStart [] = [] := rfl
  have hShown : atOffset (Instant.ofDate t.date t.secondOfDay
      ((if t.nanos < nanosPerSecond then 0 else nanosPerSecond) + t.nanos % nanosPerSecond)) 0 =
        .ok t := by
    rw [Instant.nanos_eq h.representable, Instant.ofDate_date]
    simp [atOffset, Instant.shift, h.representable]
  have hWrite : t.write = writeDate t.date ++
      'T' :: (writeClock t ++ (writeFraction (t.nanos % nanosPerSecond) ++ ['Z'])) := by
    simp [Instant.write]
  rw [hWrite]
  simp [Instant.parseLenient?, hDate, hSeparator, hClock, hFraction, hZone, hEnd, hShown,
    Except.toOption]

/-- A time of day has nanoseconds of its own only in a leap second, which ends a minute. -/
theorem secondOfDay?_leap {hour minute second sod extra : Nat}
    (h : secondOfDay? hour minute second = some (sod, extra)) :
    extra = 0 ∨ extra = nanosPerSecond ∧ sod % 60 = 59 := by
  unfold secondOfDay? at h
  split at h
  · simp at h
  · split at h
    · obtain ⟨rfl, rfl⟩ : hour * 3600 + minute * 60 + 59 = sod ∧ nanosPerSecond = extra := by
        simpa using h
      exact Or.inr ⟨rfl, by omega⟩
    · obtain ⟨_, rfl⟩ : hour * 3600 + minute * 60 + second = sod ∧ 0 = extra := by simpa using h
      exact Or.inl rfl

theorem readFraction_lt {s rest : List Char} {nanos : Nat}
    (h : readFraction s = .ok (nanos, rest)) : nanos < nanosPerSecond := by
  obtain ⟨hDigits, hLength⟩ := @takeDigits_fst 9 s
  unfold readFraction at h
  split at h
  · simp at h
  · simp at h
  · rename_i digits after _ _ hTake
    rw [hTake] at hDigits hLength
    obtain ⟨rfl, _⟩ : digitsValue digits * 10 ^ (9 - digits.length) = nanos ∧ _ = rest := by
      simpa using h
    calc digitsValue digits * 10 ^ (9 - digits.length)
        < 10 ^ digits.length * 10 ^ (9 - digits.length) :=
          Nat.mul_lt_mul_of_pos_right (digitsValue_lt hDigits) (Nat.pow_pos (by decide))
      _ = 10 ^ 9 := by rw [← Nat.pow_add, Nat.add_sub_cancel' hLength]

theorem toOption_eq_some_iff {ε α : Type} {result : Except ε α} {x : α} :
    result.toOption = some x ↔ result = .ok x := by
  cases result with
  | error _ => simp [Except.toOption]
  | ok _ => simp [Except.toOption]

theorem lenientFraction_lt {s rest : List Char} {nanos : Nat}
    (h : lenientFraction s = some (nanos, rest)) : nanos < nanosPerSecond := by
  unfold lenientFraction at h
  split at h
  · exact readFraction_lt (toOption_eq_some_iff.mp h)
  · obtain ⟨rfl, _⟩ : 0 = nanos ∧ s = rest := by simpa using h
    decide

/-- Offsets are read in whole minutes. -/
theorem readOffsetFields_minutes {between : List Char → Except TimeError (List Char)} {east : Bool}
    {s rest : List Char} {offset : Int}
    (h : readOffsetFields between east s = .ok (offset, rest)) : offset % 60 = 0 := by
  simp only [readOffsetFields, bind, Except.bind] at h
  split at h
  · simp at h
  split at h
  · simp at h
  split at h
  · simp at h
  split at h
  · simp at h
  · obtain ⟨rfl, _⟩ := Prod.mk.inj (Except.ok.inj h)
    split <;> omega

theorem readOffset_minutes {between : List Char → Except TimeError (List Char)} {s rest : List Char}
    {offset : Int} (h : readOffset between s = .ok (offset, rest)) : offset % 60 = 0 := by
  unfold readOffset at h
  split at h
  · obtain ⟨rfl, _⟩ := Prod.mk.inj (Except.ok.inj h)
    rfl
  · obtain ⟨rfl, _⟩ := Prod.mk.inj (Except.ok.inj h)
    rfl
  · exact readOffsetFields_minutes h
  · exact readOffsetFields_minutes h
  · exact readOffsetFields_minutes h
  · simp at h
  · simp at h

theorem lenientZone_minutes {s rest : List Char} {offset : Int}
    (h : lenientZone s = some (offset, rest)) : offset % 60 = 0 := by
  have hOffset : ∀ s, lenientZone.offset s = some (offset, rest) → offset % 60 = 0 := by
    intro s h
    exact readOffset_minutes (toOption_eq_some_iff.mp h)
  unfold lenientZone at h
  split at h
  · split at h
    · obtain ⟨rfl, _⟩ := Prod.mk.inj (Option.some.inj h)
      rfl
    · exact hOffset _ h
  · exact hOffset _ h

/-- Only the last second of a minute can be a leap second. -/
theorem lenientClock_leap {gap : List Char → List Char} {s rest : List Char} {sod extra : Nat}
    (h : lenientClock gap s = some ((sod, extra), rest)) :
    extra = 0 ∨ extra = nanosPerSecond ∧ sod % 60 = 59 := by
  simp only [lenientClock, Option.bind_eq_bind, Option.bind_eq_some_iff] at h
  obtain ⟨_, _, _, _, _, _, _, _, _, _, _, hClock, h⟩ := h
  obtain ⟨rfl, _⟩ := Prod.mk.inj (Option.some.inj h)
  exact secondOfDay?_leap hClock

/-- The instant at an offset of whole minutes is in a leap second only where its clock was. -/
theorem wellFormed_of_atOffset {date : Date} {sod extra fraction : Nat} {offset : Int} {t : Instant}
    (hLeap : extra = 0 ∨ extra = nanosPerSecond ∧ sod % 60 = 59)
    (hFraction : fraction < nanosPerSecond) (hOffset : offset % 60 = 0)
    (h : atOffset (Instant.ofDate date sod (extra + fraction)) offset = .ok t) : t.WellFormed := by
  unfold atOffset at h
  split at h
  · simp at h
  · simp only at h
    split at h
    · rename_i hRepresentable
      obtain rfl : (Instant.ofDate date sod (extra + fraction)).shift (-offset) = t := by
        simpa using h
      refine ⟨hRepresentable, fun hNanos => ?_⟩
      simp only [Instant.shift, Instant.ofDate] at hNanos ⊢
      omega
    · simp at h

/-- Whatever is read as a time lies in the calendar, with leap seconds at the ends of minutes only. -/
theorem Instant.wellFormed_of_parseLenient? {s : List Char} {t : Instant}
    (h : Instant.parseLenient? s = some t) : t.WellFormed := by
  simp only [Instant.parseLenient?, Option.bind_eq_bind, Option.bind_eq_some_iff] at h
  obtain ⟨⟨date, _⟩, _, _, _, ⟨⟨sod, extra⟩, _⟩, hClock, ⟨fraction, _⟩, hFraction,
    ⟨offset, _⟩, hZone, h⟩ := h
  split at h
  · exact wellFormed_of_atOffset (lenientClock_leap hClock) (lenientFraction_lt hFraction)
      (lenientZone_minutes hZone) (toOption_eq_some_iff.mp h)
  · simp at h

end BanBoard.Time
