import BanBoard.Proofs.Jail.Name
import BanBoard.Proofs.Net.Token
import BanBoard.Proofs.Time.Zone
import BanBoard.Status.BanTimes

/-!
Times of bans on the lines of a text. Such a line shows an address and, behind blanks, the reading of a
clock; marks may stand before the address and anything behind the reading. Between such lines there may
be others, as long as they do not begin with an address.
-/

namespace BanBoard.Status

open BanBoard.Net
open BanBoard.Text
open BanBoard.Time

/-- A reading as it is shown, without a fraction. -/
def stamp (reading : Instant) : List Char := writeDate reading.date ++ ' ' :: writeClock reading

section Stamp

variable {reading : Instant}

/-- A reading with a year of four digits can be represented. -/
theorem wellFormed_of_isStamp (h : reading.IsStamp) : reading.WellFormed where
  representable := by
    have hSame : reading.shift 0 = reading := by simp [Instant.shift]
    exact hSame ▸ h.isRepresentable_shift (by decide : -86400 < (0 : Int)) (by decide)
  leap := by
    intro hLeap
    rcases h.whole with hZero | ⟨-, hLast⟩
    · exact absurd (hZero ▸ hLeap) (by decide)
    · exact hLast

theorem writeYear_of_isStamp (h : reading.IsStamp) :
    writeYear reading.date.year = decimalPadded 4 reading.date.year.toNat := by
  have hYear : (decide (0 ≤ reading.date.year) && decide (reading.date.year ≤ 9999)) = true := by
    simp [h.year_nonneg, h.year_le]
  rw [writeYear, if_pos hYear]

theorem length_twoDigits {n : Nat} (h : n < 100) : (twoDigits n).length = 2 :=
  length_decimalPadded (by decide) h

theorem writeClock_bounds (reading : Instant) :
    reading.secondOfDay / 3600 < 100 ∧ reading.secondOfDay / 60 % 60 < 100 ∧
      reading.secondOfDay % 60 + (if reading.nanos < nanosPerSecond then 0 else 1) < 100 := by
  have hDay := reading.secondOfDay_lt
  refine ⟨by omega, by omega, ?_⟩
  split <;> omega

theorem length_stamp (h : reading.IsStamp) : (stamp reading).length = 19 := by
  obtain ⟨hMonth, hDay⟩ := Date.month_day_le_of_isValid (Date.ofDays_spec (reading.seconds / 86400)).1
  obtain ⟨hHour, hMinute, hSecond⟩ := writeClock_bounds reading
  have hMonth : (twoDigits reading.date.month).length = 2 :=
    length_twoDigits (Nat.lt_of_le_of_lt hMonth (by decide))
  have hDay : (twoDigits reading.date.day).length = 2 :=
    length_twoDigits (Nat.lt_of_le_of_lt hDay (by decide))
  have hYear : (writeYear reading.date.year).length = 4 := by
    have hLe := h.year_le
    rw [writeYear_of_isStamp h, length_decimalPadded (by decide) (by omega)]
  simp only [stamp, writeDate, writeClock, List.length_append, List.length_cons, hYear, hMonth, hDay,
    length_twoDigits hHour, length_twoDigits hMinute, length_twoDigits hSecond]

/-- A stamp has digits and the three marks between them only. -/
theorem mem_stamp (h : reading.IsStamp) {c : Char} (hMem : c ∈ stamp reading) :
    isDigit c = true ∨ c ∈ ['-', ' ', ':'] := by
  have hDigits {n : Nat} : c ∈ twoDigits n → isDigit c = true := isDigit_of_mem_decimalPadded
  have hYear : c ∈ writeYear reading.date.year → isDigit c = true := by
    rw [writeYear_of_isStamp h]
    exact isDigit_of_mem_decimalPadded
  simp only [stamp, writeDate, writeClock, List.mem_append, List.mem_cons] at hMem ⊢
  grind

theorem toNat_lt_of_mem_stamp (h : reading.IsStamp) {c : Char} (hMem : c ∈ stamp reading) :
    c.toNat < 128 := by
  have hMarks : ∀ c ∈ ['-', ' ', ':'], c.toNat < 128 := by simp
  rcases mem_stamp h hMem with hDigit | hMark
  · exact Nat.lt_of_le_of_lt (toNat_of_isDigit hDigit).2 (by decide)
  · exact hMarks c hMark

theorem stamp_eq_cons (h : reading.IsStamp) :
    ∃ c rest, stamp reading = c :: rest ∧ isDigit c = true := by
  obtain ⟨c, rest, hYear, hDigit⟩ := decimalPadded_eq_cons 4 reading.date.year.toNat
  rw [← writeYear_of_isStamp h] at hYear
  exact ⟨c, _, by simp only [stamp, writeDate, hYear, List.cons_append]; rfl, hDigit⟩

theorem stamp_eq_concat (reading : Instant) :
    ∃ front c, stamp reading = front ++ [c] ∧ isDigit c = true := by
  have hSplit : ∃ front n, stamp reading = front ++ twoDigits n := by
    refine ⟨writeDate reading.date ++ ' ' :: twoDigits (reading.secondOfDay / 3600) ++
      ':' :: twoDigits (reading.secondOfDay / 60 % 60) ++ [':'],
      reading.secondOfDay % 60 + if reading.nanos < nanosPerSecond then 0 else 1, ?_⟩
    simp only [stamp, writeClock, List.append_assoc, List.cons_append, List.nil_append]
  obtain ⟨front, n, hSplit⟩ := hSplit
  obtain ⟨init, c, hLast⟩ :=
    (List.eq_nil_or_concat (twoDigits n)).resolve_left (decimalPadded_ne_nil 2 n)
  have hMem : c ∈ twoDigits n := by simp [hLast]
  refine ⟨front ++ init, c, ?_, isDigit_of_mem_decimalPadded hMem⟩
  rw [hSplit, hLast, List.concat_eq_append, List.append_assoc]

theorem parseStamp?_stamp (h : reading.IsStamp) :
    Instant.parseStamp? (stamp reading) = some reading := by
  have hWellFormed := wellFormed_of_isStamp h
  have hDate : lenientDate id (stamp reading) = some (reading.date, ' ' :: writeClock reading) :=
    lenientDate_writeDate (fun _ => rfl) (Date.ofDays_spec (reading.seconds / 86400)).1
      (Instant.isCalendarYear_of_isRepresentable hWellFormed.representable) _
  have hTrim : trimStart (' ' :: writeClock reading) = writeClock reading := by
    have hBlank : trimStart (' ' :: writeClock reading) = trimStart (writeClock reading) := rfl
    rw [hBlank, writeClock, List.append_assoc]
    exact trimStart_decimalPadded 2 _ _
  have hClock : lenientClock id (writeClock reading ++ []) =
      some ((reading.secondOfDay, if reading.nanos < nanosPerSecond then 0 else nanosPerSecond), []) :=
    lenientClock_writeClock (fun _ => rfl) hWellFormed []
  rw [List.append_nil] at hClock
  have hNanos : (if reading.nanos < nanosPerSecond then 0 else nanosPerSecond) = reading.nanos := by
    rcases h.whole with hZero | ⟨hLeap, -⟩
    · simp [hZero, nanosPerSecond]
    · simp [hLeap]
  have hSame := Instant.ofDate_date reading
  simp [Instant.parseStamp?, hDate, hTrim, hClock, hNanos, hSame]

end Stamp

/-- The first bytes of a text of ASCII are its first characters. -/
theorem bytePrefix?_append {s : List Char} (h : ∀ c ∈ s, c.toNat < 128) (rest : List Char) :
    bytePrefix? s.length (s ++ rest) = some s := by
  induction s with
  | nil => exact bytePrefix?.eq_1 rest
  | cons c s ih =>
      obtain ⟨hHead, hTail⟩ := List.forall_mem_cons.mp h
      have hOne : c.utf8Size = 1 :=
        Char.utf8Size_eq_one_iff.mpr (UInt32.le_iff_toNat_le.mpr (Nat.le_of_lt_succ hHead))
      rw [List.length_cons, List.cons_append, bytePrefix?, hOne, if_pos (by omega), Nat.add_sub_cancel,
        ih hTail]
      rfl

/-- The text in front of the first blank on a line, without the marks around what is listed there. -/
def firstToken (line : List Char) : List Char :=
  (trimWhere isListMark (trim line)).takeWhile fun c => !isBlank c

/-- A line that shows when an address was banned. -/
def IsBanLine (ip : List Char) (reading : Instant) (line : List Char) : Prop :=
  ∃ indent marks gap rest, isBlankText indent = true ∧ (∀ c ∈ marks, isListMark c = true) ∧
    gap ≠ [] ∧ isBlankText gap = true ∧
    line = indent ++ (marks ++ (ip ++ (gap ++ (stamp reading ++ rest))))

theorem splitBlank_append {ip : List Char} (hIp : ∀ c ∈ ip, isBlank c = false) {c : Char}
    (hc : isBlank c = true) (rest : List Char) : splitBlank (ip ++ c :: rest) = some (ip, rest) := by
  induction ip with
  | nil => simp [splitBlank, hc]
  | cons d ip ih =>
      obtain ⟨hHead, hTail⟩ := List.forall_mem_cons.mp hIp
      simp [splitBlank, hHead, ih hTail]

/-- What stands before the split has no blanks. -/
theorem splitBlank_eq_some {s before after : List Char} (h : splitBlank s = some (before, after)) :
    before = s.takeWhile fun c => !isBlank c := by
  induction s generalizing before after with
  | nil => cases h
  | cons c s ih =>
      rw [splitBlank] at h
      split at h
      · rename_i hBlank
        obtain ⟨rfl, -⟩ := Prod.mk.inj (Option.some.inj h)
        simp [hBlank]
      · rename_i hWord
        obtain ⟨⟨front, back⟩, hTail, hEq⟩ := Option.map_eq_some_iff.mp h
        obtain ⟨rfl, rfl⟩ := Prod.mk.inj hEq
        simp [hWord, ih hTail]

/-- A line that does not begin with an address tells no time. -/
theorem banTime?_of_firstToken {zone : Zone} {line : List Char}
    (h : isAddressToken (firstToken line) = false) : banTime? zone line = none := by
  unfold banTime?
  cases hSplit : splitBlank (trimWhere isListMark (trim line)) with
  | none => rfl
  | some parts =>
      obtain ⟨ip, rest⟩ := parts
      have hIp : isAddressToken ip = false := by rw [splitBlank_eq_some hSplit]; exact h
      simp [hIp]

theorem isListMark_of_isTokenChar {c : Char} (h : isTokenChar c = true) : isListMark c = false := by
  have hAll : ∀ n < 128, isTokenChar (Char.ofNat n) = true → isListMark (Char.ofNat n) = false := by
    decide
  exact forall_ascii (P := fun c => isTokenChar c = true → isListMark c = false) hAll
    (toNat_lt_of_isTokenChar h) h

theorem isListMark_of_isDigit {c : Char} (h : isDigit c = true) : isListMark c = false :=
  isListMark_of_isTokenChar (isTokenChar_of_isAddressChar (isAddressChar_of_isDigit h))

theorem isBlank_of_isListMark {c : Char} (h : isListMark c = true) : isBlank c = false := by
  have hMarks : ∀ c ∈ ['[', ']', '\'', '"', ','], isBlank c = false := by simp [isBlank]
  exact hMarks c (by simpa [isListMark, or_assoc] using h)

/-- What stands between two characters that stay survives trimming, whatever stands behind it. -/
theorem trimWhere_trim {indent marks : List Char} (hIndent : isBlankText indent = true)
    (hMarks : ∀ c ∈ marks, isListMark c = true) {first last : Char}
    (hFirst : isBlank first = false ∧ isListMark first = false)
    (hLast : isBlank last = false ∧ isListMark last = false) (middle rest : List Char) :
    ∃ kept, trimWhere isListMark (trim (indent ++ (marks ++ (first :: middle ++ last :: rest)))) =
      first :: middle ++ last :: kept := by
  have hStart : trimStart (indent ++ (marks ++ (first :: middle ++ last :: rest))) =
      marks ++ (first :: middle ++ last :: rest) := by
    refine dropWhile_append (List.all_eq_true.mp hIndent) ?_
    cases marks with
    | nil => simpa using hFirst.1
    | cons mark marks => simpa using isBlank_of_isListMark (hMarks mark List.mem_cons_self)
  have hEnd : trimEnd (marks ++ (first :: middle ++ last :: rest)) =
      marks ++ (first :: middle ++ last :: trimEnd rest) := by
    rw [← List.append_assoc, trimEnd_append_cons hLast.1, List.append_assoc]
  have hDrop : (marks ++ (first :: middle ++ last :: trimEnd rest)).dropWhile isListMark =
      first :: middle ++ last :: trimEnd rest :=
    dropWhile_append hMarks (by simpa using hFirst.2)
  refine ⟨((trimEnd rest).reverse.dropWhile isListMark).reverse, ?_⟩
  rw [trim, hStart, hEnd, trimWhere, hDrop, reverse_dropWhile_append_cons hLast.2]

variable {reading : Instant}

/-- A ban is found at the first instant at which its reading is shown. -/
theorem banTime?_of_isBanLine (zone : Zone) {ip line : List Char} (hIp : isAddressToken ip = true)
    (hReading : reading.IsStamp) (hLine : IsBanLine ip reading line) :
    banTime? zone line = (zone.earliest? reading).map fun t => (ip, t) := by
  obtain ⟨indent, marks, gap, rest, hIndent, hMarks, hSome, hGap, rfl⟩ := hLine
  obtain ⟨blank, gap, rfl⟩ := List.exists_cons_of_ne_nil hSome
  obtain ⟨hBlank, hGap⟩ := List.forall_mem_cons.mp (List.all_eq_true.mp hGap)
  obtain ⟨first, tail, rfl⟩ := List.exists_cons_of_ne_nil (ne_nil_of_isAddressToken hIp)
  obtain ⟨front, last, hStamp, hLast⟩ := stamp_eq_concat reading
  obtain ⟨digit, digits, hDigits, hDigit⟩ := stamp_eq_cons hReading
  have hFirst := isTokenChar_of_mem hIp List.mem_cons_self
  have hKept : ∃ kept, trimWhere isListMark (trim (indent ++ (marks ++ (first :: tail ++
      (blank :: gap ++ (stamp reading ++ rest)))))) =
      first :: tail ++ blank :: (gap ++ (stamp reading ++ kept)) := by
    obtain ⟨kept, hKept⟩ := trimWhere_trim hIndent hMarks
      ⟨isBlank_of_isTokenChar hFirst, isListMark_of_isTokenChar hFirst⟩
      ⟨isBlank_of_isDigit hLast, isListMark_of_isDigit hLast⟩ (tail ++ blank :: (gap ++ front)) rest
    refine ⟨kept, ?_⟩
    rw [hStamp]
    simpa using hKept
  obtain ⟨kept, hKept⟩ := hKept
  have hTrim : trimStart (gap ++ (stamp reading ++ kept)) = stamp reading ++ kept := by
    refine dropWhile_append hGap ?_
    simpa [hDigits] using isBlank_of_isDigit hDigit
  have hPrefix : bytePrefix? 19 (stamp reading ++ kept) = some (stamp reading) := by
    rw [← length_stamp hReading]
    exact bytePrefix?_append (fun _ hMem => toNat_lt_of_mem_stamp hReading hMem) kept
  have hSplit := splitBlank_append (isWord_of_isAddressToken hIp).2 hBlank
    (gap ++ (stamp reading ++ kept))
  rw [banTime?, hKept, hSplit]
  simp only [Option.bind_eq_bind, Option.bind_some, hIp, if_true, hTrim, hPrefix,
    parseStamp?_stamp hReading]
  cases zone.earliest? reading with
  | none => rfl
  | some t => rfl

/-- The lines of a text that lists some bans, in their order, and lines that begin with no address. -/
inductive Lists : List (List Char × Instant) → List (List Char) → Prop where
  | nil : Lists [] []
  | ban {ip line : List Char} {reading : Instant} {bans : List (List Char × Instant)}
      {others : List (List Char)} (hIp : isAddressToken ip = true) (hReading : reading.IsStamp)
      (hLine : IsBanLine ip reading line) (hOthers : Lists bans others) :
      Lists ((ip, reading) :: bans) (line :: others)
  | other {line : List Char} {bans : List (List Char × Instant)} {others : List (List Char)}
      (hLine : isAddressToken (firstToken line) = false) (hOthers : Lists bans others) :
      Lists bans (line :: others)

/-- What is found of some bans: each address with the first instant at which its reading is shown,
without those whose reading is never shown. -/
inductive Finds (zone : Zone) : List (List Char × Instant) → List BanTime → Prop where
  | nil : Finds zone [] []
  | skip {ip : List Char} {reading : Instant} {bans : List (List Char × Instant)} {times : List BanTime}
      (hGap : zone.Skips reading) (hTimes : Finds zone bans times) :
      Finds zone ((ip, reading) :: bans) times
  | find {ip : List Char} {reading t : Instant} {bans : List (List Char × Instant)}
      {times : List BanTime}
      (hFirst : zone.ShowsFirst reading t) (hTimes : Finds zone bans times) :
      Finds zone ((ip, reading) :: bans) ((ip, t) :: times)

variable {zone : Zone} {bans : List (List Char × Instant)}

theorem Finds.unique {times others : List BanTime} (h : Finds zone bans times)
    (h' : Finds zone bans others) : times = others := by
  induction h generalizing others with
  | nil => cases h'; rfl
  | skip hGap _ ih =>
      cases h' with
      | skip _ hOthers => exact ih hOthers
      | find hFirst _ => exact (hFirst.1.not_skips hGap).elim
  | find hFirst _ ih =>
      cases h' with
      | skip hGap _ => exact (hFirst.1.not_skips hGap).elim
      | find hFirst' hOthers => rw [hFirst.unique hFirst', ih hOthers]

/-- On listed bans, reading line by line finds what is listed. -/
theorem Lists.finds (hZone : zone.IsProper) {texts : List (List Char)} (h : Lists bans texts) :
    Finds zone bans (texts.filterMap (banTime? zone)) := by
  induction h with
  | nil => exact .nil
  | @ban ip line reading bans others hIp hReading hLine _ ih =>
      have hLine := banTime?_of_isBanLine zone hIp hReading hLine
      rcases Zone.earliest?_spec hZone hReading with ⟨hGap, hNone⟩ | ⟨t, hFirst, hSome⟩
      · rw [hNone] at hLine
        rw [List.filterMap_cons_none hLine]
        exact .skip hGap ih
      · rw [hSome] at hLine
        rw [List.filterMap_cons_some hLine]
        exact .find hFirst ih
  | other hLine _ ih =>
      rw [List.filterMap_cons_none (banTime?_of_firstToken hLine)]
      exact ih

/-- The times are those of the pieces between newlines. -/
theorem banTimes_eq (zone : Zone) (text : List Char) :
    banTimes zone text = (text.splitOn '\n').filterMap (banTime? zone) := by
  refine filterMap_lines (fun line => ?_) rfl text
  have hTrim : trim (line ++ ['\r']) = trim line := trim_append_blank rfl line
  rw [banTime?, hTrim, banTime?]

/-- Whatever bans a text lists, they are found in their order, with the first instant for a reading that
is shown twice and without those for which there is none. Nothing else is found. -/
theorem banTimes_findsListed (hZone : zone.IsProper) {texts : List (List Char)} (h : Lists bans texts)
    (hLines : ∀ line ∈ texts, '\n' ∉ line) (times : List BanTime) :
    banTimes zone (['\n'].intercalate texts) = times ↔ Finds zone bans times := by
  have hFinds : Finds zone bans (banTimes zone (['\n'].intercalate texts)) := by
    rw [banTimes_eq]
    cases texts with
    | nil => exact h.finds hZone
    | cons line others =>
        rw [List.splitOn_intercalate '\n' hLines (List.cons_ne_nil _ _)]
        exact h.finds hZone
  constructor
  · rintro rfl
    exact hFinds
  · exact hFinds.unique

/-- Half past two is shown twice on the day in autumn and never on the one in spring. Quotes and brackets
stand around the list, and one line is no part of it. -/
theorem banTimes_findsListed_foldAndGap :
    let zone : Zone :=
      ⟨3600, [⟨⟨1711850400, 0⟩, ⟨1711854000, 0⟩⟩], [⟨⟨1729994400, 0⟩, ⟨1729998000, 0⟩, 7200, 3600⟩]⟩
    let texts := ["['192.0.2.1 \t2024-10-27 02:30:00 + 600 = 2024-10-27 02:40:00',".toList,
      "not an entry".toList, " '2001:db8::/32  2024-03-31 02:30:00']".toList]
    zone.IsProper ∧
      Lists [("192.0.2.1".toList, ⟨1729996200, 0⟩), ("2001:db8::/32".toList, ⟨1711852200, 0⟩)] texts ∧
      banTimes zone (['\n'].intercalate texts) = [("192.0.2.1".toList, ⟨1729989000, 0⟩)] := by
  intro zone texts
  have hZone : zone.IsProper := ⟨by decide, by decide⟩
  have hAutumn : Instant.IsStamp ⟨1729996200, 0⟩ := ⟨by decide, by decide, .inl rfl⟩
  have hSpring : Instant.IsStamp ⟨1711852200, 0⟩ := ⟨by decide, by decide, .inl rfl⟩
  have hLists : Lists [("192.0.2.1".toList, ⟨1729996200, 0⟩), ("2001:db8::/32".toList, ⟨1711852200, 0⟩)]
      texts := by
    refine .ban (by decide) hAutumn ?_ (.other (by decide) (.ban (by decide) hSpring ?_ .nil))
    · exact ⟨[], ['[', '\''], " \t".toList, " + 600 = 2024-10-27 02:40:00',".toList, rfl,
        by simp [isListMark], by decide, rfl, by decide⟩
    · exact ⟨[' '], ['\''], "  ".toList, "']".toList, rfl, by simp [isListMark], by decide, rfl,
        by decide⟩
  have hOffset : zone.offsetAt? ⟨1729996200, 0⟩ = some 7200 := by decide
  have hShown : ¬zone.Skips ⟨1729996200, 0⟩ := by unfold Zone.Skips; decide
  have hFirst : zone.ShowsFirst ⟨1729996200, 0⟩ ⟨1729989000, 0⟩ :=
    ⟨.first hShown ⟨by decide, [], [], rfl, by decide⟩, fun _ => Zone.le_of_shows hZone hOffset⟩
  have hGap : zone.Skips ⟨1711852200, 0⟩ := by unfold Zone.Skips; decide
  refine ⟨hZone, hLists, ?_⟩
  exact (banTimes_findsListed hZone hLists (by decide) _).mpr (.find hFirst (.skip hGap .nil))

end BanBoard.Status
