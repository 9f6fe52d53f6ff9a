import BanBoard.Proofs.Time.Rfc3339
import Mathlib.Data.List.Basic

/-!
Times in their strict form. A stamp says what stands in such a text, field by field, and the reading
accepts exactly the texts that spell a stamp of the calendar. What it returns is the instant at which a
clock with the offset of the stamp shows the rest of it.
-/

namespace BanBoard.Time

open BanBoard.Text

/-- The fields of a time, with the offset of the clock in seconds to the east. -/
structure Stamp where
  year : Nat
  month : Nat
  day : Nat
  hour : Nat
  minute : Nat
  second : Nat
  nanos : Nat
  offset : Int

namespace Stamp

def date (stamp : Stamp) : Date := ⟨stamp.year, stamp.month, stamp.day⟩

/-- The calendar has the date, and the day has the time. A sixtieth second is a leap second. -/
structure IsValid (stamp : Stamp) : Prop where
  date : stamp.date.isValid = true
  hour_le : stamp.hour ≤ 23
  minute_le : stamp.minute ≤ 59
  second_le : stamp.second ≤ 60

/-- The instant that is meant. A leap second belongs to the second before it. -/
def instant (stamp : Stamp) : Instant where
  seconds := stamp.date.toDays * 86400 +
    ((stamp.hour * 3600 + stamp.minute * 60 + min stamp.second 59 : Nat) : Int) - stamp.offset
  nanos := stamp.nanos + if stamp.second = 60 then nanosPerSecond else 0

end Stamp

/-- A number written with so many digits. -/
structure IsField (width n : Nat) (s : List Char) : Prop where
  length_eq : s.length = width
  isDigit_of_mem : ∀ c ∈ s, isDigit c = true
  value_eq : digitsValue s = n

/-- The fraction of a second in whole nanoseconds, rounded down. It may be left out. -/
inductive IsFraction : Nat → List Char → Prop where
  | none : IsFraction 0 []
  | some {digits : List Char} (hSome : digits ≠ []) (hDigits : ∀ c ∈ digits, isDigit c = true) :
      IsFraction (digitsValue digits * 10 ^ 9 / 10 ^ digits.length) ('.' :: digits)

/-- The offset of a clock, with a mark for none and a sign for either direction. -/
inductive IsOffset : Int → List Char → Prop where
  | utc {mark : Char} (hMark : mark = 'Z' ∨ mark = 'z') : IsOffset 0 [mark]
  | east {hours minutes : Nat} {h m : List Char} (hHours : IsField 2 hours h)
      (hMinutes : IsField 2 minutes m) (hHour : hours ≤ 23) (hMinute : minutes ≤ 59) :
      IsOffset ((hours * 3600 + minutes * 60 : Nat) : Int) ('+' :: (h ++ ':' :: m))
  | west {sign : Char} {hours minutes : Nat} {h m : List Char} (hSign : sign = '-' ∨ sign = '\u2212')
      (hHours : IsField 2 hours h) (hMinutes : IsField 2 minutes m) (hHour : hours ≤ 23)
      (hMinute : minutes ≤ 59) :
      IsOffset (-((hours * 3600 + minutes * 60 : Nat) : Int)) (sign :: (h ++ ':' :: m))

/-- The spelling of a stamp: every field at its full width, and between the date and the time a letter or
a space. -/
def Stamp.Spells (stamp : Stamp) (s : List Char) : Prop :=
  ∃ year month day hour minute second fraction offset separator,
    s = year ++ '-' :: (month ++ '-' :: (day ++ separator ::
      (hour ++ ':' :: (minute ++ ':' :: (second ++ (fraction ++ offset)))))) ∧
    isDateTimeSeparator separator = true ∧
    IsField 4 stamp.year year ∧ IsField 2 stamp.month month ∧ IsField 2 stamp.day day ∧
    IsField 2 stamp.hour hour ∧ IsField 2 stamp.minute minute ∧ IsField 2 stamp.second second ∧
    IsFraction stamp.nanos fraction ∧ IsOffset stamp.offset offset

section Readers

variable {ε α β : Type}

/-- Two steps succeed when the first does and then the second. -/
theorem bind_eq_ok_iff {x : Except ε α} {f : α → Except ε β} {y : β} :
    (x >>= f) = .ok y ↔ ∃ a, x = .ok a ∧ f a = .ok y := by
  cases x with
  | error e => simp [bind, Except.bind]
  | ok a => simp [bind, Except.bind]

/-- A guard succeeds when its condition does not hold. -/
theorem ite_error_eq_ok_iff {c : Prop} [Decidable c] {e : ε} {x : Except ε α} {y : α} :
    (if c then .error e else x) = .ok y ↔ ¬c ∧ x = .ok y := by
  split <;> simp [*]

theorem ite_eq_ok_iff {c : Prop} [Decidable c] {e : ε} {x : Except ε α} {y : α} :
    (if c then x else .error e) = .ok y ↔ c ∧ x = .ok y := by
  split <;> simp [*]

end Readers

/-- Digits are read onto those before them. -/
theorem digitsExactly_eq_ok {count acc n : Nat} {s rest : List Char} :
    digitsExactly count acc s = .ok (n, rest) ↔ ∃ digits, digits.length = count ∧
      (∀ c ∈ digits, isDigit c = true) ∧ Nat.ofDigitChars 10 digits acc = n ∧ s = digits ++ rest := by
  fun_induction digitsExactly count acc s with
  | case1 acc s =>
      simp only [List.length_eq_zero_iff, exists_eq_left, Except.ok.injEq, Prod.mk.injEq]
      simp
  | case2 acc count =>
      refine iff_of_false (by simp) ?_
      rintro ⟨digits, hLength, -, -, hText⟩
      simp [(List.append_eq_nil_iff.mp hText.symm).1] at hLength
  | case3 acc count c s hDigit ih =>
      constructor
      · intro h
        obtain ⟨digits, hLength, hDigits, hValue, rfl⟩ := ih.mp h
        have hAll : ∀ d ∈ c :: digits, isDigit d = true := List.forall_mem_cons.mpr ⟨hDigit, hDigits⟩
        refine ⟨c :: digits, congrArg Nat.succ hLength, hAll, ?_, rfl⟩
        rw [Nat.ofDigitChars_cons, Nat.mul_comm, hValue]
      · rintro ⟨digits, hLength, hDigits, hValue, hText⟩
        cases digits with
        | nil => simp at hLength
        | cons d digits =>
            obtain ⟨rfl, rfl⟩ := List.cons.inj hText
            rw [Nat.ofDigitChars_cons, Nat.mul_comm] at hValue
            exact ih.mpr ⟨digits, Nat.succ.inj hLength, (List.forall_mem_cons.mp hDigits).2, hValue, rfl⟩
  | case4 acc count c s hOther =>
      refine iff_of_false (by simp) ?_
      rintro ⟨digits, hLength, hDigits, -, hText⟩
      cases digits with
      | nil => simp at hLength
      | cons d digits =>
          obtain ⟨rfl, -⟩ := List.cons.inj hText
          exact hOther (hDigits c List.mem_cons_self)

/-- A field is read just where it stands, with all its digits. -/
theorem digitsExactly_eq_ok_iff {width n : Nat} {s rest : List Char} :
    digitsExactly width 0 s = .ok (n, rest) ↔ ∃ digits, IsField width n digits ∧ s = digits ++ rest := by
  rw [digitsExactly_eq_ok]
  constructor
  · rintro ⟨digits, hLength, hDigits, hValue, hText⟩
    exact ⟨digits, ⟨hLength, hDigits, (digitsValue_eq digits).trans hValue⟩, hText⟩
  · rintro ⟨digits, ⟨hLength, hDigits, hValue⟩, hText⟩
    exact ⟨digits, hLength, hDigits, (digitsValue_eq digits).symm.trans hValue, hText⟩

theorem expect_eq_ok_iff {p : Char → Bool} {s rest : List Char} :
    expect p s = .ok rest ↔ ∃ c, p c = true ∧ s = c :: rest := by
  cases s with
  | nil => simp [expect]
  | cons d s =>
      rw [expect]
      constructor
      · intro h
        split at h
        · rename_i hd
          exact ⟨d, hd, congrArg (d :: ·) (Except.ok.inj h)⟩
        · cases h
      · rintro ⟨c, hc, hText⟩
        obtain ⟨rfl, rfl⟩ := List.cons.inj hText
        rw [if_pos hc]

/-- Digits behind others add in the last places. -/
theorem digitsValue_append (digits others : List Char) :
    digitsValue (digits ++ others) = digitsValue digits * 10 ^ others.length + digitsValue others := by
  rw [digitsValue_eq, digitsValue_eq, digitsValue_eq, Nat.ofDigitChars_append,
    Nat.ofDigitChars_eq_ofDigitChars_zero, Nat.mul_comm]

/-- Digits behind the ninth only make up a part of a nanosecond. -/
theorem digitsValue_take_nine {digits : List Char} (hDigits : ∀ c ∈ digits, isDigit c = true) :
    digitsValue (digits.take 9) * 10 ^ (9 - (digits.take 9).length) =
      digitsValue digits * 10 ^ 9 / 10 ^ digits.length := by
  rcases Nat.le_total digits.length 9 with hShort | hLong
  · rw [List.take_of_length_le hShort]
    refine (Nat.div_eq_of_eq_mul_left (Nat.pow_pos (by decide)) ?_).symm
    rw [Nat.mul_assoc, ← Nat.pow_add, Nat.sub_add_cancel hShort]
  · have hRest : digitsValue (digits.drop 9) < 10 ^ (digits.drop 9).length :=
      digitsValue_lt fun c hMem => hDigits c (List.mem_of_mem_drop hMem)
    have hSplit := digitsValue_append (digits.take 9) (digits.drop 9)
    have hPower : 10 ^ digits.length = 10 ^ (digits.drop 9).length * 10 ^ 9 := by
      rw [← Nat.pow_add, List.length_drop, Nat.sub_add_cancel hLong]
    rw [List.take_append_drop] at hSplit
    rw [List.length_take_of_le hLong, Nat.sub_self, Nat.pow_zero, Nat.mul_one, hPower,
      Nat.mul_div_mul_right _ _ (Nat.pow_pos (by decide)), hSplit]
    rw [Nat.mul_comm, Nat.mul_add_div (Nat.pow_pos (by decide)), Nat.div_eq_of_lt hRest, Nat.add_zero]

/-- From a run of digits, as many are taken as the limit allows. -/
theorem takeDigits_run {digits rest : List Char} (hDigits : ∀ c ∈ digits, isDigit c = true)
    (hRest : StopsBefore isDigit rest) (limit : Nat) :
    takeDigits limit (digits ++ rest) = (digits.take limit, digits.drop limit ++ rest) := by
  induction digits generalizing limit with
  | nil =>
      rw [List.take_nil, List.drop_nil]
      exact takeDigits_append (List.forall_mem_nil _) (Nat.zero_le limit) (.inr hRest)
  | cons c digits ih =>
      obtain ⟨hHead, hTail⟩ := List.forall_mem_cons.mp hDigits
      cases limit with
      | zero => rfl
      | succ limit => rw [List.cons_append, takeDigits, if_pos hHead, ih hTail]; rfl

/-- A run of digits is a fraction, cut after the ninth digit. -/
theorem readFraction_run {digits rest : List Char} (hSome : digits ≠ [])
    (hDigits : ∀ c ∈ digits, isDigit c = true) (hRest : StopsBefore isDigit rest) :
    readFraction (digits ++ rest) =
      .ok (digitsValue digits * 10 ^ 9 / 10 ^ digits.length, rest) := by
  have hDropped : (digits.drop 9 ++ rest).dropWhile isDigit = rest :=
    dropWhile_append (fun c hMem => hDigits c (List.mem_of_mem_drop hMem)) hRest
  have hFirst : digits.take 9 ≠ [] := by simpa using hSome
  rw [← digitsValue_take_nine hDigits, readFraction, takeDigits_run hDigits hRest]
  cases hTake : digits.take 9 with
  | nil => exact (hFirst hTake).elim
  | cons c tail => simp only [hDropped]

theorem exists_run_of_readFraction {s rest : List Char} {nanos : Nat}
    (h : readFraction s = .ok (nanos, rest)) :
    ∃ fraction, IsFraction nanos ('.' :: fraction) ∧ s = fraction ++ rest := by
  have hDigits : ∀ c ∈ s.takeWhile isDigit, isDigit c = true :=
    List.all_eq_true.mp List.all_takeWhile
  have hRest := stopsBefore_dropWhile isDigit s
  rw [← List.takeWhile_append_dropWhile (p := isDigit) (l := s)] at h
  by_cases hSome : s.takeWhile isDigit = []
  · have hNone : takeDigits 9 (s.dropWhile isDigit) = ([], s.dropWhile isDigit) :=
      takeDigits_run (List.forall_mem_nil _) hRest 9
    rw [hSome, List.nil_append, readFraction, hNone] at h
    cases hDropped : s.dropWhile isDigit <;> simp [hDropped] at h
  · rw [readFraction_run hSome hDigits hRest] at h
    obtain ⟨rfl, rfl⟩ := Prod.mk.inj (Except.ok.inj h)
    exact ⟨s.takeWhile isDigit, .some hSome hDigits, List.takeWhile_append_dropWhile.symm⟩

theorem length_le_byteLength (s : List Char) : s.length ≤ byteLength s := by
  induction s with
  | nil => exact Nat.le_refl 0
  | cons c s ih =>
      have hOne := Char.utf8Size_pos c
      have hCons : byteLength (c :: s) = c.utf8Size + byteLength s := rfl
      rw [hCons, List.length_cons]
      omega

theorem isField_two_iff {n : Nat} {s : List Char} :
    IsField 2 n s ↔ ∃ c d, isDigit c = true ∧ isDigit d = true ∧ s = [c, d] ∧
      n = (c.toNat - '0'.toNat) * 10 + (d.toNat - '0'.toNat) := by
  constructor
  · rintro ⟨hLength, hDigits, rfl⟩
    obtain ⟨c, d, rfl⟩ := List.length_eq_two.mp hLength
    exact ⟨c, d, hDigits c (by simp), hDigits d (by simp), rfl, by simp [digitsValue]⟩
  · rintro ⟨c, d, hc, hd, rfl, rfl⟩
    exact ⟨rfl, by simp [hc, hd], by simp [digitsValue]⟩

/-- The two digits of a field are told apart by the second one. -/
theorem offsetDigits_eq_ok_iff {s rest : List Char} {tens ones : Nat} :
    offsetDigits s = .ok (tens, ones, rest) ↔
      ∃ field, IsField 2 (tens * 10 + ones) field ∧ ones < 10 ∧ s = field ++ rest := by
  unfold offsetDigits
  rw [ite_error_eq_ok_iff]
  constructor
  · rintro ⟨-, h⟩
    rcases s with _ | ⟨c, _ | ⟨d, tail⟩⟩
    · cases h
    · cases h
    · obtain ⟨hDigits, hRead⟩ := ite_eq_ok_iff.mp h
      obtain ⟨hc, hd⟩ := Bool.and_eq_true_iff.mp hDigits
      obtain ⟨rfl, rfl, rfl⟩ : _ = tens ∧ _ = ones ∧ tail = rest := by simpa using hRead
      exact ⟨[c, d], isField_two_iff.mpr ⟨c, d, hc, hd, rfl, rfl⟩, digitOf_lt hd, rfl⟩
  · rintro ⟨field, hField, hOnes, rfl⟩
    obtain ⟨c, d, hc, hd, rfl, hValue⟩ := isField_two_iff.mp hField
    have hLast := digitOf_lt hd
    have hLength := length_le_byteLength ([c, d] ++ rest)
    rw [List.length_append] at hLength
    obtain rfl : tens = c.toNat - '0'.toNat := by omega
    obtain rfl : ones = d.toNat - '0'.toNat := by omega
    exact ⟨Nat.not_lt.mpr (Nat.le_of_add_right_le hLength), if_pos (by rw [hc, hd]; rfl)⟩

theorem offsetColon_eq_ok_iff {s rest : List Char} : offsetColon s = .ok rest ↔ s = ':' :: rest := by
  unfold offsetColon
  split <;> simp_all

/-- Hours and minutes of an offset are two fields with a colon between them. -/
theorem readOffsetFields_eq_ok_iff {east : Bool} {s rest : List Char} {offset : Int} :
    readOffsetFields offsetColon east s = .ok (offset, rest) ↔
      ∃ hours minutes h m, IsField 2 hours h ∧ IsField 2 minutes m ∧ minutes ≤ 59 ∧
        (if east then ((hours * 3600 + minutes * 60 : Nat) : Int)
          else -((hours * 3600 + minutes * 60 : Nat) : Int)) = offset ∧
        s = h ++ ':' :: (m ++ rest) := by
  simp only [readOffsetFields, bind_eq_ok_iff, ite_error_eq_ok_iff, Prod.exists, offsetDigits_eq_ok_iff,
    offsetColon_eq_ok_iff, Except.ok.injEq, Prod.mk.injEq]
  constructor
  · rintro ⟨a, b, _, ⟨h, hHours, -, rfl⟩, _, rfl, a', b', _, ⟨m, hMinutes, hLast, rfl⟩, hTens,
      hOffset, rfl⟩
    exact ⟨_, _, h, m, hHours, hMinutes, by omega, hOffset, rfl⟩
  · rintro ⟨hours, minutes, h, m, hHours, hMinutes, hMinute, hOffset, rfl⟩
    have hDigits (n : Nat) : n / 10 * 10 + n % 10 = n := by omega
    refine ⟨hours / 10, hours % 10, _, ⟨h, ?_, by omega, rfl⟩, _, rfl, minutes / 10, minutes % 10, _,
      ⟨m, ?_, by omega, rfl⟩, by omega, ?_, rfl⟩
    · rwa [hDigits]
    · rwa [hDigits]
    · rwa [hDigits, hDigits]

/-- An offset is read up to its end. That its hours are those of a day is seen later. -/
theorem readOffset_eq_ok_iff {s rest : List Char} {offset : Int} :
    readOffset offsetColon s = .ok (offset, rest) ∧ -86400 < offset ∧ offset < 86400 ↔
      ∃ spelled, IsOffset offset spelled ∧ s = spelled ++ rest := by
  constructor
  · rintro ⟨h, hWest, hEast⟩
    unfold readOffset at h
    split at h
    · obtain ⟨rfl, rfl⟩ := Prod.mk.inj (Except.ok.inj h)
      exact ⟨['Z'], .utc (.inl rfl), rfl⟩
    · obtain ⟨rfl, rfl⟩ := Prod.mk.inj (Except.ok.inj h)
      exact ⟨['z'], .utc (.inr rfl), rfl⟩
    · obtain ⟨hours, minutes, h, m, hHours, hMinutes, hMinute, rfl, rfl⟩ :=
        readOffsetFields_eq_ok_iff.mp h
      exact ⟨_, .east hHours hMinutes (by simp at hEast; omega) hMinute, by simp⟩
    · obtain ⟨hours, minutes, h, m, hHours, hMinutes, hMinute, rfl, rfl⟩ :=
        readOffsetFields_eq_ok_iff.mp h
      exact ⟨_, .west (.inl rfl) hHours hMinutes (by simp at hWest; omega) hMinute, by simp⟩
    · obtain ⟨hours, minutes, h, m, hHours, hMinutes, hMinute, rfl, rfl⟩ :=
        readOffsetFields_eq_ok_iff.mp h
      exact ⟨_, .west (.inr rfl) hHours hMinutes (by simp at hWest; omega) hMinute, by simp⟩
    · cases h
    · cases h
  · rintro ⟨spelled, hSpelled, rfl⟩
    cases hSpelled with
    | utc hMark => rcases hMark with rfl | rfl <;> exact ⟨rfl, by decide, by decide⟩
    | east hHours hMinutes hHour hMinute =>
        refine ⟨?_, by omega, by omega⟩
        exact readOffsetFields_eq_ok_iff.mpr ⟨_, _, _, _, hHours, hMinutes, hMinute, rfl, by simp⟩
    | west hSign hHours hMinutes hHour hMinute =>
        refine ⟨?_, by omega, by omega⟩
        rcases hSign with rfl | rfl <;>
          exact readOffsetFields_eq_ok_iff.mpr ⟨_, _, _, _, hHours, hMinutes, hMinute, rfl, by simp⟩

theorem IsFraction.lt {nanos : Nat} {s : List Char} (h : IsFraction nanos s) :
    nanos < nanosPerSecond := by
  cases h with
  | none => decide
  | @some digits hSome hDigits =>
      have hPower : 0 < 10 ^ 9 := by decide
      refine Nat.div_lt_of_lt_mul ?_
      calc digitsValue digits * 10 ^ 9 < 10 ^ digits.length * 10 ^ 9 :=
            Nat.mul_lt_mul_of_pos_right (digitsValue_lt hDigits) hPower
        _ = 10 ^ digits.length * nanosPerSecond := rfl

theorem IsField.lt {width n : Nat} {s : List Char} (h : IsField width n s) : n < 10 ^ width := by
  rw [← h.value_eq, ← h.length_eq]
  exact digitsValue_lt h.isDigit_of_mem

/-- A clock is within a day, and its second 60 is a leap second. -/
theorem secondOfDay?_eq_some_iff {hour minute second clock extra : Nat} :
    secondOfDay? hour minute second = some (clock, extra) ↔ (hour ≤ 23 ∧ minute ≤ 59 ∧ second ≤ 60) ∧
      hour * 3600 + minute * 60 + min second 59 = clock ∧
      (if second = 60 then nanosPerSecond else 0) = extra := by
  unfold secondOfDay?
  split
  · rename_i hOut
    simp only [Bool.or_eq_true, decide_eq_true_eq] at hOut
    refine iff_of_false (by simp) ?_
    omega
  · rename_i hIn
    simp only [Bool.or_eq_true, decide_eq_true_eq] at hIn
    have hRange : hour ≤ 23 ∧ minute ≤ 59 ∧ second ≤ 60 := by omega
    rw [iff_true_intro hRange, true_and]
    split
    · rename_i hLeap
      simp [hLeap]
    · have hSecond : min second 59 = second := by omega
      simp [hSecond]

/-- The end of the reading, with the fraction and what stands behind it. -/
def readEnd (date : Date) (hour minute second : Nat) (read : Nat × List Char) :
    Except TimeError Instant :=
  match secondOfDay? hour minute second with
  | none => .error .outOfRange
  | some (clock, extra) => do
    let (offset, s) ← readOffset offsetColon read.2
    if !s.isEmpty then .error .trailing
    else atOffset (Instant.ofDate date clock (extra + read.1)) offset

/-- Nothing may stand behind the offset, and the instant has to lie in the calendar. -/
theorem readEnd_eq_ok_iff {date : Date} {hour minute second nanos : Nat} {rest : List Char}
    {t : Instant} :
    readEnd date hour minute second (nanos, rest) = .ok t ↔
      ∃ clock extra offset,
        secondOfDay? hour minute second = some (clock, extra) ∧ IsOffset offset rest ∧
        (Instant.ofDate date clock (extra + nanos)).shift (-offset) = t ∧ t.isRepresentable = true := by
  unfold readEnd
  cases hClock : secondOfDay? hour minute second with
  | none => simp
  | some found =>
      obtain ⟨clock, extra⟩ := found
      simp only [bind_eq_ok_iff, ite_error_eq_ok_iff, Prod.exists, atOffset, ite_eq_ok_iff]
      constructor
      · rintro ⟨offset, left, hRead, hEnd, hOffset, hRepresentable, ht⟩
        obtain rfl : left = [] := by simpa using hEnd
        simp only [Bool.or_eq_true, decide_eq_true_eq, not_or, Int.not_le] at hOffset
        obtain ⟨spelled, hSpelled, rfl⟩ := readOffset_eq_ok_iff.mp ⟨hRead, hOffset⟩
        obtain rfl := Except.ok.inj ht
        exact ⟨clock, extra, offset, rfl, by rwa [List.append_nil], rfl, hRepresentable⟩
      · rintro ⟨clock', extra', offset, hFound, hSpelled, rfl, hRepresentable⟩
        obtain ⟨rfl, rfl⟩ := Prod.mk.inj (Option.some.inj hFound)
        obtain ⟨hRead, hWest, hEast⟩ :=
          readOffset_eq_ok_iff.mpr ⟨rest, hSpelled, (List.append_nil rest).symm⟩
        exact ⟨offset, [], hRead, by simp, by simp [hWest, hEast], hRepresentable, rfl⟩

section Fraction

variable (last : Nat × List Char → Except TimeError Instant) {s : List Char} {t : Instant}

/-- A point starts a fraction, and where there is none the fraction is zero. -/
theorem exists_fraction
    (h : (match s with
      | '.' :: rest => readFraction rest >>= last
      | _ => last (0, s)) = .ok t) :
    ∃ nanos fraction rest,
      IsFraction nanos fraction ∧ s = fraction ++ rest ∧ last (nanos, rest) = .ok t := by
  split at h
  · obtain ⟨⟨nanos, rest⟩, hRead, hLast⟩ := bind_eq_ok_iff.mp h
    obtain ⟨digits, hFraction, rfl⟩ := exists_run_of_readFraction hRead
    exact ⟨nanos, _, rest, hFraction, rfl, hLast⟩
  · exact ⟨0, [], s, .none, rfl, h⟩

/-- A fraction is read up to the offset, which starts with neither a point nor a digit. -/
theorem readFraction_offset {nanos : Nat} {fraction spelled : List Char} {offset : Int}
    (hFraction : IsFraction nanos fraction) (hOffset : IsOffset offset spelled) :
    (match fraction ++ spelled with
      | '.' :: rest => readFraction rest >>= last
      | _ => last (0, fraction ++ spelled)) = last (nanos, spelled) := by
  have hMark : ∃ c rest, spelled = c :: rest ∧ c ≠ '.' ∧ isDigit c = false := by
    cases hOffset with
    | utc hMark => rcases hMark with rfl | rfl <;> exact ⟨_, _, rfl, by decide, by decide⟩
    | east => exact ⟨_, _, rfl, by decide, by decide⟩
    | west hSign => rcases hSign with rfl | rfl <;> exact ⟨_, _, rfl, by decide, by decide⟩
  obtain ⟨c, rest, rfl, hPoint, hOther⟩ := hMark
  cases hFraction with
  | none => simp [hPoint]
  | @some digits hSome hDigits =>
      have hRead := readFraction_run hSome hDigits ((stopsBefore_cons isDigit c rest).mpr hOther)
      show (readFraction (digits ++ c :: rest) >>= last) = _
      rw [hRead]
      rfl

end Fraction

/-- A valid stamp with a year of four digits can be represented, whatever its offset. -/
theorem Stamp.isRepresentable_instant {stamp : Stamp} (hValid : stamp.IsValid)
    (hYear : stamp.year < 10000) (hNanos : stamp.nanos < nanosPerSecond) (hWest : -86400 < stamp.offset)
    (hEast : stamp.offset < 86400) :
    stamp.instant.isRepresentable = true := by
  obtain ⟨hFirst, hLast⟩ := Date.toDays_bounds_of_fourDigits hValid.date (by simp [Stamp.date])
    (by simp only [Stamp.date]; omega)
  have hHour := hValid.hour_le
  have hMinute := hValid.minute_le
  rw [Instant.isRepresentable_iff, Instant.firstSecond_eq, Instant.lastSecond_eq]
  simp only [daysBeforeYear, epochDays, Stamp.instant] at hFirst hLast ⊢
  refine ⟨by omega, by omega, ?_⟩
  split <;> omega

/-- The texts that are read as times are the spellings of stamps of the calendar, each as the instant
that is meant. -/
theorem Instant.parse_eq_ok_iff {s : List Char} {t : Instant} :
    Instant.parse s = .ok t ↔ ∃ stamp : Stamp, stamp.IsValid ∧ stamp.Spells s ∧ stamp.instant = t := by
  simp only [Instant.parse, bind_eq_ok_iff, ite_error_eq_ok_iff, Prod.exists, digitsExactly_eq_ok_iff,
    expect_eq_ok_iff]
  constructor
  · rintro ⟨-, year, _, ⟨y, hYear, rfl⟩, _, ⟨_, hDash, rfl⟩, month, _, ⟨m, hMonth, rfl⟩, _,
      ⟨_, hDash', rfl⟩, day, _, ⟨d, hDay, rfl⟩, hDate, _, ⟨separator, hSeparator, rfl⟩, hour, _,
      ⟨h, hHour, rfl⟩, _, ⟨_, hColon, rfl⟩, minute, _, ⟨mi, hMinute, rfl⟩, _, ⟨_, hColon', rfl⟩,
      second, rest, ⟨se, hSecond, rfl⟩, hEnd⟩
    obtain rfl := of_decide_eq_true hDash
    obtain rfl := of_decide_eq_true hDash'
    obtain rfl := of_decide_eq_true hColon
    obtain rfl := of_decide_eq_true hColon'
    obtain ⟨nanos, fraction, rest, hFraction, rfl, hLast⟩ :=
      exists_fraction (readEnd ⟨year, month, day⟩ hour minute second) hEnd
    obtain ⟨clock, extra, offset, hClock, hOffset, rfl, -⟩ := readEnd_eq_ok_iff.mp hLast
    obtain ⟨⟨hHourLe, hMinuteLe, hSecondLe⟩, rfl, rfl⟩ := secondOfDay?_eq_some_iff.mp hClock
    refine ⟨⟨year, month, day, hour, minute, second, nanos, offset⟩, ⟨?_, hHourLe, hMinuteLe, hSecondLe⟩,
      ⟨y, m, d, h, mi, se, fraction, rest, separator, rfl, hSeparator, hYear, hMonth, hDay, hHour,
        hMinute, hSecond, hFraction, hOffset⟩, ?_⟩
    · simpa [Stamp.date] using hDate
    · rw [Stamp.instant, Instant.shift, Instant.ofDate, Nat.add_comm nanos]
      rfl
  · rintro ⟨stamp, hValid, ⟨y, m, d, h, mi, se, fraction, offset, separator, rfl, hSeparator, hYear,
      hMonth, hDay, hHour, hMinute, hSecond, hFraction, hOffset⟩, rfl⟩
    refine ⟨?_, _, _, ⟨y, hYear, rfl⟩, _, ⟨'-', rfl, rfl⟩, _, _, ⟨m, hMonth, rfl⟩, _, ⟨'-', rfl, rfl⟩,
      _, _, ⟨d, hDay, rfl⟩, ?_, _, ⟨separator, hSeparator, rfl⟩, _, _, ⟨h, hHour, rfl⟩, _,
      ⟨':', rfl, rfl⟩, _, _, ⟨mi, hMinute, rfl⟩, _, ⟨':', rfl, rfl⟩, _, _, ⟨se, hSecond, rfl⟩, ?_⟩
    · have hBytes := length_le_byteLength (y ++ '-' :: (m ++ '-' :: (d ++ separator ::
        (h ++ ':' :: (mi ++ ':' :: (se ++ (fraction ++ offset)))))))
      simp only [List.length_append, List.length_cons, hYear.length_eq, hMonth.length_eq, hDay.length_eq,
        hHour.length_eq, hMinute.length_eq, hSecond.length_eq] at hBytes
      omega
    · simpa [Stamp.date] using hValid.date
    · have hEnd := readFraction_offset (readEnd ⟨stamp.year, stamp.month, stamp.day⟩ stamp.hour
        stamp.minute stamp.second) hFraction hOffset
      refine hEnd.trans (readEnd_eq_ok_iff.mpr ⟨_, _, stamp.offset, secondOfDay?_eq_some_iff.mpr
        ⟨⟨hValid.hour_le, hValid.minute_le, hValid.second_le⟩, rfl, rfl⟩, hOffset, ?_, ?_⟩)
      · rw [Instant.shift, Instant.ofDate, Nat.add_comm _ stamp.nanos]
        rfl
      · obtain ⟨-, hWest, hEast⟩ :=
          readOffset_eq_ok_iff.mpr ⟨offset, hOffset, (List.append_nil offset).symm⟩
        exact Stamp.isRepresentable_instant hValid hYear.lt hFraction.lt hWest hEast

end BanBoard.Time
