import BanBoard.Text.Blank
import BanBoard.Text.Decimal

/-!
What numerals are read back as. A written numeral has its own value, padded or not, and a reader of
digits stops exactly where the digits end.
-/

namespace BanBoard.Text

/-- A text whose first character, if there is one, does not satisfy `p`, so a reader of such
characters stops before it. -/
def StopsBefore (p : Char → Bool) (s : List Char) : Prop := ∀ c ∈ s.head?, p c = false

instance (p : Char → Bool) (s : List Char) : Decidable (StopsBefore p s) :=
  Option.decidableForallMem s.head?

@[simp] theorem stopsBefore_nil (p : Char → Bool) : StopsBefore p [] := by simp [StopsBefore]

@[simp] theorem stopsBefore_cons (p : Char → Bool) (c : Char) (s : List Char) :
    StopsBefore p (c :: s) ↔ p c = false := by simp [StopsBefore]

theorem StopsBefore.dropWhile_eq {p : Char → Bool} {s : List Char} (h : StopsBefore p s) :
    s.dropWhile p = s := by
  cases s with
  | nil => rfl
  | cons c s =>
      rw [stopsBefore_cons] at h
      simp [h]

theorem StopsBefore.takeWhile_eq {p : Char → Bool} {s : List Char} (h : StopsBefore p s) :
    s.takeWhile p = [] := by
  cases s with
  | nil => rfl
  | cons c s =>
      rw [stopsBefore_cons] at h
      simp [h]

theorem stopsBefore_dropWhile (p : Char → Bool) (s : List Char) : StopsBefore p (s.dropWhile p) := by
  induction s with
  | nil => simp
  | cons c s ih =>
      cases hc : p c with
      | false => simp [hc]
      | true => simpa [hc] using ih

/-- A run is taken up to where the text stops. -/
theorem takeWhile_append {p : Char → Bool} {s rest : List Char} (hAll : ∀ c ∈ s, p c = true)
    (hRest : StopsBefore p rest) : (s ++ rest).takeWhile p = s := by
  rw [List.takeWhile_append_of_pos hAll, hRest.takeWhile_eq, List.append_nil]

/-- What is left behind a run is where the text stops. -/
theorem dropWhile_append {p : Char → Bool} {s rest : List Char} (hAll : ∀ c ∈ s, p c = true)
    (hRest : StopsBefore p rest) : (s ++ rest).dropWhile p = rest := by
  rw [List.dropWhile_append_of_pos hAll, hRest.dropWhile_eq]

theorem toNat_of_isDigit {c : Char} (h : isDigit c = true) : 48 ≤ c.toNat ∧ c.toNat ≤ 57 := by
  obtain ⟨hLower, hUpper⟩ := Bool.and_eq_true_iff.mp h
  exact ⟨of_decide_eq_true hLower, of_decide_eq_true hUpper⟩

theorem isBlank_of_isDigit {c : Char} (h : isDigit c = true) : isBlank c = false := by
  obtain ⟨hLower, hUpper⟩ := toNat_of_isDigit h
  simp [isBlank]
  omega

/-- The digits that are written for numbers below sixteen have these numbers for values. -/
theorem digitValue?_digitChar {d : Nat} (h : d < 16) : digitValue? 16 d.digitChar = some d := by
  have hAll : ∀ d < 16, digitValue? 16 d.digitChar = some d := by decide
  exact hAll d h

theorem isDigit_of_mem_decimal {n : Nat} {c : Char} (h : c ∈ decimal n) : isDigit c = true :=
  Nat.isDigit_of_mem_toDigits (by decide) (by decide) h

theorem isDigit_of_mem_decimalPadded {width n : Nat} {c : Char} (h : c ∈ decimalPadded width n) :
    isDigit c = true := by
  rcases List.mem_append.mp h with hZero | hDigit
  · rw [List.eq_of_mem_replicate hZero]
    rfl
  · exact isDigit_of_mem_decimal hDigit

theorem decimal_ne_nil (n : Nat) : decimal n ≠ [] := Nat.toDigits_ne_nil

theorem decimalPadded_ne_nil (width n : Nat) : decimalPadded width n ≠ [] := by
  simp [decimalPadded, decimal_ne_nil]

/-- A numeral starts with a digit, so it can be mistaken neither for blanks nor for a sign. -/
theorem decimal_eq_cons (n : Nat) : ∃ c tail, decimal n = c :: tail ∧ isDigit c = true := by
  cases h : decimal n with
  | nil => exact (decimal_ne_nil n h).elim
  | cons c tail => exact ⟨c, tail, rfl, isDigit_of_mem_decimal (h ▸ List.mem_cons_self)⟩

theorem decimalPadded_eq_cons (width n : Nat) :
    ∃ c tail, decimalPadded width n = c :: tail ∧ isDigit c = true := by
  cases h : decimalPadded width n with
  | nil => exact (decimalPadded_ne_nil width n h).elim
  | cons c tail => exact ⟨c, tail, rfl, isDigit_of_mem_decimalPadded (h ▸ List.mem_cons_self)⟩

/-- Only zero has a numeral that starts with a zero. -/
theorem head_decimal_ne_zero {n : Nat} (h : 0 < n) : (decimal n).head? ≠ some '0' := by
  unfold decimal
  induction n using Nat.base_induction 10 (by decide) with
  | single m hm =>
      rw [Nat.toDigits_of_lt_base hm]
      simp
      omega
  | digit m k hk hm ih =>
      rw [← Nat.toDigits_append_toDigits (by decide) hm hk]
      cases hDigits : Nat.toDigits 10 m with
      | nil => exact (Nat.toDigits_ne_nil hDigits).elim
      | cons c tail => simpa [hDigits] using ih hm

/-- A digit differs from everything that is none. -/
theorem ne_of_isDigit {c d : Char} (hc : isDigit c = true) (hd : isDigit d = false) : c ≠ d := by
  rintro rfl
  simp [hd] at hc

/-- A padded numeral is as wide as it should be, if the number fits. -/
theorem length_decimalPadded {width n : Nat} (hWidth : 0 < width) (h : n < 10 ^ width) :
    (decimalPadded width n).length = width := by
  have hLength : (decimal n).length ≤ width := (Nat.length_toDigits_le_iff (by decide) hWidth).2 h
  simp only [decimalPadded, List.length_append, List.length_replicate]
  omega

/-- The value of digits is the one of the standard library. -/
theorem digitsValue_eq (digits : List Char) : digitsValue digits = Nat.ofDigitChars 10 digits 0 := by
  simp only [digitsValue, Nat.ofDigitChars_eq_foldl, Nat.mul_comm 10]

/-- A numeral has the value that it was written for. -/
@[simp] theorem digitsValue_decimal (n : Nat) : digitsValue (decimal n) = n := by
  rw [digitsValue_eq, decimal, Nat.ofDigitChars_ten_toDigits]

@[simp] theorem digitsValue_decimalPadded (width n : Nat) :
    digitsValue (decimalPadded width n) = n := by
  rw [digitsValue_eq, decimalPadded, Nat.ofDigitChars_append, Nat.ofDigitChars_replicate_zero,
    Nat.mul_zero, decimal, Nat.ofDigitChars_ten_toDigits]

theorem digitOf_lt {c : Char} (h : isDigit c = true) : c.toNat - '0'.toNat < 10 := by
  have hUpper := (toNat_of_isDigit h).2
  have hZero : '0'.toNat = 48 := rfl
  omega

/-- The value of digits is below the power of ten of their number. -/
theorem digitsValue_lt {digits : List Char} (h : ∀ c ∈ digits, isDigit c = true) :
    digitsValue digits < 10 ^ digits.length := by
  suffices hAll : ∀ acc, digits.foldl (fun acc c => acc * 10 + (c.toNat - '0'.toNat)) acc <
      (acc + 1) * 10 ^ digits.length by simpa [digitsValue] using hAll 0
  induction digits with
  | nil => simp
  | cons c digits ih =>
      intro acc
      have hDigit := digitOf_lt (h c List.mem_cons_self)
      have hTail := ih (fun d hd => h d (List.mem_cons_of_mem c hd))
        (acc * 10 + (c.toNat - '0'.toNat))
      rw [List.foldl_cons, List.length_cons, Nat.pow_succ']
      calc _ < (acc * 10 + (c.toNat - '0'.toNat) + 1) * 10 ^ digits.length := hTail
        _ ≤ ((acc + 1) * 10) * 10 ^ digits.length := Nat.mul_le_mul_right _ (by omega)
        _ = (acc + 1) * (10 * 10 ^ digits.length) := Nat.mul_assoc ..

theorem decimal_digitOf {c : Char} (h : isDigit c = true) : decimal (c.toNat - '0'.toNat) = [c] := by
  have hLow := digitOf_lt h
  have hChar : (c.toNat - '0'.toNat).digitChar = c := by
    apply Char.toNat_inj.mp
    rw [Nat.toNat_digitChar_of_lt_ten hLow]
    exact Nat.add_sub_cancel' (toNat_of_isDigit h).1
  rw [decimal, Nat.toDigits_of_lt_base hLow, hChar]

/-- Digits behind a number that is not zero are the rest of its numeral. -/
theorem decimal_foldl {digits : List Char} (hDigits : ∀ c ∈ digits, isDigit c = true) {acc : Nat}
    (hAcc : 0 < acc) :
    decimal (digits.foldl (fun acc c => acc * 10 + (c.toNat - '0'.toNat)) acc) =
      decimal acc ++ digits := by
  induction digits generalizing acc with
  | nil => simp
  | cons c digits ih =>
      obtain ⟨hc, hTail⟩ := List.forall_mem_cons.mp hDigits
      have hStep : decimal (acc * 10 + (c.toNat - '0'.toNat)) = decimal acc ++ [c] := by
        rw [← decimal_digitOf hc, decimal, decimal, decimal,
          Nat.toDigits_append_toDigits (by decide) hAcc (digitOf_lt hc), Nat.mul_comm]
      rw [List.foldl_cons, ih hTail (by omega), hStep, List.append_assoc, List.singleton_append]

/-- Digits without an idle zero in front are the numeral of their value. -/
theorem decimal_digitsValue {digits : List Char} (hSome : digits ≠ [])
    (hDigits : ∀ c ∈ digits, isDigit c = true)
    (hZero : digits.head? = some '0' → digits.length ≤ 1) : decimal (digitsValue digits) = digits := by
  obtain ⟨c, tail, rfl⟩ := List.exists_cons_of_ne_nil hSome
  obtain ⟨hc, hTail⟩ := List.forall_mem_cons.mp hDigits
  have hChar := decimal_digitOf hc
  rw [digitsValue, List.foldl_cons, Nat.zero_mul, Nat.zero_add]
  rcases Nat.eq_zero_or_pos (c.toNat - '0'.toNat) with hNone | hPos
  · have hHead : c = '0' := by
      rw [hNone] at hChar
      exact (List.cons.inj hChar).1.symm
    have hShort : tail = [] := by
      have hLength := hZero (congrArg some hHead)
      exact List.length_eq_zero_iff.mp (Nat.le_zero.mp (Nat.le_of_succ_le_succ hLength))
    rw [hShort, List.foldl_nil, hChar]
  · rw [decimal_foldl hTail hPos, hChar, List.singleton_append]

/-- Digits are split off as a whole when nothing more can follow them: the limit is reached, or what
comes next is no digit. -/
theorem takeDigits_append {limit : Nat} {digits rest : List Char}
    (hDigits : ∀ c ∈ digits, isDigit c = true) (hLength : digits.length ≤ limit)
    (hRest : digits.length = limit ∨ StopsBefore isDigit rest) :
    takeDigits limit (digits ++ rest) = (digits, rest) := by
  induction digits generalizing limit with
  | nil =>
      cases limit with
      | zero => simp [takeDigits]
      | succ limit =>
          cases rest with
          | nil => simp [takeDigits]
          | cons c rest =>
              have hc : isDigit c = false := by simpa using hRest
              simp [takeDigits, hc]
  | cons c digits ih =>
      cases limit with
      | zero => simp at hLength
      | succ limit =>
          have hc := hDigits c List.mem_cons_self
          have hTail := @ih limit (fun d hd => hDigits d (List.mem_cons_of_mem c hd))
            (by simpa using hLength) (by simpa using hRest)
          simp [takeDigits, hc, hTail]

/-- What is taken are digits, and no more than the limit. -/
theorem takeDigits_fst {limit : Nat} {s : List Char} :
    (∀ c ∈ (takeDigits limit s).1, isDigit c = true) ∧ (takeDigits limit s).1.length ≤ limit := by
  fun_induction takeDigits limit s with
  | case1 => simp
  | case2 => simp
  | case3 limit c rest hc digits after hTail ih =>
      rw [hTail] at ih
      simpa [hc] using ih
  | case4 => simp

end BanBoard.Text
