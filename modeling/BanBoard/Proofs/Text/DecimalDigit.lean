import BanBoard.Proofs.Text.Decimal
import BanBoard.Text.Blank
import BanBoard.Text.DecimalDigit

/-!
A number among blanks. Its numeral is the first run of digits there, because no blank is a digit of any
script, and reading the numeral gives the number when it is in range. Nothing but a numeral in range is
read as a bounded number.
-/

namespace BanBoard.Text

/-- The ASCII digits are decimal digits of Unicode. -/
theorem isDecimalDigit_of_isDigit {c : Char} (h : isDigit c = true) : isDecimalDigit c = true := by
  obtain ⟨hLow, hHigh⟩ := toNat_of_isDigit h
  simp [isDecimalDigit, decimalZeros, hLow, hHigh]

theorem isDecimalDigit_of_isBlank {c : Char} (h : isBlank c = true) : isDecimalDigit c = false := by
  simp [isBlank] at h
  simp [isDecimalDigit, decimalZeros]
  omega

/-- The first digits of a text are the first run of them. -/
theorem firstDigits_append {gap digits rest : List Char} (hGap : ∀ c ∈ gap, isDecimalDigit c = false)
    (hDigits : ∀ c ∈ digits, isDecimalDigit c = true) (hSome : digits ≠ [])
    (hRest : StopsBefore isDecimalDigit rest) : firstDigits (gap ++ digits ++ rest) = digits := by
  obtain ⟨c, tail, rfl⟩ := List.exists_cons_of_ne_nil hSome
  have hStart : StopsBefore (fun c => !isDecimalDigit c) (c :: (tail ++ rest)) := by
    simp [hDigits c List.mem_cons_self]
  have hBefore : ∀ c ∈ gap, (!isDecimalDigit c) = true := by simpa using hGap
  rw [firstDigits, List.append_assoc, List.cons_append, dropWhile_append hBefore hStart,
    ← List.cons_append, takeWhile_append hDigits hRest]

theorem digitValue?_of_isDigit {c : Char} (h : isDigit c = true) :
    digitValue? 10 c = some (c.toNat - '0'.toNat) := by
  have hRange : '0' ≤ c ∧ c ≤ '9' := by simpa [isDigit] using h
  simp only [digitValue?, if_pos hRange, if_pos (digitOf_lt h)]

theorem le_foldl_digits (digits : List Char) (acc : Nat) :
    acc ≤ digits.foldl (fun acc c => acc * 10 + (c.toNat - '0'.toNat)) acc := by
  induction digits generalizing acc with
  | nil => simp
  | cons c digits ih =>
      have hStep : acc ≤ acc * 10 + (c.toNat - '0'.toNat) := by omega
      exact Nat.le_trans hStep (ih _)

/-- Digits are read as their value while it is within the bound. Since the value only grows, the bound holds
on the way too. -/
theorem readDigits_eq {bound acc : Nat} {digits : List Char} (hDigits : ∀ c ∈ digits, isDigit c = true)
    (hBound : digits.foldl (fun acc c => acc * 10 + (c.toNat - '0'.toNat)) acc ≤ bound) :
    readDigits 10 bound acc digits =
      .ok (digits.foldl (fun acc c => acc * 10 + (c.toNat - '0'.toNat)) acc) := by
  induction digits generalizing acc with
  | nil => rfl
  | cons c digits ih =>
      obtain ⟨hHead, hTail⟩ := List.forall_mem_cons.mp hDigits
      have hFits := Nat.le_trans (le_foldl_digits digits _) hBound
      rw [readDigits, digitValue?_of_isDigit hHead]
      dsimp only
      rw [if_pos hFits]
      exact ih hTail hBound

/-- A numeral is read back if the number is within the bound. -/
theorem readUnsigned_decimal {bound n : Nat} (h : n ≤ bound) :
    readUnsigned 10 bound (decimal n) = .ok n := by
  have hDigits : ∀ c ∈ decimal n, isDigit c = true := fun _ => isDigit_of_mem_decimal
  have hValue := digitsValue_decimal n
  obtain ⟨c, tail, hText, hDigit⟩ := decimal_eq_cons n
  have hPlus : c ≠ '+' := ne_of_isDigit hDigit (by decide)
  have hRead : readUnsigned 10 bound (decimal n) = readDigits 10 bound 0 (decimal n) := by
    rw [hText]
    simp [readUnsigned, hPlus]
  rw [digitsValue] at hValue
  rw [hRead, readDigits_eq hDigits (by rwa [hValue]), hValue]

/-- A numeral between blanks is the first number of the text. -/
theorem firstNumber?_decimal {gap rest : List Char} (hGap : isBlankText gap = true)
    (hRest : isBlankText rest = true) {n : Nat} (h : n ≤ maxWord64) :
    firstNumber? (gap ++ decimal n ++ rest) = some n := by
  have hBlank {s : List Char} (hs : isBlankText s = true) : ∀ c ∈ s, isDecimalDigit c = false := by
    intro c hMem
    exact isDecimalDigit_of_isBlank (List.all_eq_true.mp hs c hMem)
  have hDigits : ∀ c ∈ decimal n, isDecimalDigit c = true := by
    intro c hMem
    exact isDecimalDigit_of_isDigit (isDigit_of_mem_decimal hMem)
  have hStops : StopsBefore isDecimalDigit rest := by
    intro c hHead
    exact hBlank hRest c (List.mem_of_mem_head? hHead)
  rw [firstNumber?, firstDigits_append (hBlank hGap) hDigits (decimal_ne_nil n) hStops,
    readUnsigned_decimal h]

section Numeral

variable {bound : Nat}

theorem isDigit_of_digitValue? {c : Char} {d : Nat} (h : digitValue? 10 c = some d) :
    isDigit c = true := by
  cases hOther : isDigit c with
  | true => rfl
  | false =>
      have hRange : ¬ ('0' ≤ c ∧ c ≤ '9') := by simpa [isDigit] using hOther
      simp only [digitValue?, if_neg hRange] at h
      grind

/-- What is read is the value of digits within the bound. -/
theorem readDigits_eq_ok {acc n : Nat} {s : List Char} (hAcc : acc ≤ bound)
    (h : readDigits 10 bound acc s = .ok n) :
    (∀ c ∈ s, isDigit c = true) ∧
      s.foldl (fun acc c => acc * 10 + (c.toNat - '0'.toNat)) acc = n ∧ n ≤ bound := by
  induction s generalizing acc with
  | nil =>
      obtain rfl := Except.ok.inj h
      exact ⟨List.forall_mem_nil _, rfl, hAcc⟩
  | cons c s ih =>
      cases hDigit : digitValue? 10 c with
      | none => simp [readDigits, hDigit] at h
      | some d =>
          have hValue := digitValue?_of_isDigit (isDigit_of_digitValue? hDigit)
          obtain rfl := Option.some.inj (hDigit.symm.trans hValue)
          rw [readDigits, hDigit] at h
          dsimp only at h
          split at h
          · rename_i hFits
            obtain ⟨hTail, hRest⟩ := ih hFits h
            exact ⟨List.forall_mem_cons.mpr ⟨isDigit_of_digitValue? hDigit, hTail⟩, hRest⟩
          · cases h

/-- A bounded number is written with decimal digits, and a plus sign may stand before them. -/
def IsNumeral (bound : Nat) (s : List Char) (n : Nat) : Prop :=
  ∃ digits, (s = digits ∨ s = '+' :: digits) ∧ digits ≠ [] ∧ (∀ c ∈ digits, isDigit c = true) ∧
    digitsValue digits = n ∧ n ≤ bound

theorem IsNumeral.le_bound {s : List Char} {n : Nat} (h : IsNumeral bound s n) : n ≤ bound :=
  let ⟨_, _, _, _, _, hBound⟩ := h
  hBound

/-- Reading a number succeeds just on its numerals. -/
theorem readUnsigned_eq_ok_iff {s : List Char} {n : Nat} :
    readUnsigned 10 bound s = .ok n ↔ IsNumeral bound s n := by
  have hDigits {s : List Char} (h : readDigits 10 bound 0 s = .ok n) :=
    readDigits_eq_ok (Nat.zero_le bound) h
  constructor
  · intro h
    unfold readUnsigned at h
    split at h
    · cases h
    · cases h
    · rename_i rest hSome
      exact ⟨rest, Or.inr rfl, fun hNone => hSome (hNone ▸ rfl), hDigits h⟩
    · rename_i hSome _ _
      exact ⟨s, Or.inl rfl, hSome, hDigits h⟩
  · rintro ⟨digits, hText, hSome, hAll, hValue, hBound⟩
    have hRead : readDigits 10 bound 0 digits = .ok n := by
      rw [digitsValue] at hValue
      rw [readDigits_eq hAll (by rwa [hValue]), hValue]
    obtain ⟨c, rest, rfl⟩ := List.exists_cons_of_ne_nil hSome
    have hPlus : c ≠ '+' := ne_of_isDigit (hAll c List.mem_cons_self) (by decide)
    rcases hText with rfl | rfl
    · simpa [readUnsigned, hPlus] using hRead
    · simpa [readUnsigned] using hRead

end Numeral

end BanBoard.Text
