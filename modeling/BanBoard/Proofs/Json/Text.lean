import BanBoard.Json.Text
import BanBoard.Proofs.Text.Decimal

/-!
String literals are read back as the text they were written for. Everything rests on one fact about a
single character: what is written for it is either the character itself or a backslash with one unit.
-/

namespace BanBoard.Json

open BanBoard.Text

/-- The four digits of a control character are read as its code point. -/
theorem readHex_hexPair {n : Nat} (h : n < 32) (rest : List Char) :
    readHex 4 0 ('0' :: '0' :: hexPair n ++ rest) = some (n, rest) := by
  have hZero : digitValue? 16 '0' = some 0 := rfl
  have hHigh := digitValue?_digitChar (by omega : n / 16 < 16)
  have hLow := digitValue?_digitChar (by omega : n % 16 < 16)
  have hValue : n / 16 * 16 + n % 16 = n := by omega
  simp [readHex, hexPair, hZero, hHigh, hLow, hValue]

/-- A short escape is read as the character it stands for. -/
theorem readUnit_short {letter c : Char} (hLetter : letter ≠ 'u')
    (h : shortEscape? letter = some c) (rest : List Char) :
    readUnit ([letter] ++ rest) = some (c.toNat, rest) := by
  simp [readUnit, hLetter, h]

/-- A character is written as a backslash and one unit, or as it is when nothing forbids it. -/
theorem escape_cases (c : Char) :
    (∃ body, escape c = '\\' :: body ∧ ∀ rest, readUnit (body ++ rest) = some (c.toNat, rest)) ∨
      (escape c = [c] ∧ c ≠ '"' ∧ c ≠ '\\' ∧ isControl c = false) := by
  unfold escape
  iterate 7
    split
    · subst c
      exact Or.inl ⟨_, rfl, readUnit_short (by decide) rfl⟩
  split
  · rename_i hControl
    refine Or.inl ⟨_, rfl, fun rest => ?_⟩
    have hSmall : c.toNat < 32 := of_decide_eq_true hControl
    simpa [readUnit] using readHex_hexPair hSmall rest
  · rename_i hQuote hBackslash _ _ _ _ _ hControl
    exact Or.inr ⟨rfl, hQuote, hBackslash, by simpa using hControl⟩

/-- No character is half of a surrogate pair, so its unit stands for it alone. -/
theorem readEscape_of_readUnit {s rest : List Char} {c : Char}
    (h : readUnit s = some (c.toNat, rest)) : readEscape s = some (c, rest) := by
  have hValid : c.toNat < 0xD800 ∨ 0xDFFF < c.toNat ∧ c.toNat < 0x110000 := c.valid
  have hHigh : isHighSurrogate c.toNat = false := by
    simp [isHighSurrogate]
    omega
  have hLow : isLowSurrogate c.toNat = false := by
    simp [isLowSurrogate]
    omega
  simp [readEscape, h, hHigh, hLow]

theorem readText_quote (rest : List Char) : readText ('"' :: rest) = some ([], rest) := by
  simp [readText]

/-- A backslash stands for the character of its escape. -/
theorem readText_backslash {s after : List Char} {c : Char} (h : readEscape s = some (c, after)) :
    readText ('\\' :: s) = (readText after).map fun (text, rest) => (c :: text, rest) := by
  rw [readText]
  simp only [Char.reduceEq, if_false, if_true]
  split
  · simp_all
  · rename_i d found hRead
    obtain ⟨rfl, rfl⟩ : d = c ∧ found = after := by simpa [h] using hRead.symm
    rfl

/-- Any other character that may stand in a text stands for itself. -/
theorem readText_plain {c : Char} (hQuote : c ≠ '"') (hBackslash : c ≠ '\\')
    (hControl : isControl c = false) (s : List Char) :
    readText (c :: s) = (readText s).map fun (text, rest) => (c :: text, rest) := by
  rw [readText]
  simp [hQuote, hBackslash, hControl]

/-- Whether a character is written as an escape or as itself, it is read back. -/
theorem readText_escape (c : Char) (s : List Char) :
    readText (escape c ++ s) = (readText s).map fun (text, rest) => (c :: text, rest) := by
  rcases escape_cases c with ⟨body, hEscape, hUnit⟩ | ⟨hEscape, hQuote, hBackslash, hControl⟩
  · rw [hEscape]
    exact readText_backslash (readEscape_of_readUnit (hUnit s))
  · rw [hEscape]
    exact readText_plain hQuote hBackslash hControl s

/-- Reading a literal gives back the text that it was written for and stops behind its last quote. -/
theorem readText_flatMap_escape (text rest : List Char) :
    readText (text.flatMap escape ++ '"' :: rest) = some (text, rest) := by
  induction text with
  | nil => exact readText_quote rest
  | cons c text ih => rw [List.flatMap_cons, List.append_assoc, readText_escape, ih]; rfl

theorem skipText_quote (rest : List Char) : skipText ('"' :: rest) = some rest := by
  simp [skipText]

theorem skipText_backslash {s after : List Char} {unit : Nat} (h : readUnit s = some (unit, after)) :
    skipText ('\\' :: s) = skipText after := by
  rw [skipText]
  simp only [Char.reduceEq, if_false, if_true]
  split
  · simp_all
  · rename_i found hRead
    obtain rfl : found = after := by
      have hSame := hRead.symm.trans h
      simp_all
    rfl

/-- An escaped character is skipped as a whole. -/
theorem skipText_escape (c : Char) (s : List Char) : skipText (escape c ++ s) = skipText s := by
  rcases escape_cases c with ⟨body, hEscape, hUnit⟩ | ⟨hEscape, hQuote, hBackslash, hControl⟩
  · rw [hEscape]
    exact skipText_backslash (hUnit s)
  · rw [hEscape]
    simp [skipText, hQuote, hBackslash, hControl]

/-- Passing over a literal stops in the same place as reading it. -/
theorem skipText_flatMap_escape (text rest : List Char) :
    skipText (text.flatMap escape ++ '"' :: rest) = some rest := by
  induction text with
  | nil => exact skipText_quote rest
  | cons c text ih => rw [List.flatMap_cons, List.append_assoc, skipText_escape, ih]

theorem isControl_digitChar : ∀ n < 16, isControl (Nat.digitChar n) = false := by decide

/-- Escapes are made of printable characters, and what is not escaped is no control character. -/
theorem isControl_of_mem_escape {c d : Char} (h : d ∈ escape c) : isControl d = false := by
  unfold escape at h
  iterate 7
    split at h
    · simp only [List.mem_cons, List.not_mem_nil, or_false] at h
      rcases h with rfl | rfl <;> rfl
  split at h
  · rename_i hControl
    have hSmall : c.toNat < 32 := of_decide_eq_true hControl
    have hHigh := isControl_digitChar (c.toNat / 16) (by omega)
    have hLow := isControl_digitChar (c.toNat % 16) (by omega)
    simp only [hexPair, List.mem_cons, List.not_mem_nil, or_false] at h
    rcases h with rfl | rfl | rfl | rfl | rfl | rfl
    · rfl
    · rfl
    · rfl
    · rfl
    · exact hHigh
    · exact hLow
  · rename_i hControl
    obtain rfl := List.mem_singleton.mp h
    simpa using hControl

/-- A literal holds no control character, and so no line break. -/
theorem isControl_of_mem_writeText {text : List Char} {d : Char} (h : d ∈ writeText text) :
    isControl d = false := by
  rcases List.mem_append.mp h with hFront | hLast
  · rcases List.mem_cons.mp hFront with rfl | hBody
    · rfl
    · obtain ⟨c, _, hEscape⟩ := List.mem_flatMap.mp hBody
      exact isControl_of_mem_escape hEscape
  · obtain rfl := List.mem_singleton.mp hLast
    rfl

end BanBoard.Json
