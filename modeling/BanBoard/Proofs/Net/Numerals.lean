import BanBoard.Net.AddressText
import BanBoard.Proofs.Text.Decimal

/-!
The numerals inside addresses. Each reader of a numeral takes just the texts that denote a number, which
for an octet is one text and for a group every spelling with up to four digits. What starts like a group
is never taken for four octets.
-/

namespace BanBoard.Net

open BanBoard.Text

theorem readOctet_decimal (octet : UInt8) {rest : List Char} (hRest : StopsBefore isDigit rest) :
    readOctet (decimal octet.toNat ++ rest) = some (octet, rest) := by
  have hDigits : ∀ c ∈ decimal octet.toNat, isDigit c = true := fun _ => isDigit_of_mem_decimal
  have hLength : (decimal octet.toNat).length ≤ 3 :=
    (Nat.length_toDigits_le_iff (by decide) (by decide)).mpr
      (Nat.lt_trans octet.toNat_lt (by decide))
  have hValue : octet.toNat ≤ 255 := Nat.le_of_lt_succ octet.toNat_lt
  have hZero : (decimal octet.toNat).head? = some '0' → (decimal octet.toNat).length ≤ 1 := by
    intro hHead
    rcases Nat.eq_zero_or_pos octet.toNat with hZero | hPos
    · rw [hZero]
      decide
    · exact (head_decimal_ne_zero hPos hHead).elim
  rw [readOctet, takeWhile_append hDigits hRest, dropWhile_append hDigits hRest,
    digitsValue_decimal]
  simp only [List.isEmpty_eq_false_iff.mpr (decimal_ne_nil _), Nat.not_lt.mpr hLength,
    Nat.not_lt.mpr hValue, decide_false, Bool.or_self, Bool.false_eq_true, if_false]
  simpa using hZero

/-- An octet is read from its own numeral alone. -/
theorem readOctet_eq_some_iff {s rest : List Char} {octet : UInt8} :
    readOctet s = some (octet, rest) ↔ s = decimal octet.toNat ++ rest ∧ StopsBefore isDigit rest := by
  constructor
  · intro h
    simp only [readOctet, Option.ite_none_left_eq_some, Bool.or_eq_true, not_or, Option.some.injEq,
      Prod.mk.injEq, Bool.and_eq_true, not_and, decide_eq_true_eq, Nat.not_lt] at h
    obtain ⟨⟨⟨hSome, -⟩, hByte⟩, hZero, rfl, rfl⟩ := h
    have hNumeral : decimal (digitsValue (s.takeWhile isDigit)) = s.takeWhile isDigit :=
      decimal_digitsValue (fun hNone => hSome (List.isEmpty_iff.mpr hNone))
        (List.all_eq_true.mp List.all_takeWhile) hZero
    have hOctet : (digitsValue (s.takeWhile isDigit)).toUInt8.toNat =
        digitsValue (s.takeWhile isDigit) := UInt8.toNat_ofNat_of_lt' (Nat.lt_succ_of_le hByte)
    rw [hOctet, hNumeral, List.takeWhile_append_dropWhile]
    exact ⟨rfl, stopsBefore_dropWhile isDigit s⟩
  · rintro ⟨rfl, hRest⟩
    exact readOctet_decimal octet hRest

theorem readChar_eq_some_iff {c : Char} {s rest : List Char} :
    readChar c s = some rest ↔ s = c :: rest := by
  cases s <;> simp [readChar]

/-- Four octets are read back from their text. -/
theorem readOctets_writeOctets (a b c d : UInt8) {rest : List Char}
    (hRest : StopsBefore isDigit rest) :
    readOctets (Address.writeOctets a b c d ++ rest) = some ((a, b, c, d), rest) := by
  have hDot (s : List Char) : StopsBefore isDigit ('.' :: s) := (stopsBefore_cons _ _ _).mpr rfl
  simp only [Address.writeOctets, List.append_assoc, List.cons_append]
  simp [readOctets, readOctet_decimal _ (hDot _), readOctet_decimal _ hRest, readChar]

/-- Four octets are read just from their one text, as long as no digit follows it. -/
theorem readOctets_eq_some_iff {s rest : List Char} {a b c d : UInt8} :
    readOctets s = some ((a, b, c, d), rest) ↔
      s = Address.writeOctets a b c d ++ rest ∧ StopsBefore isDigit rest := by
  constructor
  · intro h
    simp only [readOctets, Option.bind_eq_bind, Option.bind_eq_some_iff, Prod.exists,
      readOctet_eq_some_iff, readChar_eq_some_iff, Option.some.injEq, Prod.mk.injEq] at h
    obtain ⟨_, _, ⟨rfl, -⟩, _, rfl, _, _, ⟨rfl, -⟩, _, rfl, _, _, ⟨rfl, -⟩, _, rfl, _, _, ⟨rfl, hRest⟩,
      ⟨rfl, rfl, rfl, rfl⟩, rfl⟩ := h
    simp [Address.writeOctets, hRest]
  · rintro ⟨rfl, hRest⟩
    exact readOctets_writeOctets a b c d hRest

/-- Four octets are only read where a dot follows the first digits. -/
theorem readOctets_eq_none {s : List Char} (h : ∀ rest, s.dropWhile isDigit ≠ '.' :: rest) :
    readOctets s = none := by
  refine Option.eq_none_iff_forall_ne_some.mpr fun ⟨⟨a, b, c, d⟩, rest⟩ hRead => ?_
  obtain ⟨rfl, -⟩ := readOctets_eq_some_iff.mp hRead
  simp only [Address.writeOctets, List.append_assoc, List.cons_append] at h
  exact h _ (dropWhile_append (fun _ => isDigit_of_mem_decimal) ((stopsBefore_cons _ _ _).mpr rfl))

/-- A numeral in base sixteen is made of hexadecimal digits and has its own value. -/
theorem hexDigits_toDigits (n : Nat) :
    (∀ c ∈ Nat.toDigits 16 n, isHexDigit c = true) ∧ hexValue (Nat.toDigits 16 n) = n := by
  induction n using Nat.strongRecOn with
  | ind n ih =>
      rw [Nat.toDigits_eq_if (by decide)]
      split
      · rename_i hSmall
        have hDigit := digitValue?_digitChar hSmall
        exact ⟨by simp [isHexDigit, hDigit], by simp [hexValue, hDigit]⟩
      · rename_i hLarge
        have hDigit := digitValue?_digitChar (Nat.mod_lt n (by decide : 16 > 0))
        obtain ⟨hHex, hValue⟩ := ih (n / 16) (by omega)
        constructor
        · rw [List.forall_mem_append, List.forall_mem_singleton]
          exact ⟨hHex, by simp [isHexDigit, hDigit]⟩
        · rw [hexValue, List.foldl_append, ← hexValue, hValue]
          simp only [List.foldl_cons, List.foldl_nil, hDigit, Option.getD_some]
          omega

theorem hexDigit_lt (c : Char) : (digitValue? 16 c).getD 0 < 16 := by
  cases hDigit : digitValue? 16 c with
  | none => decide
  | some d =>
      obtain ⟨hLow, hSome⟩ := Option.ite_none_right_eq_some.mp hDigit
      rwa [Option.some.inj hSome] at hLow

/-- The value of hexadecimal digits is below the power of sixteen of their number. -/
theorem hexValue_lt (digits : List Char) : hexValue digits < 16 ^ digits.length := by
  suffices hAll : ∀ acc, digits.foldl (fun acc c => acc * 16 + (digitValue? 16 c).getD 0) acc <
      (acc + 1) * 16 ^ digits.length by simpa [hexValue] using hAll 0
  induction digits with
  | nil => simp
  | cons c digits ih =>
      intro acc
      have hDigit := hexDigit_lt c
      rw [List.foldl_cons, List.length_cons, Nat.pow_succ']
      calc _ < (acc * 16 + (digitValue? 16 c).getD 0 + 1) * 16 ^ digits.length := ih _
        _ ≤ ((acc + 1) * 16) * 16 ^ digits.length := Nat.mul_le_mul_right _ (by omega)
        _ = (acc + 1) * (16 * 16 ^ digits.length) := Nat.mul_assoc ..

/-- A spelling of a group: one to four hexadecimal digits in either case, zeros in front allowed. -/
structure IsGroup (s : List Char) (g : UInt16) : Prop where
  length_pos : 1 ≤ s.length
  length_le : s.length ≤ 4
  digits : ∀ c ∈ s, isHexDigit c = true
  value : hexValue s = g.toNat

theorem isGroup_writeGroup (g : UInt16) : IsGroup (Address.writeGroup g) g where
  length_pos := List.length_pos_iff.mpr Nat.toDigits_ne_nil
  length_le := (Nat.length_toDigits_le_iff (by decide) (by decide)).mpr g.toNat_lt
  digits := (hexDigits_toDigits g.toNat).1
  value := (hexDigits_toDigits g.toNat).2

/-- A group is read from its spellings alone. -/
theorem readGroup_eq_some_iff {s rest : List Char} {g : UInt16} :
    readGroup s = some (g, rest) ↔
      ∃ digits, s = digits ++ rest ∧ IsGroup digits g ∧ StopsBefore isHexDigit rest := by
  constructor
  · intro h
    simp only [readGroup, Option.ite_none_left_eq_some, Bool.or_eq_true, not_or, decide_eq_true_eq,
      Nat.not_lt, Option.some.injEq, Prod.mk.injEq] at h
    obtain ⟨⟨hSome, hLength⟩, rfl, rfl⟩ := h
    have hBound : hexValue (s.takeWhile isHexDigit) < 2 ^ 16 :=
      Nat.lt_of_lt_of_le (hexValue_lt _) (Nat.pow_le_pow_right (by decide) hLength)
    refine ⟨_, List.takeWhile_append_dropWhile.symm, ⟨?_, hLength, ?_, ?_⟩,
      stopsBefore_dropWhile isHexDigit s⟩
    · exact List.length_pos_iff.mpr fun hNone => hSome (List.isEmpty_iff.mpr hNone)
    · exact List.all_eq_true.mp List.all_takeWhile
    · exact (UInt16.toNat_ofNat_of_lt' hBound).symm
  · rintro ⟨digits, rfl, hGroup, hRest⟩
    have hSome : digits.isEmpty = false := by simpa using List.length_pos_iff.mp hGroup.length_pos
    rw [readGroup, takeWhile_append hGroup.digits hRest, dropWhile_append hGroup.digits hRest]
    simp [hSome, Nat.not_lt.mpr hGroup.length_le, hGroup.value]

/-- What may stand behind a group: nothing, or the colon before the next one. -/
def EndsGroup (s : List Char) : Prop := ∀ c ∈ s.head?, c = ':'

@[simp] theorem endsGroup_nil : EndsGroup [] := by simp [EndsGroup]

@[simp] theorem endsGroup_colon (s : List Char) : EndsGroup (':' :: s) := by simp [EndsGroup]

/-- What ends a group is a colon or the end of the text. -/
theorem EndsGroup.stopsBefore {p : Char → Bool} {s : List Char} (h : EndsGroup s)
    (hColon : p ':' = false) : StopsBefore p s := by
  intro c hHead
  rw [h c hHead, hColon]

section Group

variable {digits rest : List Char} {g : UInt16}

theorem IsGroup.readGroup (h : IsGroup digits g) (hRest : EndsGroup rest) :
    readGroup (digits ++ rest) = some (g, rest) :=
  readGroup_eq_some_iff.mpr ⟨digits, rfl, h, hRest.stopsBefore (by decide)⟩

/-- A group is not taken for the first of four octets, since no dot follows it. -/
theorem IsGroup.readOctets (h : IsGroup digits g) (hRest : EndsGroup rest) :
    readOctets (digits ++ rest) = none := by
  apply readOctets_eq_none
  intro tail hTail
  rw [List.dropWhile_append] at hTail
  split at hTail
  · rw [(hRest.stopsBefore rfl).dropWhile_eq] at hTail
    subst hTail
    exact absurd (hRest '.' rfl) (by decide)
  · rename_i hLetters
    cases hDrop : digits.dropWhile isDigit with
    | nil => simp [hDrop] at hLetters
    | cons c letters =>
        rw [hDrop, List.cons_append] at hTail
        have hMem : c ∈ digits := (List.dropWhile_suffix isDigit).subset (hDrop ▸ List.mem_cons_self)
        have hHex := h.digits c hMem
        rw [(List.cons.inj hTail).1] at hHex
        exact absurd hHex (by decide)

end Group

end BanBoard.Net
