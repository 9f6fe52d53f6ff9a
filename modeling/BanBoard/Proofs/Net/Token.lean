import BanBoard.Net.Token
import BanBoard.Proofs.Net.AddressText
import BanBoard.Proofs.Text.Case
import BanBoard.Proofs.Text.DecimalDigit
import BanBoard.Proofs.Text.Row

/-!
The characters of addresses and of tokens, in whatever spelling. Spellings are made of one small class of
characters, by induction on their rows of groups, and the slash is not among them, so a token comes apart
at its first slash. None of its characters is a blank or a mark between words, so a token is one word
wherever it is listed.
-/

namespace BanBoard.Net

open BanBoard.Text

def isAddressChar (c : Char) : Bool := isHexDigit c || ['.', ':'].contains c

/-- A character that addresses and networks are written with. -/
def isTokenChar (c : Char) : Bool := isAddressChar c || ['/', '+'].contains c

theorem toNat_lt_of_digitValue? {base d : Nat} {c : Char} (h : digitValue? base c = some d) :
    c.toNat < 128 := by
  refine Nat.lt_of_not_le fun hLarge => ?_
  have hAbove {last : Char} (hLast : last.toNat < 128) : ¬c ≤ last := fun hLe =>
    Nat.not_lt_of_le (Nat.le_trans hLarge (UInt32.le_iff_toNat_le.mp hLe)) hLast
  have hNine : ¬c ≤ '9' := hAbove (by decide)
  have hLower : ¬c ≤ 'f' := hAbove (by decide)
  have hUpper : ¬c ≤ 'F' := hAbove (by decide)
  simp [digitValue?, hNine, hLower, hUpper] at h

theorem toNat_lt_of_isTokenChar {c : Char} (h : isTokenChar c = true) : c.toNat < 128 := by
  have hMarks : ∀ d ∈ ['.', ':'] ++ ['/', '+'], d.toNat < 128 := by simp
  simp only [isTokenChar, isAddressChar, Bool.or_eq_true, List.contains_iff_mem] at h
  rcases h with (hHex | hMark) | hMark
  · obtain ⟨d, hDigit⟩ := Option.isSome_iff_exists.mp hHex
    exact toNat_lt_of_digitValue? hDigit
  · exact hMarks c (List.mem_append_left _ hMark)
  · exact hMarks c (List.mem_append_right _ hMark)

theorem isTokenChar_of_isAddressChar {c : Char} (h : isAddressChar c = true) : isTokenChar c = true :=
  Bool.or_eq_true_iff.mpr (.inl h)

theorem isAddressChar_of_isHexDigit {c : Char} (h : isHexDigit c = true) : isAddressChar c = true :=
  Bool.or_eq_true_iff.mpr (.inl h)

theorem isAddressChar_of_isDigit {c : Char} (h : isDigit c = true) : isAddressChar c = true := by
  have hAll : ∀ n < 128, isDigit (Char.ofNat n) = true → isAddressChar (Char.ofNat n) = true := by
    decide
  exact forall_ascii (P := fun c => isDigit c = true → isAddressChar c = true) hAll
    (Nat.lt_of_le_of_lt (toNat_of_isDigit h).2 (by decide)) h

theorem isBlank_of_isTokenChar {c : Char} (h : isTokenChar c = true) : isBlank c = false := by
  have hAll : ∀ n < 128, isTokenChar (Char.ofNat n) = true → isBlank (Char.ofNat n) = false := by decide
  exact forall_ascii (P := fun c => isTokenChar c = true → isBlank c = false) hAll
    (toNat_lt_of_isTokenChar h) h

/-- The case of a letter does not matter for a token. -/
theorem isTokenChar_toLower (c : Char) : isTokenChar c.toLower = isTokenChar c :=
  apply_toLower (by decide) c

theorem isAddressChar_of_mem_octets {a b c d : UInt8} :
    ∀ x ∈ Address.writeOctets a b c d, isAddressChar x = true := by
  have hDecimal (octet : UInt8) : ∀ x ∈ decimal octet.toNat, isAddressChar x = true := fun _ hMem =>
    isAddressChar_of_isDigit (isDigit_of_mem_decimal hMem)
  have hDot : isAddressChar '.' = true := by decide
  simp only [Address.writeOctets, List.forall_mem_append, List.forall_mem_cons]
  exact ⟨⟨⟨hDecimal a, hDot, hDecimal b⟩, hDot, hDecimal c⟩, hDot, hDecimal d⟩

/-- A row of groups has hexadecimal digits, colons and dots only. -/
theorem IsRow.forall_isAddressChar {first : Bool} {s : List Char} {row : GroupRow} (h : IsRow first s row) :
    ∀ c ∈ s, isAddressChar c = true := by
  have hSeparator (first : Bool) : ∀ c ∈ separator first, isAddressChar c = true := by
    cases first with
    | true => exact List.forall_mem_nil _
    | false => exact List.forall_mem_singleton.mpr rfl
  induction h with
  | nil => exact List.forall_mem_nil _
  | octets first =>
      exact List.forall_mem_append.mpr ⟨hSeparator first, isAddressChar_of_mem_octets⟩
  | cons first head tail ih =>
      have hDigits := fun c hMem => isAddressChar_of_isHexDigit (head.digits c hMem)
      exact List.forall_mem_append.mpr ⟨hSeparator first, List.forall_mem_append.mpr ⟨hDigits, ih⟩⟩

/-- Every spelling of an address is made of the characters of addresses. -/
theorem IsSpelling.forall_isAddressChar {s : List Char} {address : Address} (h : IsSpelling s address) :
    ∀ c ∈ s, isAddressChar c = true := by
  have hColon : isAddressChar ':' = true := by decide
  cases h with
  | octets => exact isAddressChar_of_mem_octets
  | groups spelled => exact spelled.forall_isAddressChar
  | doubleColon before _ behind =>
      simp only [List.forall_mem_append, List.forall_mem_cons]
      exact ⟨before.forall_isAddressChar, hColon, hColon, behind.forall_isAddressChar⟩

/-- What is read as an address has no other characters. -/
theorem isAddressChar_of_mem {s : List Char} {address : Address} (h : Address.parse? s = some address)
    {c : Char} (hMem : c ∈ s) : isAddressChar c = true :=
  (Address.parse?_eq_some_iff.mp h).forall_isAddressChar c hMem

/-- An address has no slash, so a network is split at its only one. -/
theorem IsSpelling.slash_notMem {s : List Char} {address : Address} (h : IsSpelling s address) :
    '/' ∉ s := fun hMem => absurd (h.forall_isAddressChar '/' hMem) (by decide)

theorem Address.isBlank_of_mem_write {address : Address} {c : Char} (h : c ∈ address.write) :
    isBlank c = false :=
  isBlank_of_isTokenChar <| isTokenChar_of_isAddressChar <|
    isAddressChar_of_mem (Address.parse?_write address) h

/-- The length of a mask is a numeral up to the length of the address. -/
theorem isMaskLength_iff {address : Address} {s : List Char} :
    isMaskLength address s = true ↔ ∃ length, IsNumeral address.bits s length := by
  have hBits : address.bits ≤ maxByte := by cases address <;> simp [Address.bits, maxByte]
  unfold isMaskLength
  constructor
  · intro h
    split at h
    · rename_i length hRead
      obtain ⟨digits, hText, hSome, hDigits, hValue, -⟩ := readUnsigned_eq_ok_iff.mp hRead
      exact ⟨length, digits, hText, hSome, hDigits, hValue, of_decide_eq_true h⟩
    · cases h
  · rintro ⟨length, digits, hText, hSome, hDigits, hValue, hLength⟩
    have hRead : readUnsigned 10 maxByte s = .ok length :=
      readUnsigned_eq_ok_iff.mpr
        ⟨digits, hText, hSome, hDigits, hValue, Nat.le_trans hLength hBits⟩
    rw [hRead]
    exact decide_eq_true hLength

/-- A token is a spelling of an address, or one that a slash and the length of a mask follow. The slash is
the first one of the token, because addresses have none. -/
theorem isAddressToken_iff {token : List Char} :
    isAddressToken token = true ↔ ∃ front address, IsSpelling front address ∧
      (token = front ∨ ∃ mask, token = front ++ '/' :: mask ∧ isMaskLength address mask = true) := by
  constructor
  · intro h
    rw [isAddressToken] at h
    split at h
    · obtain ⟨address, hParse⟩ := Option.isSome_iff_exists.mp h
      exact ⟨token, address, Address.parse?_eq_some_iff.mp hParse, .inl rfl⟩
    · rename_i front mask hSplit
      split at h
      · cases h
      · rename_i address hParse
        exact ⟨front, address, Address.parse?_eq_some_iff.mp hParse,
          .inr ⟨mask, splitOnce_eq_some hSplit, h⟩⟩
  · rintro ⟨front, address, hFront, rfl | ⟨mask, rfl, hMask⟩⟩
    · rw [isAddressToken, splitOnce_eq_none hFront.slash_notMem, Address.parse?_eq_some_iff.mpr hFront]
      rfl
    · rw [isAddressToken, splitOnce_append_cons hFront.slash_notMem]
      dsimp only
      rw [Address.parse?_eq_some_iff.mpr hFront]
      exact hMask

/-- A canonical address is a token. -/
theorem isAddressToken_write (address : Address) : isAddressToken address.write = true :=
  isAddressToken_iff.mpr ⟨_, address, address.isSpelling_write, .inl rfl⟩

/-- A token is written with token characters alone. -/
theorem isTokenChar_of_mem {token : List Char} (h : isAddressToken token = true) {c : Char}
    (hMem : c ∈ token) : isTokenChar c = true := by
  obtain ⟨front, address, hFront, hToken⟩ := isAddressToken_iff.mp h
  have hAddress {c : Char} (hMem : c ∈ front) : isTokenChar c = true :=
    isTokenChar_of_isAddressChar (hFront.forall_isAddressChar c hMem)
  obtain rfl | ⟨mask, rfl, hMask⟩ := hToken
  · exact hAddress hMem
  · obtain ⟨length, digits, hText, -, hDigits, -⟩ := isMaskLength_iff.mp hMask
    have hDigit {c : Char} (hMem : c ∈ digits) : isTokenChar c = true :=
      isTokenChar_of_isAddressChar (isAddressChar_of_isDigit (hDigits c hMem))
    rcases List.mem_append.mp hMem with hFront | hMem
    · exact hAddress hFront
    · rcases List.mem_cons.mp hMem with rfl | hMem
      · decide
      · obtain rfl | rfl := hText
        · exact hDigit hMem
        · rcases List.mem_cons.mp hMem with rfl | hMem
          · decide
          · exact hDigit hMem

theorem ne_nil_of_isAddressToken {token : List Char} (h : isAddressToken token = true) : token ≠ [] := by
  rintro rfl
  exact absurd h (by decide)

/-- A token of an address is a word of its own. -/
theorem isWord_of_isAddressToken {token : List Char} (h : isAddressToken token = true) : IsWord token :=
  ⟨ne_nil_of_isAddressToken h, fun _ hMem => isBlank_of_isTokenChar (isTokenChar_of_mem h hMem)⟩

end BanBoard.Net
