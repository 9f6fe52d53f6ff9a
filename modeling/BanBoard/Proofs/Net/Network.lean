import BanBoard.Proofs.Net.Token

/-!
Networks. Among the words without a plus sign, the tokens are exactly the addresses and the networks, each
address in any of its spellings. The reader of numerals lets a plus sign stand before the length of a mask,
and this is all that it lets in beside them.
-/

namespace BanBoard.Net

open BanBoard.Text

/-- The two parts of a network: a spelling of an address, and the length of a mask for it in decimal
digits. -/
structure IsNetwork (address : Address) (front mask : List Char) : Prop where
  spelled : IsSpelling front address
  some : mask ≠ []
  digits : ∀ c ∈ mask, isDigit c = true
  short : digitsValue mask ≤ address.bits

/-- The words that banned lists are made of, addresses and networks. -/
inductive IsAddressOrNetwork : List Char → Prop where
  | address {s : List Char} {address : Address} (spelled : IsSpelling s address) : IsAddressOrNetwork s
  | network {front mask : List Char} {address : Address} (parts : IsNetwork address front mask) :
      IsAddressOrNetwork (front ++ '/' :: mask)

/-- A network with a plus sign before the length of its mask. -/
def IsSignedNetwork (token : List Char) : Prop :=
  ∃ address front mask, IsNetwork address front mask ∧ token = front ++ '/' :: '+' :: mask

variable {token front mask : List Char} {address : Address}

/-- No spelling of an address has a plus sign. -/
theorem IsSpelling.plus_notMem (h : IsSpelling front address) : '+' ∉ front := fun hMem =>
  absurd (h.forall_isAddressChar '+' hMem) (by decide)

/-- A network has no plus sign, because its mask length has digits only. -/
theorem IsNetwork.plus_notMem (h : IsNetwork address front mask) : '+' ∉ front ++ '/' :: mask := by
  intro hMem
  rcases List.mem_append.mp hMem with hFront | hMem
  · exact h.spelled.plus_notMem hFront
  · rcases List.mem_cons.mp hMem with hSlash | hMask
    · exact absurd hSlash (by decide)
    · exact absurd (h.digits '+' hMask) (by decide)

theorem IsAddressOrNetwork.plus_notMem (h : IsAddressOrNetwork token) : '+' ∉ token := by
  cases h with
  | address spelled => exact spelled.plus_notMem
  | network parts => exact parts.plus_notMem

theorem IsSignedNetwork.plus_mem (h : IsSignedNetwork token) : '+' ∈ token := by
  obtain ⟨address, front, mask, -, rfl⟩ := h
  simp

/-- The mask of a network is taken for its length with a plus sign and without. -/
theorem IsNetwork.maskLengths (h : IsNetwork address front mask) :
    isMaskLength address mask = true ∧ isMaskLength address ('+' :: mask) = true := by
  have hNumeral {s : List Char} (hText : s = mask ∨ s = '+' :: mask) : isMaskLength address s = true :=
    isMaskLength_iff.mpr ⟨_, mask, hText, h.some, h.digits, rfl, h.short⟩
  exact ⟨hNumeral (.inl rfl), hNumeral (.inr rfl)⟩

/-- The length of a mask makes a network of the address before it, once its sign is dropped. -/
theorem exists_isNetwork (hSpelled : IsSpelling front address) (h : isMaskLength address mask = true) :
    ∃ digits, IsNetwork address front digits ∧ (mask = digits ∨ mask = '+' :: digits) := by
  obtain ⟨length, digits, hText, hSome, hDigits, rfl, hShort⟩ := isMaskLength_iff.mp h
  exact ⟨digits, ⟨hSpelled, hSome, hDigits, hShort⟩, hText⟩

/-- Besides addresses and networks, the tokens are those with a sign before the mask length. -/
theorem isAddressToken_iff_network :
    isAddressToken token = true ↔ IsAddressOrNetwork token ∨ IsSignedNetwork token := by
  rw [isAddressToken_iff]
  constructor
  · rintro ⟨front, address, hSpelled, rfl | ⟨mask, rfl, hMask⟩⟩
    · exact .inl (.address hSpelled)
    · obtain ⟨digits, hNetwork, rfl | rfl⟩ := exists_isNetwork hSpelled hMask
      · exact .inl (.network hNetwork)
      · exact .inr ⟨address, front, digits, hNetwork, rfl⟩
  · rintro (hPlain | ⟨address, front, mask, hNetwork, rfl⟩)
    · cases hPlain with
      | address spelled => exact ⟨_, _, spelled, .inl rfl⟩
      | network parts => exact ⟨_, _, parts.spelled, .inr ⟨_, rfl, parts.maskLengths.1⟩⟩
    · exact ⟨front, address, hNetwork.spelled, .inr ⟨_, rfl, hNetwork.maskLengths.2⟩⟩

/-- The tokens without a plus sign are exactly the addresses and the networks, and those with one are
exactly the networks that have it before the length of their mask. -/
theorem addressToken_isNetwork (token : List Char) :
    (IsAddressOrNetwork token ↔ isAddressToken token = true ∧ '+' ∉ token) ∧
    (IsSignedNetwork token ↔ isAddressToken token = true ∧ '+' ∈ token) := by
  rw [isAddressToken_iff_network]
  refine ⟨⟨fun h => ⟨.inl h, h.plus_notMem⟩, ?_⟩, ⟨fun h => ⟨.inr h, h.plus_mem⟩, ?_⟩⟩
  · rintro ⟨hPlain | hSigned, hNone⟩
    · exact hPlain
    · exact absurd hSigned.plus_mem hNone
  · rintro ⟨hPlain | hSigned, hPlus⟩
    · exact absurd hPlus hPlain.plus_notMem
    · exact hSigned

/-- A plus sign before the length of the mask is accepted, although no network is written with one. -/
theorem addressToken_hasSign :
    isAddressToken "10.0.0.0/+8".toList = true ∧ ¬IsAddressOrNetwork "10.0.0.0/+8".toList ∧
    ¬∀ token, isAddressToken token = true ↔ IsAddressOrNetwork token := by
  have hToken : isAddressToken "10.0.0.0/+8".toList = true := by decide
  have hNone : ¬IsAddressOrNetwork "10.0.0.0/+8".toList := fun h => h.plus_notMem (by decide)
  exact ⟨hToken, hNone, fun h => hNone ((h _).mp hToken)⟩

example : ["10.0.0.1", "10.0.0.0/8", "::ffff:10.0.0.1/128"].all (isAddressToken ·.toList) = true := by
  decide

example : ["", "/8", "10.0.0.0/", "10.0.0.0/33", "10.0.0.0/-8", "10.0.0.0/ 8", "10.0.0.0/8/8", "::/129"].any
    (isAddressToken ·.toList) = false := by
  decide

end BanBoard.Net
