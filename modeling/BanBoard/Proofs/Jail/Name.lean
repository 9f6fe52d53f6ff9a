import BanBoard.Proofs.Jail.Basic
import BanBoard.Proofs.Net.Token

/-!
What a jail name is. The check counts bytes and refuses what starts like a flag; what it lets pass are
the words of one to sixty-four characters of a small alphabet, of which a byte each is enough. The check
of an address lets its canonical text pass.
-/

namespace BanBoard

open BanBoard.Net (Address isAddressToken_write isWord_of_isAddressToken)
open BanBoard.Text

/-- A word of one to sixty-four letters, digits, dots, underscores and hyphens that does not start with
a hyphen. -/
structure IsPlainName (name : List Char) : Prop where
  length_pos : 1 ≤ name.length
  length_le : name.length ≤ 64
  alphabet : ∀ c ∈ name, ('0' ≤ c ∧ c ≤ '9') ∨ ('a' ≤ c ∧ c ≤ 'z') ∨ ('A' ≤ c ∧ c ≤ 'Z') ∨
    c = '.' ∨ c = '_' ∨ c = '-'
  noFlag : name.head? ≠ some '-'

/-- The characters of a name are letters, digits and three marks. -/
theorem isJailNameChar_iff {c : Char} : isJailNameChar c = true ↔
    ('0' ≤ c ∧ c ≤ '9') ∨ ('a' ≤ c ∧ c ≤ 'z') ∨ ('A' ≤ c ∧ c ≤ 'Z') ∨ c = '.' ∨ c = '_' ∨ c = '-' := by
  simp only [isJailNameChar, isAsciiAlphanumeric, Bool.or_eq_true, Bool.and_eq_true, decide_eq_true_eq,
    or_assoc]

theorem toNat_lt_of_isJailNameChar {c : Char} (h : isJailNameChar c = true) : c.toNat < 128 := by
  have hBelow {last : Char} (hLe : c ≤ last) (hLast : last.toNat < 128) : c.toNat < 128 :=
    Nat.lt_of_le_of_lt (UInt32.le_iff_toNat_le.mp hLe) hLast
  rcases isJailNameChar_iff.mp h with ⟨_, hLe⟩ | ⟨_, hLe⟩ | ⟨_, hLe⟩ | rfl | rfl | rfl
  · exact hBelow hLe (by decide)
  · exact hBelow hLe (by decide)
  · exact hBelow hLe (by decide)
  all_goals decide

/-- Characters of ASCII take one byte each. -/
theorem byteLength_of_ascii {s : List Char} (h : ∀ c ∈ s, c.toNat < 128) : byteLength s = s.length := by
  have hOne : s.map Char.utf8Size = List.replicate s.length 1 := by
    refine List.eq_replicate_iff.mpr ⟨List.length_map _, List.forall_mem_map.mpr fun c hMem => ?_⟩
    exact Char.utf8Size_eq_one_iff.mpr (UInt32.le_iff_toNat_le.mpr (Nat.le_of_lt_succ (h c hMem)))
  have hSame : byteLength s = (s.map Char.utf8Size).sum := rfl
  rw [hSame, hOne, List.sum_replicate_nat, Nat.mul_one]

/-- A name is checked in bytes, and as its characters are ASCII that is their number. -/
theorem isJailName_iff_isPlainName {name : List Char} : isJailName name = true ↔ IsPlainName name := by
  rw [isJailName_iff]
  constructor
  · intro h
    have hChars {c : Char} (hMem : c ∈ name) : isJailNameChar c = true :=
      isJailNameChar_of_mem (isJailName_iff.mpr h) hMem
    have hBytes := byteLength_of_ascii fun c hMem => toNat_lt_of_isJailNameChar (hChars hMem)
    rw [checkJailName, hBytes, maxJailNameLength] at h
    split at h
    · cases h
    rename_i hSome
    split at h
    · cases h
    rename_i hShort
    split at h
    · cases h
    rename_i hPlain
    simp only [Bool.or_eq_true, not_or, decide_eq_true_eq] at hPlain
    refine ⟨?_, Nat.le_of_not_lt hShort, fun c hMem => isJailNameChar_iff.mp (hChars hMem), hPlain.1⟩
    exact List.length_pos_iff.mpr fun hNil => hSome (List.isEmpty_iff.mpr hNil)
  · intro h
    have hChars : ∀ c ∈ name, isJailNameChar c = true := fun c hMem =>
      isJailNameChar_iff.mpr (h.alphabet c hMem)
    have hBytes := byteLength_of_ascii fun c hMem => toNat_lt_of_isJailNameChar (hChars c hMem)
    have hSome : name.isEmpty = false := by simpa using List.length_pos_iff.mp h.length_pos
    have hAll : name.all isJailNameChar = true := List.all_eq_true.mpr hChars
    have hShort := h.length_le
    have hFlag := h.noFlag
    simp [checkJailName, hBytes, maxJailNameLength, hSome, hAll, hFlag, hShort]

/-- A canonical text passes as the address that it is written for. -/
theorem checkAddress_write (address : Address) : checkAddress address.write = .ok address := by
  rw [checkAddress, trim_word (isWord_of_isAddressToken (isAddressToken_write address)),
    Address.parse?_write]

end BanBoard
