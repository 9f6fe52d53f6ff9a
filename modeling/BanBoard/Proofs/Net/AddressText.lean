import BanBoard.Proofs.Net.Spelling

/-!
Addresses are read back from their canonical text, because that text is one of their spellings. For version
six this goes along the three forms of the text: all groups, groups around a double colon, and the octets of
a mapped address.
-/

namespace BanBoard.Net

open BanBoard.Text

namespace Address

/-- The zeros in front of a row are counted, and the row is these zeros and the rest. -/
theorem leadingZeros_spec (groups : List UInt16) :
    leadingZeros groups ≤ groups.length ∧
      groups = List.replicate (leadingZeros groups) 0 ++ groups.drop (leadingZeros groups) := by
  induction groups with
  | nil => simp [leadingZeros]
  | cons g groups ih =>
      unfold leadingZeros
      split
      · rename_i hZero
        subst hZero
        obtain ⟨hLength, hGroups⟩ := ih
        refine ⟨Nat.succ_le_succ hLength, ?_⟩
        rw [List.replicate_succ, List.cons_append, List.drop_succ_cons, ← hGroups]
      · simp

/-- The longest run of zeros lies inside the groups, and filling the gap that it leaves with zeros
gives the groups again. -/
theorem longestZeros_spec (groups : List UInt16) :
    (longestZeros groups).1 + (longestZeros groups).2 ≤ groups.length ∧
      groups = groups.take (longestZeros groups).1 ++
        List.replicate (longestZeros groups).2 0 ++
        groups.drop ((longestZeros groups).1 + (longestZeros groups).2) := by
  induction groups with
  | nil => simp [longestZeros]
  | cons g groups ih =>
      obtain ⟨hBound, hGroups⟩ := ih
      unfold longestZeros
      dsimp only
      split
      · have hHere := leadingZeros_spec (g :: groups)
        simpa using hHere
      · refine ⟨by simp only [List.length_cons]; omega, ?_⟩
        rw [List.take_succ_cons, Nat.add_right_comm, List.drop_succ_cons, List.cons_append,
          List.cons_append, ← hGroups]

/-- Groups that are written one after the other are a row. -/
theorem isRow_writeGroups (groups : List UInt16) : IsRow true (writeGroups groups) ⟨groups, false⟩ := by
  induction groups using writeGroups.induct with
  | case1 => exact .nil true
  | case2 g =>
      have hRow := IsRow.cons true (isGroup_writeGroup g) (.nil false)
      rwa [List.append_nil] at hRow
  | case3 g groups hSome ih =>
      rw [writeGroups.eq_3 g groups hSome]
      exact .cons true (isGroup_writeGroup g) (ih.behind hSome)

/-- An address that is written with octets has the fixed prefix of those addresses. -/
theorem eq_of_mapped? {groups : List UInt16} {high low : UInt16}
    (h : mapped? groups = some (high, low)) : groups = [0, 0, 0, 0, 0, 0xFFFF, high, low] := by
  unfold mapped? at h
  split at h
  · rw [(Prod.mk.inj (Option.some.inj h)).1, (Prod.mk.inj (Option.some.inj h)).2]
  · simp at h

/-- A group is put together again from its octets. -/
theorem groupOf_octets (g : UInt16) : groupOf (octets g).1 (octets g).2 = g := by
  have hBound := g.toNat_lt
  have hSize : UInt8.size = 256 := rfl
  have hHigh : ((g.toNat / 256).toUInt8).toNat = g.toNat / 256 :=
    UInt8.toNat_ofNat_of_lt' (by omega)
  have hLow : ((g.toNat % 256).toUInt8).toNat = g.toNat % 256 :=
    UInt8.toNat_ofNat_of_lt' (by omega)
  rw [octets, groupOf, hHigh, hLow, Nat.div_add_mod']
  exact UInt16.ofNat_toNat

/-- The last two groups of a mapped address are spelled by its octets. -/
theorem isRow_mapped (high low : UInt16) :
    IsRow true (writeGroup 0xFFFF ++ ':' ::
        writeOctets (octets high).1 (octets high).2 (octets low).1 (octets low).2)
      ⟨[0xFFFF, high, low], true⟩ := by
  have hRow := IsRow.cons true (isGroup_writeGroup 0xFFFF)
    (.octets false (octets high).1 (octets high).2 (octets low).1 (octets low).2)
  rwa [groupOf_octets, groupOf_octets] at hRow

/-- Whatever run of zeros is left out, the text spells the groups. -/
theorem isSpelling_writeV6 (groups : Groups) : IsSpelling (writeV6 groups.val) (.v6 groups) := by
  unfold writeV6
  split
  · rename_i high low hMapped
    have hZeros : groups.val = [] ++ List.replicate 5 0 ++ [0xFFFF, high, low] := eq_of_mapped? hMapped
    exact .doubleColon (.nil true) rfl (isRow_mapped high low) (Nat.succ_pos 4) hZeros
  · dsimp only
    split
    · rename_i hRun
      exact .doubleColon (isRow_writeGroups _) rfl (isRow_writeGroups _) (Nat.lt_of_succ_lt hRun)
        (longestZeros_spec groups.val).2
    · exact .groups (isRow_writeGroups groups.val) rfl

/-- The canonical text of an address is one of its spellings. -/
theorem isSpelling_write (address : Address) : IsSpelling address.write address := by
  cases address with
  | v4 a b c d => exact .octets a b c d
  | v6 groups => exact isSpelling_writeV6 groups

/-- Every address is read back from its canonical text. -/
theorem parse?_write (address : Address) : Address.parse? address.write = some address :=
  parse?_eq_some_iff.mpr (isSpelling_write address)

end Address

end BanBoard.Net
