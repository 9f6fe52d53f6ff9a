import BanBoard.Proofs.Net.Numerals

/-!
The spellings of addresses. An address of version four has one; one of version six has rows of groups,
whole or around a double colon, whose last two groups may be written as four octets. A text is read as an
address just when it is a spelling of it, so no text spells two addresses.
-/

namespace BanBoard.Net

open BanBoard.Text

/-- What stands before a group: a colon, or nothing before the first one of a row. -/
def separator (first : Bool) : List Char := if first then [] else [':']

/-- Before every group but the first there is a colon. -/
theorem readSeparator_eq_some_iff {first : Bool} {s rest : List Char} :
    readSeparator first s = some rest ↔ s = separator first ++ rest := by
  cases first with
  | true => simp [readSeparator, separator]
  | false => exact readChar_eq_some_iff

/-- A spelling of a row of groups, with a colon before every group but the first one of the row. Four
octets stand for two groups and end the row. -/
inductive IsRow : (first : Bool) → List Char → GroupRow → Prop where
  | nil (first : Bool) : IsRow first [] ⟨[], false⟩
  | octets (first : Bool) (a b c d : UInt8) :
      IsRow first (separator first ++ Address.writeOctets a b c d) ⟨[groupOf a b, groupOf c d], true⟩
  | cons (first : Bool) {digits s : List Char} {g : UInt16} {row : GroupRow} (head : IsGroup digits g)
      (tail : IsRow false s row) :
      IsRow first (separator first ++ (digits ++ s)) ⟨g :: row.groups, row.embedded⟩

/-- What ends a row of groups: the end of the text, or a double colon. -/
def EndsRow (s : List Char) : Prop := s = [] ∨ ∃ rest, s = ':' :: ':' :: rest

theorem endsRow_nil : EndsRow [] := Or.inl rfl

theorem endsRow_doubleColon (s : List Char) : EndsRow (':' :: ':' :: s) := Or.inr ⟨s, rfl⟩

theorem EndsRow.endsGroup {s : List Char} (h : EndsRow s) : EndsGroup s := by
  obtain rfl | ⟨rest, rfl⟩ := h
  · exact endsGroup_nil
  · exact endsGroup_colon _

theorem readOctets_colon (s : List Char) : readOctets (':' :: s) = none :=
  readOctets_eq_none fun _ => by simp [isDigit]

section Row

variable {first : Bool} {room : Nat} {s rest : List Char} {row : GroupRow}

/-- Behind a group of a row come the next one with its colon, or the end of the row. -/
theorem IsRow.endsGroup (h : IsRow false s row) (hRest : EndsRow rest) : EndsGroup (s ++ rest) := by
  cases h with
  | nil => exact hRest.endsGroup
  | octets a b c d => exact endsGroup_colon _
  | cons head tail => exact endsGroup_colon _

/-- A row without its first colon becomes the tail of a longer one. -/
theorem IsRow.behind (h : IsRow true s row) (hSome : row.groups ≠ []) : IsRow false (':' :: s) row := by
  cases h with
  | nil => exact (hSome rfl).elim
  | octets _ a b c d => exact .octets false a b c d
  | cons _ head tail => exact .cons false head tail

/-- What is read as a row of groups is a spelling of that row, with no more groups than there is room. -/
theorem isRow_readGroups (room : Nat) (first : Bool) (s : List Char) :
    ∃ front, s = front ++ (readGroups room first s).2 ∧ IsRow first front (readGroups room first s).1 ∧
      (readGroups room first s).1.groups.length ≤ room := by
  induction room generalizing first s with
  | zero => exact ⟨[], rfl, .nil first, Nat.le_refl 0⟩
  | succ room ih =>
      rw [readGroups]
      split
      · rename_i a b c d rest hOctets
        obtain ⟨hRoom, hOctets⟩ := Option.ite_none_left_eq_some.mp hOctets
        obtain ⟨text, hSeparator, hOctets⟩ := Option.bind_eq_some_iff.mp hOctets
        obtain ⟨rfl, -⟩ := readOctets_eq_some_iff.mp hOctets
        rw [readSeparator_eq_some_iff.mp hSeparator, ← List.append_assoc]
        exact ⟨_, rfl, .octets first a b c d, Nat.succ_le_succ (Nat.pos_of_ne_zero hRoom)⟩
      · split
        · exact ⟨[], rfl, .nil first, Nat.zero_le _⟩
        · rename_i g rest hGroup
          obtain ⟨text, hSeparator, hGroup⟩ := Option.bind_eq_some_iff.mp hGroup
          obtain ⟨digits, rfl, hDigits, -⟩ := readGroup_eq_some_iff.mp hGroup
          obtain ⟨front, hRest, hTail, hLength⟩ := ih false rest
          refine ⟨_, ?_, .cons first hDigits hTail, Nat.succ_le_succ hLength⟩
          rw [readSeparator_eq_some_iff.mp hSeparator, List.append_assoc, List.append_assoc, ← hRest]

/-- No group is read where a row ends. -/
theorem EndsRow.readGroups (h : EndsRow s) (room : Nat) (first : Bool) :
    readGroups room first s = (⟨[], false⟩, s) := by
  have hGroup (rest : List Char) : readGroup (':' :: rest) = none := rfl
  have hNil : readOctets [] = none ∧ readGroup [] = none := ⟨rfl, rfl⟩
  cases room with
  | zero => rfl
  | succ room =>
      obtain rfl | ⟨rest, rfl⟩ := h <;> cases first <;>
        simp [Net.readGroups, readSeparator, readChar, hGroup, hNil, readOctets_colon]

/-- Every spelling of a row is read up to where the row ends, when there is room for its groups. -/
theorem IsRow.readGroups (h : IsRow first s row) (hRoom : row.groups.length ≤ room)
    (hRest : EndsRow rest) : readGroups room first (s ++ rest) = (row, rest) := by
  have hSeparator (first : Bool) (text : List Char) :
      readSeparator first (separator first ++ text) = some text := readSeparator_eq_some_iff.mpr rfl
  -- along the spelling, since a group with what is behind it is never taken for octets
  induction h generalizing room with
  | nil first => exact hRest.readGroups room first
  | octets first a b c d =>
      obtain ⟨room, rfl⟩ := Nat.exists_eq_add_of_le' (Nat.le_trans (Nat.le_succ 1) hRoom)
      have hMore : room ≠ 0 := Nat.ne_of_gt (Nat.le_of_succ_le_succ hRoom)
      have hOctets := readOctets_writeOctets a b c d (hRest.endsGroup.stopsBefore (by decide))
      rw [List.append_assoc, Net.readGroups]
      simp [hSeparator, hOctets, hMore]
  | @cons first digits s g row head tail ih =>
      obtain ⟨room, rfl⟩ := Nat.exists_eq_add_of_le' (Nat.le_trans (Nat.le_add_left 1 _) hRoom)
      have hEnds := tail.endsGroup hRest
      rw [List.append_assoc, List.append_assoc, Net.readGroups]
      simp [hSeparator, head.readOctets hEnds, head.readGroup hEnds, ih (Nat.le_of_succ_le_succ hRoom)]

/-- A row that starts with a group is not taken for four octets. -/
theorem IsRow.readOctets (h : IsRow true s row) (hRow : row.embedded = true → 2 < row.groups.length)
    (hRest : EndsRow rest) : readOctets (s ++ rest) = none := by
  cases h with
  | nil =>
      obtain rfl | ⟨rest, rfl⟩ := hRest
      · rfl
      · exact readOctets_colon _
  | octets => exact absurd (hRow rfl) (Nat.lt_irrefl 2)
  | @cons _ digits s g row head tail =>
      have hText : separator true ++ (digits ++ s) ++ rest = digits ++ (s ++ rest) :=
        List.append_assoc digits s rest
      rw [hText]
      exact head.readOctets (tail.endsGroup hRest)

end Row

/-- A spelling of an address. A double colon stands for the zero groups that are missing to make eight,
at least one of them. -/
inductive IsSpelling : List Char → Address → Prop where
  | octets (a b c d : UInt8) : IsSpelling (Address.writeOctets a b c d) (.v4 a b c d)
  | groups {s : List Char} {row : GroupRow} {groups : Groups} (spelled : IsRow true s row)
      (eight : groups.val = row.groups) : IsSpelling s (.v6 groups)
  | doubleColon {s t : List Char} {front back : GroupRow} {zeros : Nat} {groups : Groups}
      (before : IsRow true s front) (plain : front.embedded = false) (behind : IsRow true t back)
      (some : 0 < zeros) (eight : groups.val = front.groups ++ List.replicate zeros 0 ++ back.groups) :
      IsSpelling (s ++ ':' :: ':' :: t) (.v6 groups)

theorem groupsOf?_eq_some_iff {row : List UInt16} {groups : Groups} :
    groupsOf? row = some groups ↔ row = groups.val := by
  unfold groupsOf?
  split
  · rw [Option.some.injEq]
    exact Subtype.ext_iff
  · rename_i hLength
    have hNe : row ≠ groups.val := fun h => hLength (h ▸ groups.property)
    simp [hNe]

/-- What is read as an address without a rest is one of its spellings. -/
theorem isSpelling_of_readV6 {s : List Char} {groups : Groups} (h : readV6 s = some (groups, [])) :
    IsSpelling s (.v6 groups) := by
  obtain ⟨front, hText, hRow, hRoom⟩ := isRow_readGroups 8 true s
  simp only [readV6] at h
  split at h
  · obtain ⟨_, hGroups, hEnd⟩ := Option.map_eq_some_iff.mp h
    obtain ⟨rfl, hRest⟩ := Prod.mk.inj hEnd
    rw [hRest, List.append_nil] at hText
    rw [hText]
    exact .groups hRow (groupsOf?_eq_some_iff.mp hGroups).symm
  · rename_i hShort
    obtain ⟨hPlain, h⟩ := Option.ite_none_left_eq_some.mp h
    split at h
    · rename_i text hColons
      obtain ⟨back, hBehind, hBack, hLeft⟩ :=
        isRow_readGroups (7 - (readGroups 8 true s).1.groups.length) true text
      obtain ⟨_, hGroups, hEnd⟩ := Option.map_eq_some_iff.mp h
      obtain ⟨rfl, hRest⟩ := Prod.mk.inj hEnd
      rw [hRest, List.append_nil] at hBehind
      rw [hText, hColons, hBehind]
      exact .doubleColon hRow (Bool.eq_false_iff.mpr hPlain) hBack (by omega)
        (groupsOf?_eq_some_iff.mp hGroups).symm
    · cases h

section Groups

variable {s t : List Char} {row front back : GroupRow} {groups : Groups}

/-- A row of eight groups is read as the address of these groups. -/
theorem readV6_groups (hRow : IsRow true s row) (hEight : groups.val = row.groups) :
    readV6 s = some (groups, []) := by
  have hLength : row.groups.length = 8 := hEight ▸ groups.property
  have hRead := hRow.readGroups (Nat.le_of_eq hLength) endsRow_nil
  rw [List.append_nil] at hRead
  simp [readV6, hRead, hLength, groupsOf?_eq_some_iff.mpr hEight.symm]

/-- Groups around a double colon are read with zeros in its place. -/
theorem readV6_doubleColon {zeros : Nat} (hFront : IsRow true s front) (hPlain : front.embedded = false)
    (hBack : IsRow true t back) (hZeros : 0 < zeros)
    (hEight : groups.val = front.groups ++ List.replicate zeros 0 ++ back.groups) :
    readV6 (s ++ ':' :: ':' :: t) = some (groups, []) := by
  have hLength : front.groups.length + zeros + back.groups.length = 8 := by
    simpa only [hEight, List.length_append, List.length_replicate] using groups.property
  have hBefore := hFront.readGroups (by omega : front.groups.length ≤ 8) (endsRow_doubleColon t)
  have hBehind := hBack.readGroups (by omega : back.groups.length ≤ 7 - front.groups.length) endsRow_nil
  have hGap : 8 - front.groups.length - back.groups.length = zeros := by omega
  have hFull : front.groups.length ≠ 8 := by omega
  rw [List.append_nil] at hBehind
  rw [readV6, hBefore]
  simp only [if_neg hFull, hPlain, Bool.false_eq_true, if_false, hBehind, hGap,
    groupsOf?_eq_some_iff.mpr hEight.symm, Option.map_some]

end Groups

/-- A text is read as an address just when it is a spelling of it. -/
theorem Address.parse?_eq_some_iff {s : List Char} {address : Address} :
    Address.parse? s = some address ↔ IsSpelling s address := by
  constructor
  · intro h
    unfold Address.parse? at h
    split at h
    · rename_i a b c d rest hOctets
      obtain ⟨hEmpty, h⟩ := Option.ite_none_right_eq_some.mp h
      obtain rfl := List.isEmpty_iff.mp hEmpty
      obtain rfl := Option.some.inj h
      obtain ⟨rfl, -⟩ := readOctets_eq_some_iff.mp hOctets
      rw [List.append_nil]
      exact .octets a b c d
    · split at h
      · rename_i groups rest hGroups
        obtain ⟨hEmpty, h⟩ := Option.ite_none_right_eq_some.mp h
        obtain rfl := List.isEmpty_iff.mp hEmpty
        obtain rfl := Option.some.inj h
        exact isSpelling_of_readV6 hGroups
      · cases h
  · intro h
    -- octets are tried first, and no spelling of version six starts with them
    cases h with
    | octets a b c d =>
        have hOctets := readOctets_writeOctets a b c d (stopsBefore_nil isDigit)
        rw [List.append_nil] at hOctets
        rw [Address.parse?, hOctets]
        rfl
    | @groups _ row groups spelled eight =>
        have hLength : row.groups.length = 8 := eight ▸ groups.property
        have hOctets := spelled.readOctets (fun _ => by omega) endsRow_nil
        rw [List.append_nil] at hOctets
        rw [Address.parse?, hOctets, readV6_groups spelled eight]
        rfl
    | @doubleColon _ t _ _ _ _ before plain behind some eight =>
        have hOctets := before.readOctets (fun h => absurd h (Bool.eq_false_iff.mp plain))
          (endsRow_doubleColon t)
        rw [Address.parse?, hOctets, readV6_doubleColon before plain behind some eight]
        rfl

end BanBoard.Net
