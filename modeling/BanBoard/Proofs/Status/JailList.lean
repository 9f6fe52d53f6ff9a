import BanBoard.Proofs.Jail.Name
import BanBoard.Proofs.Status.Layout
import BanBoard.Proofs.Text.Separated

/-!
Lists of jails. The first line with the label of such a list decides, and from it come exactly the jail
names that stand there, in order. Words that are no jail names may stand between them and change nothing.
-/

namespace BanBoard.Status

open BanBoard.Text

/-- A character that can stand between the names in a list of jails: a comma or a blank. -/
def isNameSeparator (c : Char) : Bool := c = ',' || isBlank c

/-- The list of jails on a line, if the line has the label of such a list. -/
def jailsOn? (line : List Char) : Option (List Char) :=
  (labelled? line).bind fun (label, value) => if label = "jail list".toList then some value else none

/-- A word that may be put into a list of jails and is no jail name: it starts like a flag, takes more
bytes than a name may take, or is not written in the alphabet of names. -/
structure IsBadName (word : List Char) : Prop where
  plain : ∀ c ∈ word, isNameSeparator c = false
  bad : word.head? = some '-' ∨ 64 < byteLength word ∨ ∃ c ∈ word, isJailNameChar c = false

/-- Jail names in a row, with words among them that are none. -/
inductive IsMixed : (names items : List (List Char)) → Prop
  | nil : IsMixed [] []
  | name {name : List Char} {names items : List (List Char)} (hName : IsPlainName name)
      (hRest : IsMixed names items) : IsMixed (name :: names) (name :: items)
  | bad {word : List Char} {names items : List (List Char)} (hWord : IsBadName word)
      (hRest : IsMixed names items) : IsMixed names (word :: items)

/-- A text that lists some items as jails. Its first line with the label of such a list has them behind
the colon, with any separators, and other lines may stand before and behind it. -/
def ListsJails (items : List (List Char)) (text : List Char) : Prop :=
  ∃ front line value back, text = front ++ line ++ back ∧ IsWholeLines front ∧
    (∀ other ∈ lines front, ∀ value, ¬HasLabel "jail list".toList other value) ∧
    '\n' ∉ line ∧ HasLabel "jail list".toList line value ∧
    IsSeparated isNameSeparator items value ∧ (back = [] ∨ ∃ rest, back = '\n' :: rest)

theorem isHeading_jailList : IsHeading "jail list".toList := by decide

/-- A line lists jails just when it has that label. -/
theorem jailsOn?_eq_some_iff {line value : List Char} :
    jailsOn? line = some value ↔ labelled? line = some ("jail list".toList, value) := by
  rw [jailsOn?, Option.bind_eq_some_iff]
  constructor
  · rintro ⟨⟨label, found⟩, hLine, hFound⟩
    obtain ⟨rfl, hSame⟩ := Option.ite_none_right_eq_some.mp hFound
    rw [hLine, Option.some.inj hSame]
  · exact fun hLine => ⟨_, hLine, if_pos rfl⟩

/-- In whatever form the label stands, the value behind it is the list. -/
theorem jailsOn?_hasLabel {line value : List Char} (h : HasLabel "jail list".toList line value) :
    jailsOn? line = some (trimEnd value) :=
  jailsOn?_eq_some_iff.mpr (labelled?_hasLabel isHeading_jailList h)

/-- A line without the label in any form lists no jails. -/
theorem jailsOn?_eq_none_iff {line : List Char} :
    jailsOn? line = none ↔ ∀ value, ¬HasLabel "jail list".toList line value := by
  constructor
  · intro hNone value hLine
    rw [jailsOn?_hasLabel hLine] at hNone
    cases hNone
  · intro hNone
    cases hLine : jailsOn? line with
    | none => rfl
    | some value =>
        obtain ⟨_, hLabel⟩ := hasLabel_of_labelled? (jailsOn?_eq_some_iff.mp hLine)
        exact (hNone _ hLabel).elim

/-- Blanks at the end of a line do not matter, so neither does a carriage return before a newline. -/
theorem labelled?_append_blank {gap : List Char} (hGap : isBlankText gap = true) (line : List Char) :
    labelled? (line ++ gap) = labelled? line := by
  have hStrip : stripTree (line ++ gap) = stripTree line := by
    rw [stripTree, List.dropWhile_append]
    split
    · rename_i hNone
      have hTree : ∀ c ∈ gap, isTreeChar c = true := fun c hMem =>
        isTreeChar_of_isBlank (List.all_eq_true.mp hGap c hMem)
      have hDrop : (gap ++ []).dropWhile isTreeChar = [] := dropWhile_append hTree (stopsBefore_nil _)
      rw [← List.append_nil gap, hDrop, stripTree, List.isEmpty_iff.mp hNone]
    · exact trimEnd_append_blank hGap _
  rw [labelled?, hStrip, labelled?]

/-- A carriage return at the end does not matter. -/
theorem jailsOn?_dropReturn (line : List Char) : jailsOn? (dropReturn line) = jailsOn? line := by
  rcases eq_dropReturn_or line with hSame | hLine
  · rw [← hSame]
  · have hBlank : labelled? line = labelled? (dropReturn line) :=
      (congrArg labelled? hLine).trans (labelled?_append_blank rfl _)
    rw [jailsOn?, jailsOn?, hBlank]

theorem namesIn_trimEnd (value : List Char) : namesIn (trimEnd value) = namesIn value := by
  refine filter_splitWhere_trimEnd rfl ?_ value
  intro c hBlank
  simp [hBlank]

/-- The first line with the label is the only one that counts. -/
theorem jailList_eq (text : List Char) :
    jailList text =
      match (lines text).findSome? jailsOn? with
      | some value => namesIn value
      | none => [] := rfl

/-- The first line with the label decides which jails are listed. -/
theorem jailList_of_first {text line value : List Char} {before behind : List (List Char)}
    (hLines : lines text = before ++ line :: behind) (hBefore : ∀ other ∈ before, jailsOn? other = none)
    (hLine : jailsOn? line = some value) : jailList text = namesIn value := by
  have hFirst : (lines text).findSome? jailsOn? = some value :=
    List.findSome?_eq_some_iff.mpr ⟨before, line, behind, hLines, hLine, hBefore⟩
  rw [jailList_eq, hFirst]

/-- Whatever a text says, a jail is read from it only under a jail name, which stands on the first line
with the label of a list of jails. -/
theorem exists_of_mem_jailList {text name : List Char} (h : name ∈ jailList text) :
    isJailName name = true ∧ ∃ before line behind value, lines text = before ++ line :: behind ∧
      (∀ other ∈ before, ∀ value, ¬HasLabel "jail list".toList other value) ∧
      HasLabel "jail list".toList line value ∧ HasItem isNameSeparator name value := by
  refine ⟨isJailName_of_mem_jailList h, ?_⟩
  cases hFirst : (lines text).findSome? jailsOn? with
  | none => simp [jailList_eq, hFirst] at h
  | some found =>
      obtain ⟨before, line, behind, hLines, hLine, hBefore⟩ := List.findSome?_eq_some_iff.mp hFirst
      obtain ⟨value, hLabel⟩ := hasLabel_of_labelled? (jailsOn?_eq_some_iff.mp hLine)
      have hFound : found = trimEnd value :=
        Option.some.inj (hLine.symm.trans (jailsOn?_hasLabel hLabel))
      rw [jailList_of_first hLines hBefore hLine, hFound, namesIn_trimEnd] at h
      have hOthers : ∀ other ∈ before, ∀ value, ¬HasLabel "jail list".toList other value := fun other hMem =>
        jailsOn?_eq_none_iff.mp (hBefore other hMem)
      exact ⟨before, line, behind, value, hLines, hOthers, hLabel,
        hasItem_of_mem_splitWhere (List.mem_filter.mp h).1⟩

theorem IsBadName.isJailName_eq {word : List Char} (h : IsBadName word) : isJailName word = false := by
  refine Bool.eq_false_iff.mpr fun hName => ?_
  have hPlain := isJailName_iff_isPlainName.mp hName
  rcases h.bad with hFlag | hLong | ⟨c, hMem, hChar⟩
  · exact hPlain.noFlag hFlag
  · have hBytes := byteLength_of_ascii fun c hMem =>
      toNat_lt_of_isJailNameChar (isJailNameChar_of_mem hName hMem)
    have hShort := hPlain.length_le
    omega
  · rw [isJailNameChar_of_mem hName hMem] at hChar
    cases hChar

theorem isNameSeparator_of_isJailNameChar {c : Char} (h : isJailNameChar c = true) :
    isNameSeparator c = false := by
  have hComma : c ≠ ',' := by
    rintro rfl
    exact absurd h (by decide)
  simp [isNameSeparator, hComma, isBlank_of_isJailNameChar h]

theorem IsMixed.plain {names items : List (List Char)} (h : IsMixed names items) :
    ∀ item ∈ items, ∀ c ∈ item, isNameSeparator c = false := by
  induction h with
  | nil => exact List.forall_mem_nil _
  | name hName _ ih =>
      refine List.forall_mem_cons.mpr ⟨fun c hMem => isNameSeparator_of_isJailNameChar ?_, ih⟩
      exact isJailNameChar_iff.mpr (hName.alphabet c hMem)
  | bad hWord _ ih => exact List.forall_mem_cons.mpr ⟨hWord.plain, ih⟩

/-- The check of jail names tells the names from the other words. -/
theorem IsMixed.filter_eq {names items : List (List Char)} (h : IsMixed names items) :
    items.filter isJailName = names := by
  induction h with
  | nil => rfl
  | name hName _ ih => rw [List.filter_cons_of_pos (isJailName_iff_isPlainName.mpr hName), ih]
  | bad hWord _ ih => rw [List.filter_cons_of_neg (by simp [hWord.isJailName_eq]), ih]

/-- From any separated items, the names are kept in order. -/
theorem namesIn_isSeparated {names items : List (List Char)} {row : List Char} (hItems : IsMixed names items)
    (hRow : IsSeparated isNameSeparator items row) : namesIn row = names :=
  (hRow.filter_splitWhere rfl hItems.plain).trans hItems.filter_eq

/-- The lines of a text whose line with the list is known. -/
theorem lines_append_line {front line back : List Char} (hFront : IsWholeLines front) (hLine : '\n' ∉ line)
    (hSome : line ≠ []) (hBack : back = [] ∨ ∃ rest, back = '\n' :: rest) :
    ∃ last behind, (last = line ∨ last = dropReturn line) ∧
      lines (front ++ line ++ back) = lines front ++ last :: behind := by
  rw [List.append_assoc, hFront.lines_append]
  rcases hBack with rfl | ⟨rest, rfl⟩
  · refine ⟨line, [], .inl rfl, ?_⟩
    rw [List.append_nil, lines_of_notMem hLine, if_neg (by simpa using hSome)]
  · exact ⟨dropReturn line, lines rest, .inr rfl, by rw [lines_append_newline hLine]⟩

/-- A list of jails is read as its names in order, whatever stands between them and around the list, and
as if the words in it that are no jail names were not there. -/
theorem jailList_listsJails {names items : List (List Char)} {text : List Char}
    (hText : ListsJails items text) (hItems : IsMixed names items) : jailList text = names := by
  obtain ⟨front, line, value, back, rfl, hFront, hOthers, hOneLine, hLabel, hRow, hBack⟩ := hText
  have hSome : line ≠ [] := by
    obtain ⟨tree, spelled, gap, -, -, -, rfl⟩ := hLabel
    simp
  obtain ⟨last, behind, hLast, hLines⟩ := lines_append_line hFront hOneLine hSome hBack
  have hBefore : ∀ other ∈ lines front, jailsOn? other = none := fun other hMem =>
    jailsOn?_eq_none_iff.mpr (hOthers other hMem)
  have hFound : jailsOn? last = some (trimEnd value) := by
    rcases hLast with rfl | rfl
    · exact jailsOn?_hasLabel hLabel
    · rw [jailsOn?_dropReturn, jailsOn?_hasLabel hLabel]
  rw [jailList_of_first hLines hBefore hFound, namesIn_trimEnd, namesIn_isSeparated hItems hRow]

/-- The label is in odd letters, the list starts with a comma, and a flag, a command and a word that is too
long stand among the names. Another list follows. -/
theorem jailList_listsJails_strayWords :
    let names := ["nginx-http-auth".toList, "sshd".toList, "ok.jail".toList]
    let long := List.replicate 65 'a'
    let items := ["nginx-http-auth".toList, "-x".toList, "sshd".toList, "$(id)".toList, long,
      "ok.jail".toList]
    let front := "Status\n|- Number of jail:\t3\r\n".toList
    let value := ",nginx-http-auth ,\t-x sshd,,$(id) ".toList ++ long ++ ", ok.jail\r".toList
    let line := "\x60- JAIL list :".toList ++ value
    let text := front ++ line ++ "\nJail list: other".toList
    ListsJails items text ∧ IsMixed names items ∧ jailList text = names := by
  intro names long items front value line text
  have hOthers : ∀ other ∈ lines front, jailsOn? other = none := by decide
  have hLabel : HasLabel "jail list".toList line value :=
    ⟨"\x60- ".toList, "JAIL list".toList, " ".toList, List.all_eq_true.mp rfl, rfl, rfl, rfl⟩
  have hLast : IsSeparated isNameSeparator ["ok.jail".toList] ", ok.jail\r".toList :=
    @IsSeparated.cons _ ", ".toList "ok.jail".toList "\r".toList _ (List.all_eq_true.mp rfl)
      (by decide) (.nil (List.all_eq_true.mp rfl))
  have hLong : IsSeparated isNameSeparator [long, "ok.jail".toList]
      (" ".toList ++ long ++ ", ok.jail\r".toList) :=
    .cons (List.all_eq_true.mp rfl) (by decide) hLast
  have hRow : IsSeparated isNameSeparator items value :=
    @IsSeparated.cons _ ",".toList "nginx-http-auth".toList _ _ (List.all_eq_true.mp rfl) (by decide) <|
      @IsSeparated.cons _ " ,\t".toList "-x".toList _ _ (List.all_eq_true.mp rfl) (by decide) <|
        @IsSeparated.cons _ " ".toList "sshd".toList _ _ (List.all_eq_true.mp rfl) (by decide) <|
          @IsSeparated.cons _ ",,".toList "$(id)".toList _ _ (List.all_eq_true.mp rfl) (by decide) hLong
  have hText : ListsJails items text :=
    ⟨front, line, value, _, rfl, .inr ⟨"Status\n|- Number of jail:\t3\r".toList, rfl⟩,
      fun other hMem => jailsOn?_eq_none_iff.mp (hOthers other hMem), by decide, hLabel, hRow,
      .inr ⟨"Jail list: other".toList, rfl⟩⟩
  have hName {name : List Char} (h : isJailName name = true) : IsPlainName name :=
    isJailName_iff_isPlainName.mp h
  have hPlain {word : List Char} (h : (word.all fun c => !isNameSeparator c) = true) :
      ∀ c ∈ word, isNameSeparator c = false := by
    simpa using h
  have hItems : IsMixed names items :=
    .name (hName rfl) <| .bad ⟨hPlain rfl, .inl rfl⟩ <| .name (hName rfl) <|
      .bad ⟨hPlain rfl, .inr (.inr ⟨'$', by decide, rfl⟩)⟩ <|
        .bad ⟨hPlain rfl, .inr (.inl (by decide))⟩ <| .name (hName rfl) .nil
  exact ⟨hText, hItems, jailList_listsJails hText hItems⟩

end BanBoard.Status
