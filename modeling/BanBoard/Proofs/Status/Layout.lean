import BanBoard.Proofs.Status.Report
import BanBoard.Proofs.Text.DecimalDigit

/-!
The layouts of a report on one jail. Five fields stand in it, each under its label, in any order; a list
of bans may go on over further lines, and other lines may stand between the fields. Here each line of
such a layout is read alone.
-/

namespace BanBoard.Status

open BanBoard.Net
open BanBoard.Text

/-- The values that a report gives, the words in its lists as they are printed. -/
structure Report where
  currentlyFailed : UInt64
  totalFailed : UInt64
  totalBanned : UInt64
  files : List (List Char)
  addresses : List (List Char)
  isWord_of_mem_files : ∀ file ∈ files, IsWord file
  isAddressToken_of_mem : ∀ ip ∈ addresses, isAddressToken ip = true

inductive Field where
  | currentlyFailed
  | totalFailed
  | totalBanned
  | fileList
  | banList
  deriving DecidableEq

namespace Field

def all : List Field := [.currentlyFailed, .totalFailed, .totalBanned, .fileList, .banList]

def label : Field → List Char
  | .currentlyFailed => "currently failed".toList
  | .totalFailed => "total failed".toList
  | .totalBanned => "total banned".toList
  | .fileList => "file list".toList
  | .banList => "banned ip list".toList

end Field

/-- A part of the tree in which no branch is drawn. -/
def IsPlain (tree : List Char) : Prop := ¬['|', '-'] <:+: tree ∧ ¬['\x60', '-'] <:+: tree

/-- A line with a label, in letters of any case, and with the value behind its colon. -/
def HasLabel (label line value : List Char) : Prop :=
  ∃ tree spelled gap, (∀ c ∈ tree, isTreeChar c = true) ∧ lowerAscii spelled = label ∧
    isBlankText gap = true ∧ line = tree ++ spelled ++ gap ++ ':' :: value

/-- A line that starts with a word where a list of bans can go on: nothing but a plain part of the tree
stands before the word. -/
def StartsWith (item : List Char) (items : List (List Char)) (line : List Char) : Prop :=
  ∃ tree rest, (∀ c ∈ tree, isTreeChar c = true) ∧ IsPlain tree ∧ EndsWord rest ∧ IsRow items rest ∧
    line = tree ++ item ++ rest

/-- A numeral with blanks around it. -/
def IsNumeral (n : UInt64) (value : List Char) : Prop :=
  ∃ gap rest, isBlankText gap = true ∧ isBlankText rest = true ∧
    value = gap ++ decimal n.toNat ++ rest

/-- A line between the fields: it has none of their labels and starts with no address, or it is the
count of banned addresses, whatever that is. -/
def IsGap (line : List Char) : Prop :=
  ((∀ field value, ¬HasLabel (Field.label field) line value) ∧
      ∀ item items, StartsWith item items line → isAddressToken item = false) ∨
    ∃ value, HasLabel "currently banned".toList line value

/-- A label that is found behind the tree and cannot be taken for an address. -/
structure IsHeading (label : List Char) : Prop where
  stops : StopsBefore isTreeChar label
  trim_eq : trim label = label
  colon : ':' ∉ label
  foreign : ∃ c ∈ label.takeWhile fun c => !isBlank c, isTokenChar c = false

instance (label : List Char) : Decidable (IsHeading label) :=
  decidable_of_iff (StopsBefore isTreeChar label ∧ trim label = label ∧ ':' ∉ label ∧
      (label.takeWhile fun c => !isBlank c).any (!isTokenChar ·) = true)
    ⟨fun ⟨stops, trim_eq, colon, foreign⟩ => ⟨stops, trim_eq, colon, by simpa using foreign⟩,
      fun ⟨stops, trim_eq, colon, foreign⟩ => ⟨stops, trim_eq, colon, by simpa using foreign⟩⟩

/-- Every label of a report can stand before a colon. -/
theorem Field.isHeading (field : Field) : IsHeading field.label := by
  cases field <;> decide

theorem isTreeChar_toLower (c : Char) : isTreeChar c.toLower = isTreeChar c :=
  apply_toLower (by decide) c

/-- Blanks belong to the branches of the tree. -/
theorem isTreeChar_of_isBlank {c : Char} (h : isBlank c = true) : isTreeChar c = true := by
  simp [isTreeChar, h]

theorem isTreeChar_of_isTokenChar {c : Char} (h : isTokenChar c = true) : isTreeChar c = false := by
  have hAll : ∀ n < 128, isTokenChar (Char.ofNat n) = true → isTreeChar (Char.ofNat n) = false := by
    decide
  exact forall_ascii (P := fun c => isTokenChar c = true → isTreeChar c = false) hAll
    (toNat_lt_of_isTokenChar h) h

theorem mem_takeWhile_append {p : Char → Bool} {s : List Char} {c : Char} (h : c ∈ s.takeWhile p)
    (t : List Char) : c ∈ (s ++ t).takeWhile p := by
  rw [List.takeWhile_append]
  split
  · exact List.mem_append_left _ (List.takeWhile_subset p h)
  · exact h

/-- A text does not start with an address when its first word holds a character that addresses are not
written with. -/
theorem startsWithAddress_eq_false {s : List Char} (hStart : StopsBefore isBlank s)
    (hForeign : ∃ c ∈ s.takeWhile fun c => !isBlank c, isTokenChar c = false) :
    startsWithAddress s = false := by
  obtain ⟨c, hMem, hOther⟩ := hForeign
  unfold startsWithAddress
  split
  · rename_i item items hWords
    obtain ⟨rest, hEnd, _, rfl⟩ := exists_eq_word_append hWords hStart
    cases hToken : isAddressToken item with
    | false => rfl
    | true =>
        have hItem : ∀ d ∈ item, (!isBlank d) = true := by
          intro d hChar
          simp [(isWord_of_isAddressToken hToken).2 d hChar]
        rw [takeWhile_append hItem hEnd] at hMem
        simp [isTokenChar_of_mem hToken hMem] at hOther
  · rfl

theorem stopsBefore_blank {s : List Char} (h : StopsBefore isTreeChar s) : StopsBefore isBlank s := by
  intro c hHead
  cases hBlank : isBlank c with
  | false => rfl
  | true => rw [← isTreeChar_of_isBlank hBlank, h c hHead]

section Heading

variable {label line value spelled gap : List Char}

theorem IsHeading.stopsBefore (h : IsHeading label) (hSpelled : lowerAscii spelled = label)
    (rest : List Char) : spelled ≠ [] ∧ StopsBefore isTreeChar (spelled ++ rest) := by
  obtain ⟨c, hMem, -⟩ := h.foreign
  cases spelled with
  | nil =>
      subst hSpelled
      simp [lowerAscii] at hMem
  | cons d spelled =>
      have hStops := h.stops
      rw [← hSpelled, lowerAscii, List.map_cons, stopsBefore_cons, isTreeChar_toLower] at hStops
      simpa using hStops

/-- A heading in any case of letters is a label. -/
theorem IsHeading.isLabel (h : IsHeading label) {tree : List Char}
    (hTree : ∀ c ∈ tree, isTreeChar c = true) (hSpelled : lowerAscii spelled = label)
    (hGap : isBlankText gap = true) : IsLabel tree (spelled ++ gap) := by
  obtain ⟨hSome, hStops⟩ := h.stopsBefore hSpelled gap
  refine ⟨hTree, hStops, by simp [hSome], ?_⟩
  intro hColon
  rcases List.mem_append.mp hColon with hMem | hMem
  · have hLower : ':' ∈ lowerAscii spelled := List.mem_map_of_mem (f := Char.toLower) hMem
    exact h.colon (hSpelled ▸ hLower)
  · exact absurd (List.all_eq_true.mp hGap ':' hMem) (by decide)

/-- A heading is told by its small letters, without blanks around it. -/
theorem IsHeading.lowerAscii_trim (h : IsHeading label) (hSpelled : lowerAscii spelled = label)
    (hGap : isBlankText gap = true) : lowerAscii (trim (spelled ++ gap)) = label := by
  rw [trim_append_blank hGap, Text.lowerAscii_trim, hSpelled, h.trim_eq]

/-- The first word of a heading has a character that no token has. -/
theorem IsHeading.exists_foreign (h : IsHeading label) (hSpelled : lowerAscii spelled = label)
    (rest : List Char) :
    ∃ c ∈ (spelled ++ rest).takeWhile fun c => !isBlank c, isTokenChar c = false := by
  obtain ⟨c, hMem, hOther⟩ := h.foreign
  have hCase (c : Char) : (!isBlank c.toLower) = !isBlank c := by rw [isBlank_toLower]
  rw [← hSpelled, takeWhile_lowerAscii hCase] at hMem
  obtain ⟨d, hChar, rfl⟩ := List.mem_map.mp hMem
  rw [isTokenChar_toLower] at hOther
  exact ⟨d, mem_takeWhile_append hChar rest, hOther⟩

/-- A line with a label is read as that label and its value. -/
theorem labelled?_hasLabel (h : IsHeading label) (hLine : HasLabel label line value) :
    labelled? line = some (label, trimEnd value) := by
  obtain ⟨tree, spelled, gap, hTree, hSpelled, hGap, rfl⟩ := hLine
  rw [List.append_assoc tree, labelled?_label (h.isLabel hTree hSpelled hGap),
    h.lowerAscii_trim hSpelled hGap]

/-- A line with a label never begins with an address. -/
theorem startsWithAddress_hasLabel (h : IsHeading label) (hLine : HasLabel label line value) :
    startsWithAddress (stripTree line) = false := by
  obtain ⟨tree, spelled, gap, hTree, hSpelled, hGap, rfl⟩ := hLine
  rw [List.append_assoc tree, stripTree_label (h.isLabel hTree hSpelled hGap), List.append_assoc]
  refine startsWithAddress_eq_false ?_ (h.exists_foreign hSpelled _)
  exact stopsBefore_blank (h.stopsBefore hSpelled _).2

end Heading

/-- The label that is read from a line stands there. -/
theorem hasLabel_of_labelled? {label line value : List Char} (h : labelled? line = some (label, value)) :
    ∃ value, HasLabel label line value := by
  obtain ⟨⟨before, after⟩, hSplit, hEq⟩ := Option.map_eq_some_iff.mp h
  obtain ⟨rfl, rfl⟩ := Prod.mk.inj hEq
  obtain ⟨back, -, hBack⟩ := exists_eq_trimEnd_append (line.dropWhile isTreeChar)
  obtain ⟨front, gap, hFront, hGap, hBefore⟩ := exists_eq_trim_append before
  have hStrip : stripTree line = before ++ ':' :: after := splitOnce_eq_some hSplit
  have hLine : line = line.takeWhile isTreeChar ++ (before ++ ':' :: after ++ back) := by
    rw [← hStrip, stripTree, ← hBack, List.takeWhile_append_dropWhile]
  refine ⟨after ++ back, line.takeWhile isTreeChar ++ front, trim before, gap, ?_, rfl, hGap, ?_⟩
  · intro c hMem
    rcases List.mem_append.mp hMem with hTree | hBlank
    · exact List.all_eq_true.mp List.all_takeWhile c hTree
    · exact isTreeChar_of_isBlank (List.all_eq_true.mp hFront c hBlank)
  · calc line = line.takeWhile isTreeChar ++ (before ++ ':' :: after ++ back) := hLine
      _ = line.takeWhile isTreeChar ++ (front ++ trim before ++ gap ++ ':' :: after ++ back) := by
          rw [← hBefore]
      _ = line.takeWhile isTreeChar ++ front ++ trim before ++ gap ++ ':' :: (after ++ back) := by simp

theorem applyField_of_ne {label : List Char} (h : ∀ field, label ≠ Field.label field) (jail : Jail)
    (value : List Char) : applyField jail label value = (jail, false) := by
  have hFailed : label ≠ "currently failed".toList := h .currentlyFailed
  have hTotalFailed : label ≠ "total failed".toList := h .totalFailed
  have hTotalBanned : label ≠ "total banned".toList := h .totalBanned
  have hFiles : label ≠ "file list".toList := h .fileList
  have hBans : label ≠ "banned ip list".toList := h .banList
  rw [applyField, if_neg hFailed, if_neg hTotalFailed, if_neg hTotalBanned, if_neg hFiles, if_neg hBans]

theorem hasBranch_eq_false_iff (tree : List Char) : hasBranch tree = false ↔ IsPlain tree := by
  fun_induction hasBranch tree with
  | case1 => simp [IsPlain]
  | case2 c => simp [IsPlain, List.infix_cons_iff]
  | case3 a b rest ih =>
      simp [ih, IsPlain, List.infix_cons_iff (a := a), eq_comm (b := a), eq_comm (b := b), or_imp,
        and_and_and_comm]

/-- A line that begins with an address still does so without its tree. -/
theorem StartsWith.exists_stripTree {item line : List Char} {items : List (List Char)}
    (h : StartsWith item items line) (hItem : isAddressToken item = true) :
    isBranch line = false ∧ ∃ rest, EndsWord rest ∧ IsRow items rest ∧
      stripTree line = trimEnd (item ++ rest) := by
  obtain ⟨tree, rest, hTree, hPlain, hEnd, hRow, rfl⟩ := h
  have hStops : StopsBefore isTreeChar (item ++ rest) := by
    obtain ⟨c, tail, rfl⟩ := List.exists_cons_of_ne_nil (ne_nil_of_isAddressToken hItem)
    rw [List.cons_append, stopsBefore_cons]
    exact isTreeChar_of_isTokenChar (isTokenChar_of_mem hItem List.mem_cons_self)
  refine ⟨?_, rest, hEnd, hRow, ?_⟩
  · rw [isBranch, List.append_assoc, takeWhile_append hTree hStops, hasBranch_eq_false_iff]
    exact hPlain
  · rw [stripTree, List.append_assoc, dropWhile_append hTree hStops]

/-- A list of bans can go on with exactly the lines that are looked for. -/
theorem startsWithAddress_iff (line : List Char) :
    (isBranch line = false ∧ startsWithAddress (stripTree line) = true) ↔
      ∃ item items, isAddressToken item = true ∧ StartsWith item items line := by
  constructor
  · rintro ⟨hBranch, hAddress⟩
    rw [startsWithAddress, stripTree, words_trimEnd] at hAddress
    cases hWords : words (line.dropWhile isTreeChar) with
    | nil => simp [hWords] at hAddress
    | cons item items =>
        obtain ⟨rest, hEnd, hRow, hTail⟩ :=
          exists_eq_word_append hWords (stopsBefore_blank (stopsBefore_dropWhile isTreeChar line))
        simp only [hWords] at hAddress
        refine ⟨item, items, hAddress, line.takeWhile isTreeChar, rest,
          List.all_eq_true.mp List.all_takeWhile, (hasBranch_eq_false_iff _).mp hBranch, hEnd, hRow, ?_⟩
        rw [List.append_assoc, ← hTail, List.takeWhile_append_dropWhile]
  · rintro ⟨item, items, hItem, hStarts⟩
    obtain ⟨hBranch, rest, hEnd, -, hStrip⟩ := hStarts.exists_stripTree hItem
    refine ⟨hBranch, ?_⟩
    rw [startsWithAddress, hStrip, words_trimEnd, words_word (isWord_of_isAddressToken hItem) hEnd]
    exact hItem

theorem Field.mem_all (field : Field) : field ∈ Field.all := by
  cases field <;> decide

/-- Whether a line can stand between the fields is seen from how it is read. -/
theorem isGap_iff (line : List Char) :
    IsGap line ↔ (∀ field ∈ Field.all, (labelled? line).map Prod.fst ≠ some (Field.label field)) ∧
      (isBranch line = true ∨ startsWithAddress (stripTree line) = false) := by
  constructor
  · rintro (⟨hLabels, hWords⟩ | ⟨value, hCount⟩)
    · constructor
      · intro field _ hFound
        obtain ⟨⟨label, rest⟩, hLabelled, hLabel⟩ := Option.map_eq_some_iff.mp hFound
        obtain ⟨value, hLine⟩ := hasLabel_of_labelled? hLabelled
        exact hLabels field value (hLabel ▸ hLine)
      · cases hBranch : isBranch line with
        | true => exact .inl rfl
        | false =>
            right
            refine Bool.eq_false_iff.mpr fun hAddress => ?_
            obtain ⟨item, items, hItem, hStarts⟩ := (startsWithAddress_iff line).mp ⟨hBranch, hAddress⟩
            simp [hWords item items hStarts] at hItem
    · have hHeading : IsHeading "currently banned".toList := by decide
      have hOther : ∀ field ∈ Field.all, some "currently banned".toList ≠ some (Field.label field) := by
        decide
      refine ⟨?_, .inr (startsWithAddress_hasLabel hHeading hCount)⟩
      rw [labelled?_hasLabel hHeading hCount, Option.map_some]
      exact hOther
  · rintro ⟨hLabels, hAddress⟩
    refine .inl ⟨?_, ?_⟩
    · intro field value hLine
      refine hLabels field field.mem_all ?_
      rw [labelled?_hasLabel field.isHeading hLine, Option.map_some]
    · intro item items hStarts
      cases hItem : isAddressToken item with
      | false => rfl
      | true =>
          obtain ⟨hBranch, hStart⟩ := (startsWithAddress_iff line).mpr ⟨item, items, hItem, hStarts⟩
          simp [hBranch, hStart] at hAddress

instance (line : List Char) : Decidable (IsGap line) := decidable_of_iff' _ (isGap_iff line)

/-- A labelled line is taken by its label wherever it stands, since no list of bans goes on with it. -/
theorem applyLine_hasLabel {label line value : List Char} (h : IsHeading label)
    (hLine : HasLabel label line value) (state : Jail × Bool) :
    applyLine state line = applyField state.1 label (trimEnd value) := by
  obtain ⟨jail, inList⟩ := state
  have hLabelled := labelled?_hasLabel h hLine
  have hSome : (stripTree line).isEmpty = false := by
    cases hStrip : stripTree line with
    | nil => simp [labelled?, hStrip, splitOnce] at hLabelled
    | cons c rest => rfl
  simp only [applyLine, hSome, startsWithAddress_hasLabel h hLine, hLabelled, Bool.and_false,
    Bool.false_eq_true, if_false]

/-- A line with the list adds its addresses and leaves the list open. -/
theorem applyLine_banList {line value : List Char} (h : HasLabel (Field.label .banList) line value)
    (state : Jail × Bool) : applyLine state line = (addAddresses state.1 value, true) := by
  have hField (value : List Char) : applyField state.1 (Field.label .banList) value =
      (addAddresses state.1 value, true) := rfl
  rw [applyLine_hasLabel (Field.isHeading _) h, hField, addAddresses, words_trimEnd]
  rfl

/-- No list of bans goes on with a line that has a branch or starts with no address. -/
theorem applyLine_outside {line : List Char}
    (h : isBranch line = true ∨ startsWithAddress (stripTree line) = false) (jail : Jail)
    (inList : Bool) : applyLine (jail, inList) line = applyLine (jail, false) line := by
  have hEnds : (inList && !isBranch line && startsWithAddress (stripTree line)) = false := by
    rcases h with hBranch | hStart
    · simp [hBranch]
    · simp [hStart]
  simp only [applyLine, hEnds, Bool.false_and]

/-- A line without a known label does nothing outside of a list of bans. -/
theorem applyLine_unknown {line : List Char}
    (h : ∀ field, (labelled? line).map Prod.fst ≠ some (Field.label field)) (jail : Jail) :
    applyLine (jail, false) line = (jail, false) := by
  simp only [applyLine, Bool.false_and, Bool.false_eq_true, if_false]
  split
  · rfl
  · cases hLabelled : labelled? line with
    | none => rfl
    | some found =>
        refine applyField_of_ne (fun field hLabel => h field ?_) jail found.2
        rw [hLabelled, Option.map_some, hLabel]

/-- A line between the fields changes nothing. -/
theorem applyLine_gap {line : List Char} (h : IsGap line) (state : Jail × Bool) :
    applyLine state line = (state.1, false) := by
  obtain ⟨jail, inList⟩ := state
  obtain ⟨hLabels, hAddress⟩ := (isGap_iff line).mp h
  rw [applyLine_outside hAddress, applyLine_unknown fun field => hLabels field field.mem_all]

/-- A list of bans goes on with the words behind the tree. -/
theorem applyLine_goesOn {line : List Char} (hBranch : isBranch line = false)
    (hStart : startsWithAddress (stripTree line) = true) (jail : Jail) :
    applyLine (jail, true) line = (addAddresses jail (stripTree line), true) := by
  have hSome : (stripTree line).isEmpty = false := by
    cases hLine : stripTree line with
    | nil => simp [hLine, startsWithAddress, words, splitWhere] at hStart
    | cons c rest => rfl
  simp only [applyLine, hSome, hBranch, hStart, Bool.not_false, Bool.and_self, Bool.false_eq_true,
    if_false, if_true]

/-- A line with which a list of bans goes on. -/
theorem applyLine_startsWith {item line : List Char} {items : List (List Char)}
    (h : StartsWith item items line) (hItems : ∀ ip ∈ item :: items, isAddressToken ip = true)
    (jail : Jail) : applyLine (jail, true) line = ((item :: items).foldl Jail.addListed jail, true) := by
  obtain ⟨hItem, hRest⟩ := List.forall_mem_cons.mp hItems
  obtain ⟨hBranch, hStart⟩ := (startsWithAddress_iff line).mpr ⟨item, items, hItem, h⟩
  obtain ⟨-, rest, hEnd, hRow, hStrip⟩ := h.exists_stripTree hItem
  have hWords : words (stripTree line) = item :: items := by
    rw [hStrip, words_trimEnd, words_word (isWord_of_isAddressToken hItem) hEnd,
      hRow.words_eq fun ip hMem => isWord_of_isAddressToken (hRest ip hMem)]
  rw [applyLine_goesOn hBranch hStart, addAddresses_row hWords hItems]

end BanBoard.Status
