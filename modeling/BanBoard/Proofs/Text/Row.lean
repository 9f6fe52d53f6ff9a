import BanBoard.Proofs.Text.Decimal
import BanBoard.Proofs.Text.Split

/-!
Words in a row, with blanks of any kind and number between them. A row is read as its words, and every
text is the row of the words that are read from it.
-/

namespace BanBoard.Text

theorem trimEnd_append_blank {gap : List Char} (hGap : isBlankText gap = true) (s : List Char) :
    trimEnd (s ++ gap) = trimEnd s := by
  have hReverse : ∀ c ∈ gap.reverse, isBlank c = true := by
    intro c hMem
    exact List.all_eq_true.mp hGap c (List.mem_reverse.mp hMem)
  rw [trimEnd, List.reverse_append, List.dropWhile_append_of_pos hReverse, trimEnd]

theorem trim_append_blank {gap : List Char} (hGap : isBlankText gap = true) (s : List Char) :
    trim (s ++ gap) = trim s := by
  simp only [trim, trimStart, List.dropWhile_append]
  split
  · rename_i hEmpty
    have hNone : (gap ++ []).dropWhile isBlank = [] :=
      dropWhile_append (List.all_eq_true.mp hGap) (stopsBefore_nil isBlank)
    rw [← List.append_nil gap, hNone, List.isEmpty_iff.mp hEmpty]
  · exact trimEnd_append_blank hGap _

/-- Nothing in front of a character that stays is dropped from the end. -/
theorem reverse_dropWhile_append_cons {p : Char → Bool} {c : Char} (hc : p c = false)
    (front value : List Char) : ((front ++ c :: value).reverse.dropWhile p).reverse =
      front ++ c :: (value.reverse.dropWhile p).reverse := by
  have hStop : (c :: front.reverse).dropWhile p = c :: front.reverse :=
    List.dropWhile_cons_of_neg (by simp [hc])
  rw [List.reverse_append, List.reverse_cons, List.append_assoc, List.singleton_append,
    List.dropWhile_append]
  split
  · rename_i hEmpty
    rw [hStop, List.isEmpty_iff.mp hEmpty, List.reverse_cons, List.reverse_reverse]
    rfl
  · rw [List.reverse_append, List.reverse_cons, List.reverse_reverse, List.append_assoc,
      List.singleton_append]

/-- A character that is no blank keeps everything before it. -/
theorem trimEnd_append_cons {c : Char} (hc : isBlank c = false) (front value : List Char) :
    trimEnd (front ++ c :: value) = front ++ c :: trimEnd value :=
  reverse_dropWhile_append_cons hc front value

/-- A text is what is left of it and blanks behind. -/
theorem exists_eq_trimEnd_append (s : List Char) :
    ∃ back, isBlankText back = true ∧ s = trimEnd s ++ back := by
  refine ⟨(s.reverse.takeWhile isBlank).reverse, ?_, ?_⟩
  · rw [isBlankText, List.all_reverse]
    exact List.all_takeWhile
  · rw [trimEnd, ← List.reverse_append, List.takeWhile_append_dropWhile, List.reverse_reverse]

/-- A text is what is left of it between blanks. -/
theorem exists_eq_trim_append (s : List Char) :
    ∃ front back, isBlankText front = true ∧ isBlankText back = true ∧ s = front ++ trim s ++ back := by
  obtain ⟨back, hBack, hEnd⟩ := exists_eq_trimEnd_append (trimStart s)
  refine ⟨s.takeWhile isBlank, back, List.all_takeWhile, hBack, ?_⟩
  rw [List.append_assoc, trim, ← hEnd, trimStart, List.takeWhile_append_dropWhile]

/-- A word: some characters, none of them blank. -/
def IsWord (s : List Char) : Prop := s ≠ [] ∧ ∀ c ∈ s, isBlank c = false

instance (s : List Char) : Decidable (IsWord s) :=
  decidable_of_iff (s ≠ [] ∧ s.all (!isBlank ·) = true) (by simp [IsWord])

/-- Whether a text can stand behind a word: it is empty or starts with a blank. -/
abbrev EndsWord (s : List Char) : Prop := StopsBefore (fun c => !isBlank c) s

theorem isWord_decimal (n : Nat) : IsWord (decimal n) :=
  ⟨decimal_ne_nil n, fun _ hMem => isBlank_of_isDigit (isDigit_of_mem_decimal hMem)⟩

theorem trimEnd_append_word {item : List Char} (h : IsWord item) (front : List Char) :
    trimEnd (front ++ item) = front ++ item := by
  obtain ⟨init, c, rfl⟩ := (List.eq_nil_or_concat item).resolve_left h.1
  have hLast : isBlank c = false := h.2 c (by simp)
  rw [List.concat_eq_append, ← List.append_assoc, trimEnd_append_cons hLast]
  rfl

theorem trim_word {item : List Char} (h : IsWord item) : trim item = item := by
  obtain ⟨c, rest, rfl⟩ := List.exists_cons_of_ne_nil h.1
  have hStart : trimStart (c :: rest) = c :: rest :=
    List.dropWhile_cons_of_neg (by simp [h.2 c List.mem_cons_self])
  rw [trim, hStart]
  exact trimEnd_append_word h []

theorem words_blank {gap : List Char} (hGap : isBlankText gap = true) (s : List Char) :
    words (gap ++ s) = words s :=
  filter_splitWhere_cuts rfl (List.all_eq_true.mp hGap) s

theorem words_trimEnd (s : List Char) : words (trimEnd s) = words s :=
  filter_splitWhere_trimEnd rfl (fun _ hBlank => hBlank) s

/-- A word that ends is the first of the words. -/
theorem words_word {item : List Char} (hItem : IsWord item) {rest : List Char} (hEnd : EndsWord rest) :
    words (item ++ rest) = item :: words rest := by
  obtain ⟨hSome, hPlain⟩ := hItem
  have hKept : (!item.isEmpty) = true := by simpa using hSome
  cases rest with
  | nil => simp [words, splitWhere_of_forall hPlain, splitWhere, hKept]
  | cons c rest =>
      have hBlank : isBlank c = true := by simpa using hEnd
      rw [words, splitWhere_append_cons hPlain hBlank, words, filter_splitWhere_cons rfl hBlank]
      exact List.filter_cons_of_pos hKept

/-- Some words with blanks between them and, if there are any, around them. -/
inductive IsRow : (items : List (List Char)) → (row : List Char) → Prop
  | nil {gap : List Char} (hGap : isBlankText gap = true) : IsRow [] gap
  | cons {gap item rest : List Char} {items : List (List Char)} (hGap : isBlankText gap = true)
      (hEnd : EndsWord rest) (hRest : IsRow items rest) : IsRow (item :: items) (gap ++ item ++ rest)

theorem IsRow.words_eq {items : List (List Char)} {row : List Char} (h : IsRow items row)
    (hItems : ∀ item ∈ items, IsWord item) : words row = items := by
  induction h with
  | nil hGap => simpa [words, splitWhere] using words_blank hGap []
  | cons hGap hEnd _ ih =>
      obtain ⟨hHead, hTail⟩ := List.forall_mem_cons.mp hItems
      rw [List.append_assoc, words_blank hGap, words_word hHead hEnd, ih hTail]

/-- A text is blank or starts, behind blanks, with a word. -/
theorem eq_blank_or_word (s : List Char) :
    isBlankText s = true ∨ ∃ gap item rest, isBlankText gap = true ∧ IsWord item ∧ EndsWord rest ∧
      s = gap ++ item ++ rest := by
  have hSplit : s.takeWhile isBlank ++ s.dropWhile isBlank = s := List.takeWhile_append_dropWhile
  have hGap : isBlankText (s.takeWhile isBlank) = true := List.all_takeWhile
  have hStart := stopsBefore_dropWhile isBlank s
  cases hTail : s.dropWhile isBlank with
  | nil =>
      rw [hTail, List.append_nil] at hSplit
      exact .inl (hSplit ▸ hGap)
  | cons c tail =>
      right
      rw [hTail, stopsBefore_cons] at hStart
      refine ⟨_, (c :: tail).takeWhile fun d => !isBlank d, (c :: tail).dropWhile fun d => !isBlank d,
        hGap, ⟨?_, ?_⟩, stopsBefore_dropWhile _ _, ?_⟩
      · simp [hStart]
      · intro d hMem
        simpa using List.all_eq_true.mp List.all_takeWhile d hMem
      · rw [List.append_assoc, List.takeWhile_append_dropWhile, ← hTail, hSplit]

/-- Every text is the row of its words. -/
theorem isRow_words (s : List Char) : IsRow (words s) s := by
  induction hLength : s.length using Nat.strongRecOn generalizing s with
  | ind n ih =>
      rcases eq_blank_or_word s with hBlank | ⟨gap, item, rest, hGap, hItem, hEnd, rfl⟩
      · have hNone : words s = [] := (IsRow.nil hBlank).words_eq (List.forall_mem_nil _)
        rw [hNone]
        exact .nil hBlank
      · have hPos : 0 < item.length := List.length_pos_iff.mpr hItem.1
        rw [List.append_assoc, words_blank hGap, words_word hItem hEnd, ← List.append_assoc]
        exact .cons hGap hEnd (ih rest.length (by simp at hLength; omega) rest rfl)

/-- The first word stands at the beginning of a text that does not begin with a blank. -/
theorem exists_eq_word_append {s item : List Char} {items : List (List Char)}
    (hWords : words s = item :: items) (hStart : StopsBefore isBlank s) :
    ∃ rest, EndsWord rest ∧ IsRow items rest ∧ s = item ++ rest := by
  have hRow := isRow_words s
  rw [hWords] at hRow
  cases hRow with
  | @cons gap _ rest _ hGap hEnd hRest =>
      cases gap with
      | nil => exact ⟨rest, hEnd, hRest, rfl⟩
      | cons c gap =>
          have hBlank : isBlank c = true := List.all_eq_true.mp hGap c List.mem_cons_self
          rw [List.append_assoc, List.cons_append, stopsBefore_cons, hBlank] at hStart
          exact Bool.noConfusion hStart

/-- A blank parts the words before it from those behind. -/
theorem words_append_cons {c : Char} (hBlank : isBlank c = true) (s rest : List Char) :
    words (s ++ c :: rest) = words s ++ words rest := by
  rw [words, splitWhere_append hBlank, List.filter_append]
  rfl

/-- Whether a word stands in a text, with a blank or an end of the text on either side. -/
def HasWord (item s : List Char) : Prop :=
  IsWord item ∧ ∃ front back, s = front ++ item ++ back ∧ EndsWord front.reverse ∧ EndsWord back

theorem endsWord_blank {gap : List Char} (hGap : isBlankText gap = true) : EndsWord gap := by
  cases gap with
  | nil => exact stopsBefore_nil _
  | cons c gap => simpa using List.all_eq_true.mp hGap c List.mem_cons_self

/-- A word stays when what is dropped in front of it stops before the word. -/
theorem HasWord.dropWhile {p : Char → Bool} {item s : List Char} (h : HasWord item s)
    (hStops : StopsBefore p item) : HasWord item (s.dropWhile p) := by
  obtain ⟨hItem, front, back, rfl, hFront, hBack⟩ := h
  have hRest : (item ++ back).dropWhile p = item ++ back := by
    obtain ⟨c, tail, rfl⟩ := List.exists_cons_of_ne_nil hItem.1
    rw [stopsBefore_cons] at hStops
    exact StopsBefore.dropWhile_eq ((stopsBefore_cons _ _ _).mpr hStops)
  have hDrop : (front ++ (item ++ back)).dropWhile p = front.dropWhile p ++ (item ++ back) := by
    rw [List.dropWhile_append]
    split
    · rename_i hNone
      rw [hRest, List.isEmpty_iff.mp hNone, List.nil_append]
    · rfl
  refine ⟨hItem, front.dropWhile p, back, ?_, ?_, hBack⟩
  · rw [List.append_assoc, hDrop, List.append_assoc]
  · obtain ⟨dropped, hSuffix⟩ := List.dropWhile_suffix (l := front) p
    rw [← hSuffix, List.reverse_append] at hFront
    cases hReverse : (front.dropWhile p).reverse with
    | nil => exact stopsBefore_nil _
    | cons c tail => simpa [hReverse] using hFront

/-- The words of a text that are found behind its first word stand in the whole text as well. -/
theorem HasWord.append {item rest : List Char} (h : HasWord item rest) (first : List Char)
    (hEnd : EndsWord rest) : HasWord item (first ++ rest) := by
  obtain ⟨hItem, front, back, rfl, hFront, hBack⟩ := h
  refine ⟨hItem, first ++ front, back, by simp, ?_, hBack⟩
  cases hReverse : front.reverse with
  | nil =>
      obtain ⟨c, tail, rfl⟩ := List.exists_cons_of_ne_nil hItem.1
      have hPlain : isBlank c = false := hItem.2 c List.mem_cons_self
      simp [List.reverse_eq_nil_iff.mp hReverse, hPlain] at hEnd
  | cons c tail =>
      rw [hReverse] at hFront
      rwa [List.reverse_append, hReverse]

/-- The words that are read from a text are those that stand in it. -/
theorem mem_words_iff {item s : List Char} : item ∈ words s ↔ HasWord item s := by
  constructor
  · intro hMem
    induction hLength : s.length using Nat.strongRecOn generalizing s with
    | ind n ih =>
        rcases eq_blank_or_word s with hBlank | ⟨gap, first, rest, hGap, hFirst, hEnd, rfl⟩
        · simp [(IsRow.nil hBlank).words_eq (List.forall_mem_nil _)] at hMem
        · rw [List.append_assoc, words_blank hGap, words_word hFirst hEnd, List.mem_cons] at hMem
          rcases hMem with rfl | hMem
          · refine ⟨hFirst, gap, rest, rfl, endsWord_blank ?_, hEnd⟩
            rwa [isBlankText, List.all_reverse]
          · have hPos : 0 < first.length := List.length_pos_iff.mpr hFirst.1
            exact (ih rest.length (by simp at hLength; omega) hMem rfl).append _ hEnd
  · rintro ⟨hItem, front, back, rfl, hFront, hBack⟩
    rcases List.eq_nil_or_concat front with rfl | ⟨front, c, rfl⟩
    · rw [List.nil_append, words_word hItem hBack]
      exact List.mem_cons_self
    · have hBlank : isBlank c = true := by simpa using hFront
      rw [List.concat_eq_append, List.append_assoc, List.append_assoc, List.singleton_append,
        words_append_cons hBlank, words_word hItem hBack]
      exact List.mem_append_right _ List.mem_cons_self

end BanBoard.Text
