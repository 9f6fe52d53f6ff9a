import BanBoard.Text.Blank

/-!
Texts that were put together from pieces are cut into those pieces again, as long as no piece holds a
character at which the text is cut.
-/

namespace BanBoard.Text

variable {p : Char → Bool}

/-- There is always a piece, if only an empty one. -/
theorem splitWhere_ne_nil (s : List Char) : splitWhere p s ≠ [] := by
  fun_induction splitWhere p s <;> simp

theorem splitWhere_of_forall {piece : List Char} (h : ∀ c ∈ piece, p c = false) :
    splitWhere p piece = [piece] := by
  induction piece with
  | nil => rfl
  | cons c piece ih =>
      obtain ⟨hHead, hTail⟩ := List.forall_mem_cons.mp h
      rw [splitWhere, ih hTail, if_neg (by simp [hHead])]

/-- What stands before a cut and what stands behind it are cut on their own. -/
theorem splitWhere_append {c : Char} (hCut : p c = true) (s rest : List Char) :
    splitWhere p (s ++ c :: rest) = splitWhere p s ++ splitWhere p rest := by
  induction s with
  | nil => simp [splitWhere, hCut]
  | cons d s ih =>
      rw [List.cons_append, splitWhere, splitWhere, ih]
      split
      · rfl
      · cases hPieces : splitWhere p s with
        | nil => exact (splitWhere_ne_nil s hPieces).elim
        | cons piece pieces => rfl

/-- The first cut is made behind the first piece. -/
theorem splitWhere_append_cons {piece : List Char} {c : Char} (h : ∀ d ∈ piece, p d = false)
    (hCut : p c = true) (rest : List Char) :
    splitWhere p (piece ++ c :: rest) = piece :: splitWhere p rest := by
  rw [splitWhere_append hCut, splitWhere_of_forall h, List.singleton_append]

/-- Pieces that are ended by cuts come back, with an empty piece behind the last cut. -/
theorem splitWhere_flatMap {pieces : List (List Char)} {c : Char}
    (h : ∀ piece ∈ pieces, ∀ d ∈ piece, p d = false) (hCut : p c = true) :
    splitWhere p (pieces.flatMap (· ++ [c])) = pieces ++ [[]] := by
  induction pieces with
  | nil => rfl
  | cons piece pieces ih =>
      obtain ⟨hHead, hTail⟩ := List.forall_mem_cons.mp h
      rw [List.flatMap_cons, List.append_assoc, List.singleton_append,
        splitWhere_append_cons hHead hCut, ih hTail, List.cons_append]

section Filter

variable {q : List Char → Bool}

/-- A cut in front only adds an empty piece, which does not matter where those are dropped. -/
theorem filter_splitWhere_cons (hEmpty : q [] = false) {c : Char} (hCut : p c = true)
    (s : List Char) : (splitWhere p (c :: s)).filter q = (splitWhere p s).filter q := by
  rw [splitWhere, if_pos hCut, List.filter_cons_of_neg (by simp [hEmpty])]

/-- Cuts before the first piece give empty pieces only. -/
theorem filter_splitWhere_cuts (hEmpty : q [] = false) {cuts : List Char}
    (hCuts : ∀ c ∈ cuts, p c = true) (s : List Char) :
    (splitWhere p (cuts ++ s)).filter q = (splitWhere p s).filter q := by
  induction cuts with
  | nil => rfl
  | cons c cuts ih =>
      obtain ⟨hHead, hTail⟩ := List.forall_mem_cons.mp hCuts
      rw [List.cons_append, filter_splitWhere_cons hEmpty hHead, ih hTail]

theorem splitWhere_concat {c : Char} (hCut : p c = true) (s : List Char) :
    splitWhere p (s ++ [c]) = splitWhere p s ++ [[]] :=
  splitWhere_append hCut s []

/-- Blanks at the end do not matter either. -/
theorem filter_splitWhere_trimEnd (hEmpty : q [] = false) (hBlank : ∀ c, isBlank c = true → p c = true)
    (s : List Char) : (splitWhere p (trimEnd s)).filter q = (splitWhere p s).filter q := by
  have hReverse (s : List Char) :
      (splitWhere p (s.dropWhile isBlank).reverse).filter q = (splitWhere p s.reverse).filter q := by
    induction s with
    | nil => rfl
    | cons c s ih =>
        by_cases hc : isBlank c = true
        · rw [List.dropWhile_cons_of_pos hc, ih, List.reverse_cons, splitWhere_concat (hBlank c hc),
            List.filter_append, List.filter_cons_of_neg (by simp [hEmpty]), List.filter_nil,
            List.append_nil]
        · rw [List.dropWhile_cons_of_neg hc]
  rw [trimEnd, hReverse s.reverse, List.reverse_reverse]

/-- Items that are joined by cuts are the pieces. -/
theorem filter_splitWhere_intercalate (hEmpty : q [] = false) {separator : List Char}
    (hSeparator : ∀ c ∈ separator, p c = true) (hSome : separator ≠ []) {items : List (List Char)}
    (hItems : ∀ item ∈ items, (∀ c ∈ item, p c = false) ∧ q item = true) :
    (splitWhere p (separator.intercalate items)).filter q = items := by
  obtain ⟨c, cuts, rfl⟩ := List.exists_cons_of_ne_nil hSome
  obtain ⟨hCut, hCuts⟩ := List.forall_mem_cons.mp hSeparator
  induction items with
  | nil => simp [splitWhere, hEmpty]
  | cons item items ih =>
      obtain ⟨⟨hPlain, hKept⟩, hTail⟩ := List.forall_mem_cons.mp hItems
      cases items with
      | nil => simp [splitWhere_of_forall hPlain, hKept]
      | cons next items =>
          rw [List.intercalate_cons_cons, List.append_assoc, List.cons_append,
            splitWhere_append_cons hPlain hCut, List.filter_cons_of_pos hKept,
            filter_splitWhere_cuts hEmpty hCuts, ih hTail]

end Filter

/-- Splitting agrees with the one of the library. -/
theorem splitWhere_eq_splitOnP (s : List Char) : splitWhere p s = s.splitOnP p := by
  induction s with
  | nil => rfl
  | cons c s ih =>
      obtain ⟨piece, pieces, hPieces⟩ := List.exists_cons_of_ne_nil (List.splitOnP_ne_nil p s)
      rw [splitWhere, List.splitOnP_cons_eq_if_modifyHead, ih, hPieces]
      rfl

theorem notMem_of_mem_splitOn {α : Type} [BEq α] [LawfulBEq α] {cut : α} {xs : List α} :
    ∀ piece ∈ xs.splitOn cut, cut ∉ piece := by
  induction xs with
  | nil => simp
  | cons x xs ih =>
      obtain ⟨piece, pieces, hPieces⟩ := List.exists_cons_of_ne_nil (List.splitOn_ne_nil cut xs)
      rw [hPieces, List.forall_mem_cons] at ih
      rw [List.splitOn_cons_eq_if_modifyHead, hPieces]
      by_cases hCut : x = cut
      · simpa [hCut] using ih
      · simpa [hCut, Ne.symm hCut] using ih

theorem splitOnce_eq_none {separator : Char} {s : List Char} (h : separator ∉ s) :
    splitOnce separator s = none := by
  induction s with
  | nil => rfl
  | cons c s ih =>
      obtain ⟨hHead, hTail⟩ := List.ne_and_not_mem_of_not_mem_cons h
      rw [splitOnce, if_neg (Ne.symm hHead), ih hTail]
      rfl

/-- The first separator stands behind a text without one. -/
theorem splitOnce_append_cons {separator : Char} {before : List Char} (h : separator ∉ before)
    (rest : List Char) : splitOnce separator (before ++ separator :: rest) = some (before, rest) := by
  induction before with
  | nil => simp [splitOnce]
  | cons c before ih =>
      obtain ⟨hHead, hTail⟩ := List.ne_and_not_mem_of_not_mem_cons h
      rw [List.cons_append, splitOnce, if_neg (Ne.symm hHead), ih hTail]
      rfl

/-- A text that is split once is its two parts with the separator between them. -/
theorem splitOnce_eq_some {separator : Char} {s before after : List Char}
    (h : splitOnce separator s = some (before, after)) : s = before ++ separator :: after := by
  induction s generalizing before with
  | nil => cases h
  | cons c s ih =>
      rw [splitOnce] at h
      split at h
      · rename_i hHead
        obtain ⟨rfl, rfl⟩ := Prod.mk.inj (Option.some.inj h)
        rw [hHead, List.nil_append]
      · obtain ⟨⟨front, back⟩, hTail, hEq⟩ := Option.map_eq_some_iff.mp h
        obtain ⟨rfl, rfl⟩ := Prod.mk.inj hEq
        rw [ih hTail, List.cons_append]

/-- Without a carriage return there is none to drop. -/
theorem dropReturn_of_notMem {line : List Char} (h : '\r' ∉ line) : dropReturn line = line := by
  unfold dropReturn
  split
  · rename_i before hReverse
    have hMem : '\r' ∈ line.reverse := hReverse ▸ List.mem_cons_self
    exact (h (List.mem_reverse.mp hMem)).elim
  · rfl

/-- A carriage return at the end of a line is all that can be dropped. -/
theorem eq_dropReturn_or (line : List Char) :
    line = dropReturn line ∨ line = dropReturn line ++ ['\r'] := by
  unfold dropReturn
  split
  · rename_i before hReverse
    right
    rw [← List.reverse_cons, ← hReverse, List.reverse_reverse]
  · exact .inl rfl

/-- A text that can stand on one line: it holds no line break. -/
def IsLine (s : List Char) : Prop := '\n' ∉ s ∧ '\r' ∉ s

instance (s : List Char) : Decidable (IsLine s) :=
  inferInstanceAs (Decidable ('\n' ∉ s ∧ '\r' ∉ s))

@[simp] theorem isLine_append (s t : List Char) : IsLine (s ++ t) ↔ IsLine s ∧ IsLine t := by
  simp only [IsLine, List.mem_append, not_or]
  exact and_and_and_comm

@[simp] theorem isLine_cons (c : Char) (s : List Char) :
    IsLine (c :: s) ↔ (c ≠ '\n' ∧ c ≠ '\r') ∧ IsLine s := by
  simp only [IsLine, List.mem_cons, not_or, ne_eq, eq_comm (a := c)]
  exact and_and_and_comm

theorem isLine_of_forall {s : List Char} (h : ∀ c ∈ s, isBlank c = false) : IsLine s :=
  ⟨fun hMem => absurd (h _ hMem) (by decide), fun hMem => absurd (h _ hMem) (by decide)⟩

/-- Lines with a separator that is part of a line make one line. -/
theorem isLine_intercalate {separator : List Char} (hSeparator : IsLine separator)
    {items : List (List Char)} (hItems : ∀ item ∈ items, IsLine item) :
    IsLine (separator.intercalate items) := by
  induction items with
  | nil => exact ⟨List.not_mem_nil, List.not_mem_nil⟩
  | cons item items ih =>
      obtain ⟨hHead, hTail⟩ := List.forall_mem_cons.mp hItems
      cases items with
      | nil => rwa [List.intercalate_singleton]
      | cons next items =>
          rw [List.intercalate_cons_cons, isLine_append, isLine_append]
          exact ⟨⟨hHead, hSeparator⟩, ih hTail⟩

/-- Lines that were ended by newlines are the lines of the text. -/
theorem lines_flatMap {texts : List (List Char)} (h : ∀ line ∈ texts, IsLine line) :
    lines (texts.flatMap (· ++ ['\n'])) = texts := by
  have hPieces : ∀ line ∈ texts, ∀ c ∈ line, decide (c = '\n') = false := by
    intro line hLine c hChar
    exact decide_eq_false fun hEq => (h line hLine).1 (hEq ▸ hChar)
  rw [lines, splitWhere_flatMap hPieces (by decide)]
  clear hPieces
  induction texts with
  | nil => rfl
  | cons line texts ih =>
      obtain ⟨hHead, hTail⟩ := List.forall_mem_cons.mp h
      rw [List.cons_append, linesOfPieces, ih hTail, dropReturn_of_notMem hHead.2]
      simp

/-- Pieces before others are lines that were ended. -/
theorem linesOfPieces_append (pieces : List (List Char)) {others : List (List Char)} (h : others ≠ []) :
    linesOfPieces (pieces ++ others) = pieces.map dropReturn ++ linesOfPieces others := by
  induction pieces with
  | nil => rfl
  | cons piece pieces ih =>
      have hSome : pieces ++ others ≠ [] := List.append_ne_nil_of_right_ne_nil pieces h
      obtain ⟨next, rest, hNext⟩ := List.exists_cons_of_ne_nil hSome
      rw [List.cons_append, hNext, linesOfPieces, ← hNext, ih, List.map_cons, List.cons_append]
      simp

/-- A text without a newline is one line, or none if it is empty. -/
theorem lines_of_notMem {s : List Char} (h : '\n' ∉ s) : lines s = if s.isEmpty then [] else [s] := by
  have hPiece : ∀ c ∈ s, decide (c = '\n') = false := fun c hMem =>
    decide_eq_false fun hEq => h (hEq ▸ hMem)
  rw [lines, splitWhere_of_forall hPiece, linesOfPieces]

/-- A newline ends the line before it. -/
theorem lines_append_newline {line : List Char} (h : '\n' ∉ line) (rest : List Char) :
    lines (line ++ '\n' :: rest) = dropReturn line :: lines rest := by
  have hPiece : ∀ c ∈ line, decide (c = '\n') = false := fun c hMem =>
    decide_eq_false fun hEq => h (hEq ▸ hMem)
  obtain ⟨piece, pieces, hPieces⟩ := List.exists_cons_of_ne_nil (splitWhere_ne_nil (p := (· = '\n')) rest)
  rw [lines, splitWhere_append_cons hPiece (by decide), lines, hPieces]
  rfl

/-- Neither the carriage returns before newlines nor a missing last newline matter to a reader of lines
that finds the same on a line with a carriage return at its end, and nothing on an empty one. -/
theorem filterMap_lines {α : Type} {read : List Char → Option α}
    (hReturn : ∀ line, read (line ++ ['\r']) = read line) (hEmpty : read [] = none) (text : List Char) :
    (lines text).filterMap read = (text.splitOn '\n').filterMap read := by
  have hDropped (line : List Char) : read (dropReturn line) = read line := by
    rcases eq_dropReturn_or line with hSame | hLine
    · exact congrArg read hSame.symm
    · exact (hReturn _).symm.trans (congrArg read hLine.symm)
  have hPieces (pieces : List (List Char)) :
      (linesOfPieces pieces).filterMap read = pieces.filterMap read := by
    fun_induction linesOfPieces pieces with
    | case1 => rfl
    | case2 piece hNone => rw [List.isEmpty_iff.mp hNone, List.filterMap_cons_none hEmpty]
    | case3 piece hSome => rfl
    | case4 piece pieces _ ih => simp only [List.filterMap_cons, hDropped, ih]
  rw [lines, hPieces, splitWhere_eq_splitOnP]
  rfl

/-- A text of whole lines: it is empty or ends with a newline. -/
def IsWholeLines (s : List Char) : Prop := s = [] ∨ ∃ before, s = before ++ ['\n']

theorem isWholeLines_nil : IsWholeLines [] := Or.inl rfl

theorem isWholeLines_append (s line : List Char) : IsWholeLines (s ++ (line ++ ['\n'])) :=
  Or.inr ⟨s ++ line, (List.append_assoc _ _ _).symm⟩

/-- Whole lines keep their lines, whatever stands behind them. -/
theorem IsWholeLines.lines_append {s : List Char} (h : IsWholeLines s) (rest : List Char) :
    lines (s ++ rest) = lines s ++ lines rest := by
  rcases h with rfl | ⟨before, rfl⟩
  · rfl
  · rw [List.append_assoc, List.singleton_append, lines, lines, splitWhere_append (by decide),
      splitWhere_concat (by decide), linesOfPieces_append _ (splitWhere_ne_nil rest),
      linesOfPieces_append _ (List.cons_ne_nil _ _), lines]
    simp [linesOfPieces]

end BanBoard.Text
