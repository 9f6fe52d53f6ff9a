import BanBoard.Files.Tree
import BanBoard.Proofs.Text.Decimal
import BanBoard.Proofs.Text.Split

/-!
Paths above a file. The text of the path above a file leads to the directory that the file is in, so
making the directories above a file that is there changes nothing.
-/

namespace BanBoard.Files

open BanBoard.Text

/-- A text is cut before the longest part at its end that consists of characters with `p`. -/
theorem exists_dropEnd_append (p : Char → Bool) (s : List Char) :
    ∃ back, s = (s.reverse.dropWhile p).reverse ++ back ∧ (∀ c ∈ back, p c = true) ∧
      ∀ c ∈ (s.reverse.dropWhile p).reverse.getLast?, p c = false := by
  refine ⟨(s.reverse.takeWhile p).reverse, ?_, fun c hMem => ?_, ?_⟩
  · rw [← List.reverse_append, List.takeWhile_append_dropWhile, List.reverse_reverse]
  · exact List.all_eq_true.mp List.all_takeWhile c (List.mem_reverse.mp hMem)
  · rw [List.getLast?_reverse]
    exact stopsBefore_dropWhile p s.reverse

/-- A slash parts the names before it from those behind. -/
theorem namesOf_append_slash (s rest : List Char) :
    namesOf (s ++ '/' :: rest) = namesOf s ++ namesOf rest := by
  rw [namesOf, splitWhere_append (by decide), List.filter_append]
  rfl

theorem namesOf_append_slashes {slashes : List Char} (h : ∀ c ∈ slashes, decide (c = '/') = true)
    (s : List Char) : namesOf (s ++ slashes) = namesOf s := by
  cases slashes with
  | nil => rw [List.append_nil]
  | cons c slashes =>
      obtain ⟨hHead, hTail⟩ := List.forall_mem_cons.mp h
      have hNone : namesOf slashes = [] := by
        rw [namesOf, ← List.append_nil slashes, filter_splitWhere_cuts rfl hTail]
        rfl
      rw [of_decide_eq_true hHead, namesOf_append_slash, hNone, List.append_nil]

theorem namesOf_name {name : List Char} (hName : ∀ c ∈ name, decide (c ≠ '/') = true)
    (hSome : name ≠ []) : namesOf name = [name] := by
  have hPlain : ∀ c ∈ name, decide (c = '/') = false := fun c hMem => by simpa using hName c hMem
  rw [namesOf, splitWhere_of_forall hPlain, List.filter_cons_of_pos (by simp [hSome]), List.filter_nil]

theorem namesOf_slashes_append {slashes : List Char} (h : ∀ c ∈ slashes, decide (c = '/') = true)
    (s : List Char) : namesOf (slashes ++ s) = namesOf s :=
  filter_splitWhere_cuts rfl h s

/-- A path is absolute by its first character. -/
theorem isAbsolute_append {s : List Char} (hSome : s ≠ []) (rest : List Char) :
    isAbsolute (s ++ rest) = isAbsolute s := by
  cases s with
  | nil => exact (hSome rfl).elim
  | cons c s => rfl

/-- The path above a text. Either there are no names in the text, or the names above are those but for
the last one: they start from the same place, and only the root ends with a slash. -/
theorem parent?_cases (text : List Char) :
    parent? text = none ∧ namesOf text = [] ∨
    ∃ above name, parent? text = some above ∧ namesOf text = namesOf above ++ [name] ∧
      (above = [] ∨ isAbsolute above = isAbsolute text ∧
        (above.getLast? = some '/' → above = ['/'])) := by
  obtain ⟨back, hText, hBack, hTrimmed⟩ := exists_dropEnd_append (· = '/') text
  dsimp only [parent?]
  generalize (text.reverse.dropWhile (· = '/')).reverse = trimmed at hText hTrimmed ⊢
  subst hText
  rw [namesOf_append_slashes hBack]
  by_cases hNone : trimmed = []
  · subst hNone
    exact Or.inl ⟨rfl, rfl⟩
  obtain ⟨name, hName, hPlain, hAbove⟩ := exists_dropEnd_append (· ≠ '/') trimmed
  generalize (trimmed.reverse.dropWhile (· ≠ '/')).reverse = above at hName hAbove ⊢
  -- A part that ends in the way both cuts forbid is empty.
  have hSome : name ≠ [] := by
    rintro rfl
    obtain ⟨before, last, rfl⟩ := (List.eq_nil_or_concat trimmed).resolve_left hNone
    rw [List.append_nil] at hName
    have hSlash := hAbove last (by simp [← hName])
    have hOther := hTrimmed last (by simp)
    simp_all
  subst hName
  obtain ⟨cut, hCut, hSlashes, hBare⟩ := exists_dropEnd_append (· = '/') above
  generalize (above.reverse.dropWhile (· = '/')).reverse = bare at hCut hBare ⊢
  subst hCut
  have hHead : isAbsolute (name ++ back) = false := by
    rw [isAbsolute_append hSome]
    cases name with
    | nil => exact (hSome rfl).elim
    | cons c name => simpa [isAbsolute] using hPlain c List.mem_cons_self
  cases cut with
  | nil =>
      rw [List.append_nil] at hAbove ⊢
      obtain rfl : bare = [] := by
        rcases List.eq_nil_or_concat bare with hNil | ⟨before, last, rfl⟩
        · exact hNil
        · have hSlash := hAbove last (by simp)
          have hOther := hBare last (by simp)
          simp_all
      refine Or.inr ⟨[], name, ?_, namesOf_name hPlain hSome, Or.inl rfl⟩
      simp [hSome, hHead]
  | cons c cut =>
      obtain ⟨hSlash, hTail⟩ := List.forall_mem_cons.mp hSlashes
      obtain rfl := of_decide_eq_true hSlash
      have hNames : namesOf (bare ++ '/' :: cut ++ name) = namesOf bare ++ [name] := by
        rw [List.append_assoc, List.cons_append, namesOf_append_slash, namesOf_slashes_append hTail,
          namesOf_name hPlain hSome]
      by_cases hBareNone : bare = []
      · subst hBareNone
        exact Or.inr ⟨['/'], name, by simp [isAbsolute], hNames,
          Or.inr ⟨by simp [isAbsolute], fun _ => rfl⟩⟩
      · refine Or.inr ⟨bare, name, by simp [hBareNone], hNames, Or.inr ⟨?_, fun hLast => ?_⟩⟩
        · rw [List.append_assoc, List.append_assoc, isAbsolute_append hBareNone]
        · simpa using hBare '/' hLast

namespace Tree

variable {tree : Tree} {current : Path} {text : List Char} {bytes : List UInt8}

/-- A file is read just when its path leads to one. -/
theorem read_eq_ok_iff : tree.read current text = .ok bytes ↔
    ∃ path, tree.follow current text = .ok path ∧ tree.file? path = some bytes := by
  rw [read]
  cases tree.follow current text with
  | error fault => simp
  | ok path =>
      simp only [Except.ok.injEq, exists_eq_left']
      cases tree.file? path <;> simp

/-- Following a text goes through its names one by one, from the root or from the current directory. -/
theorem foldlM_of_follow {path : Path} (h : tree.follow current text = .ok path) :
    (namesOf text).foldlM tree.step (if isAbsolute text then [] else current) = .ok path := by
  rw [follow] at h
  split at h
  · cases h
  · split at h
    · cases h
    · rename_i hPath
      split at h
      · cases h
      · rw [hPath, ← h]

/-- Where a name can be followed there is a directory. -/
theorem isDirectory_of_step {at_ path : Path} {name : List Char} (h : tree.step at_ name = .ok path) :
    tree.isDirectory at_ = true := by
  rw [step] at h
  split at h
  · assumption
  · split at h <;> cases h

/-- The path above a file leads to its directory. -/
theorem exists_follow_parent {above : List Char} (hRoot : tree.file? [] = none)
    {path : Path} (hFollow : tree.follow current text = .ok path)
    (hAbove : parent? text = some above) (hSome : above ≠ []) :
    ∃ directory, tree.follow current above = .ok directory ∧ tree.isDirectory directory = true := by
  obtain ⟨hNone, -⟩ | ⟨_, name, hOther, hNames, hShape⟩ := parent?_cases text
  · rw [hNone] at hAbove
    cases hAbove
  obtain rfl := Option.some.inj (hAbove.symm.trans hOther)
  obtain ⟨hStart, hSlash⟩ := hShape.resolve_left hSome
  have hFold := foldlM_of_follow hFollow
  rw [hNames, List.foldlM_append, ← hStart] at hFold
  cases hDirectory : (namesOf above).foldlM tree.step (if isAbsolute above then [] else current) with
  | error fault =>
      rw [hDirectory] at hFold
      cases hFold
  | ok directory =>
      have hStep : tree.step directory name = .ok path := by
        simp only [hDirectory, List.foldlM_cons, List.foldlM_nil, bind_pure] at hFold
        exact hFold
      have hNoFile : ¬ (decide (above.getLast? = some '/') && (tree.file? directory).isSome) = true := by
        rw [Bool.and_eq_true, decide_eq_true_eq]
        rintro ⟨hLast, hFile⟩
        obtain rfl := hSlash hLast
        obtain rfl : [] = directory := Except.ok.inj hDirectory
        rw [hRoot] at hFile
        contradiction
      refine ⟨directory, ?_, isDirectory_of_step hStep⟩
      rw [follow, if_neg (by simpa using hSome)]
      simp only [hDirectory, if_neg hNoFile]

/-- Making the directories above a file that is there changes nothing. -/
theorem makeDirectories_parent {above : List Char} (hRoot : tree.file? [] = none)
    {path : Path} (hFollow : tree.follow current text = .ok path)
    (hAbove : parent? text = some above) (rounds : Nat) :
    tree.makeDirectories (rounds + 1) current above = .ok tree := by
  rw [makeDirectories]
  split
  · rfl
  · rename_i hSome
    obtain ⟨directory, hDirectory, hThere⟩ :=
      exists_follow_parent hRoot hFollow hAbove (by simpa using hSome)
    have hMade : tree.makeDirectory current above = .error .alreadyExists := by
      simp [makeDirectory, hDirectory, has, hThere]
    have hLeads : tree.leadsToDirectory current above = true := by
      simp [leadsToDirectory, hDirectory, hThere]
    simp [hMade, hLeads]

end Tree

end BanBoard.Files
