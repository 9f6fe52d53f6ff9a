import BanBoard.Proofs.Text.Decimal
import BanBoard.Proofs.Text.Split

/-!
Items with separators of any kind and number between them. A text that is cut at the separators falls
into its items, and every piece of a text that is cut stands in the text between two separators.
-/

namespace BanBoard.Text

variable {p : Char → Bool}

/-- Whether a text can stand behind an item: it is empty or starts with a separator. -/
abbrev EndsItem (p : Char → Bool) (s : List Char) : Prop := StopsBefore (fun c => !p c) s

/-- Some items with separators between them and, if there are any, around them. -/
inductive IsSeparated (p : Char → Bool) : (items : List (List Char)) → (row : List Char) → Prop
  | nil {gap : List Char} (hGap : ∀ c ∈ gap, p c = true) : IsSeparated p [] gap
  | cons {gap item rest : List Char} {items : List (List Char)} (hGap : ∀ c ∈ gap, p c = true)
      (hEnd : EndsItem p rest) (hRest : IsSeparated p items rest) :
      IsSeparated p (item :: items) (gap ++ item ++ rest)

/-- Whether an item stands in a text, with a separator or an end of the text on either side. -/
def HasItem (p : Char → Bool) (item s : List Char) : Prop :=
  (∀ c ∈ item, p c = false) ∧
    ∃ front back, s = front ++ item ++ back ∧ EndsItem p front.reverse ∧ EndsItem p back

section Filter

variable {q : List Char → Bool} (hEmpty : q [] = false)
include hEmpty

/-- What stands behind an item is cut on its own. -/
theorem filter_splitWhere_item {item rest : List Char} (hItem : ∀ c ∈ item, p c = false)
    (hEnd : EndsItem p rest) :
    (splitWhere p (item ++ rest)).filter q = [item].filter q ++ (splitWhere p rest).filter q := by
  cases rest with
  | nil => simp [splitWhere_of_forall hItem, splitWhere, hEmpty]
  | cons c rest =>
      have hCut : p c = true := by simpa using hEnd
      rw [splitWhere_append_cons hItem hCut, filter_splitWhere_cons hEmpty hCut, ← List.filter_append]
      rfl

/-- Items are found again, whatever separators stand between them. -/
theorem IsSeparated.filter_splitWhere {items : List (List Char)} {row : List Char}
    (h : IsSeparated p items row) (hItems : ∀ item ∈ items, ∀ c ∈ item, p c = false) :
    (splitWhere p row).filter q = items.filter q := by
  induction h with
  | @nil gap hGap =>
      have hNone := filter_splitWhere_cuts hEmpty hGap []
      rw [List.append_nil] at hNone
      simp [hNone, splitWhere, hEmpty]
  | @cons gap item rest items hGap hEnd _ ih =>
      obtain ⟨hItem, hRest⟩ := List.forall_mem_cons.mp hItems
      rw [List.append_assoc, filter_splitWhere_cuts hEmpty hGap, filter_splitWhere_item hEmpty hItem hEnd,
        ih hRest, ← List.filter_append, List.singleton_append]

end Filter

/-- A text has no separator, or it starts with an item and a separator behind it. -/
theorem eq_item_or_append_cons (p : Char → Bool) (s : List Char) :
    (∀ c ∈ s, p c = false) ∨
      ∃ item c rest, (∀ d ∈ item, p d = false) ∧ p c = true ∧ s = item ++ c :: rest := by
  have hSplit : s.takeWhile (!p ·) ++ s.dropWhile (!p ·) = s := List.takeWhile_append_dropWhile
  have hItem : ∀ c ∈ s.takeWhile (!p ·), p c = false := by
    intro c hMem
    simpa using List.all_eq_true.mp List.all_takeWhile c hMem
  have hStops := stopsBefore_dropWhile (!p ·) s
  cases hRest : s.dropWhile (!p ·) with
  | nil =>
      rw [hRest, List.append_nil] at hSplit
      exact .inl (hSplit ▸ hItem)
  | cons c rest =>
      rw [hRest, stopsBefore_cons] at hStops
      exact .inr ⟨_, c, rest, hItem, by simpa using hStops, by rw [← hRest, hSplit]⟩

/-- What stands behind a separator stands in the whole text as well. -/
theorem HasItem.append_cons {item rest : List Char} (h : HasItem p item rest) (first : List Char) {c : Char}
    (hCut : p c = true) : HasItem p item (first ++ c :: rest) := by
  obtain ⟨hItem, front, back, rfl, hFront, hBack⟩ := h
  refine ⟨hItem, first ++ c :: front, back, by simp, ?_, hBack⟩
  cases hReverse : front.reverse with
  | nil => simp [List.reverse_eq_nil_iff.mp hReverse, hCut]
  | cons d tail => simpa [hReverse] using hFront

/-- Every piece stands in the text that is cut. -/
theorem hasItem_of_mem_splitWhere {piece s : List Char} (h : piece ∈ splitWhere p s) :
    HasItem p piece s := by
  induction hLength : s.length using Nat.strongRecOn generalizing s with
  | ind n ih =>
      rcases eq_item_or_append_cons p s with hItem | ⟨item, c, rest, hItem, hCut, rfl⟩
      · rw [splitWhere_of_forall hItem, List.mem_singleton] at h
        subst h
        exact ⟨hItem, [], [], by simp, stopsBefore_nil _, stopsBefore_nil _⟩
      · rw [splitWhere_append_cons hItem hCut, List.mem_cons] at h
        rcases h with rfl | hRest
        · exact ⟨hItem, [], c :: rest, rfl, stopsBefore_nil _, by simp [hCut]⟩
        · exact (ih rest.length (by simp at hLength; omega) hRest rfl).append_cons item hCut

end BanBoard.Text
