import BanBoard.Log.Slot
import Mathlib.Data.List.Induction

/-!
Where a file of lines is cut. Any bytes are whole lines with a torn line behind them, and the cut falls
between the two: the look at the last byte and the search from the end agree on this place.
-/

namespace BanBoard.Log

/-- Whether bytes are whole lines: there are none, or the last one is a newline. -/
def IsWhole (bytes : List UInt8) : Prop := bytes = [] ∨ bytes.getLast? = some newline

instance (bytes : List UInt8) : Decidable (IsWhole bytes) :=
  inferInstanceAs (Decidable (bytes = [] ∨ bytes.getLast? = some newline))

/-- The longest beginning of some bytes that consists of whole lines. -/
structure IsWholePart (whole bytes : List UInt8) : Prop where
  isPrefix : whole <+: bytes
  isWhole : IsWhole whole
  longest : ∀ other, other <+: bytes → IsWhole other → other <+: whole

theorem isWhole_concat (before : List UInt8) : IsWhole (before ++ [newline]) :=
  Or.inr List.getLast?_concat

variable {whole torn bytes : List UInt8}

/-- Some bytes that are whole lines end with a newline. -/
theorem IsWhole.eq_concat (h : IsWhole bytes) (hSome : bytes ≠ []) :
    ∃ before, bytes = before ++ [newline] :=
  List.getLast?_eq_some_iff.mp (h.resolve_left hSome)

theorem IsWhole.append (hFirst : IsWhole whole) (hSecond : IsWhole bytes) :
    IsWhole (whole ++ bytes) := by
  rcases hSecond with rfl | hLast
  · rwa [List.append_nil]
  · exact Or.inr (by rw [List.getLast?_append, hLast, Option.some_or])

/-- Bytes are whole lines and a torn line behind them. -/
theorem exists_isWhole_append (bytes : List UInt8) :
    ∃ whole torn, bytes = whole ++ torn ∧ IsWhole whole ∧ newline ∉ torn := by
  induction bytes using List.reverseRecOn with
  | nil => exact ⟨[], [], rfl, Or.inl rfl, List.not_mem_nil⟩
  | append_singleton bytes last ih =>
      by_cases hLast : last = newline
      · exact ⟨bytes ++ [last], [], (List.append_nil _).symm, hLast ▸ isWhole_concat bytes,
          List.not_mem_nil⟩
      · obtain ⟨whole, torn, rfl, hWhole, hTorn⟩ := ih
        refine ⟨whole, torn ++ [last], List.append_assoc _ _ _, hWhole, ?_⟩
        rw [List.mem_append, List.mem_singleton]
        exact fun hMem => hMem.elim hTorn fun hEq => hLast hEq.symm

/-- A beginning that reached into the torn line would not end with a newline. -/
theorem isWholePart_append (hWhole : IsWhole whole) (hTorn : newline ∉ torn) :
    IsWholePart whole (whole ++ torn) where
  isPrefix := List.prefix_append _ _
  isWhole := hWhole
  longest := by
    intro other hOther hEnds
    rcases List.prefix_or_prefix_of_prefix hOther (List.prefix_append whole torn) with
      hShort | ⟨part, rfl⟩
    · exact hShort
    · have hPart : part <+: torn := (List.prefix_append_right_inj whole).mp hOther
      rcases List.eq_nil_or_concat part with rfl | ⟨before, last, rfl⟩
      · simp
      · have hSome : whole ++ before.concat last ≠ [] := by simp
        obtain ⟨start, hStart⟩ := hEnds.eq_concat hSome
        rw [List.concat_eq_append, ← List.append_assoc] at hStart
        obtain rfl : last = newline := by simpa using (List.append_inj' hStart rfl).2
        exact (hTorn (hPart.subset (by simp))).elim

/-- The search from the end stops behind the whole lines. -/
theorem behindNewline_append (hWhole : IsWhole whole) (hTorn : newline ∉ torn) :
    behindNewline (whole ++ torn) = whole.length := by
  have hNone : torn.reverse.findIdx? (· = newline) = none := by
    rw [List.findIdx?_eq_none_iff]
    intro b hMem
    exact decide_eq_false fun hEq => hTorn (hEq ▸ List.mem_reverse.mp hMem)
  by_cases hEmpty : whole = []
  · subst hEmpty
    rw [List.nil_append, behindNewline, hNone]
    rfl
  · obtain ⟨before, rfl⟩ := hWhole.eq_concat hEmpty
    have hFound : ((before ++ [newline]) ++ torn).reverse.findIdx? (· = newline) = some torn.length := by
      rw [List.reverse_append, List.reverse_concat, List.findIdx?_append, hNone,
        List.findIdx?_cons, decide_eq_true rfl]
      simp
    rw [behindNewline, hFound, List.length_append]
    exact Nat.add_sub_cancel _ _

/-- A torn line shows in the last byte. -/
theorem endsLine_append (hTorn : newline ∉ torn) (hSome : torn ≠ []) :
    endsLine (whole ++ torn) = false := by
  obtain ⟨before, last, rfl⟩ := (List.eq_nil_or_concat torn).resolve_left hSome
  have hLast : last ≠ newline := by
    rintro rfl
    exact hTorn (by simp)
  rw [endsLine, List.concat_eq_append, ← List.append_assoc, List.getLast?_concat]
  exact decide_eq_false fun hEq => hLast (Option.some.inj hEq)

/-- The measured length is that of the whole lines. -/
theorem wholeLength_append (hWhole : IsWhole whole) (hTorn : newline ∉ torn) :
    wholeLength (whole ++ torn) = whole.length := by
  by_cases hNone : torn = []
  · subst hNone
    have hKept : (decide (0 < whole.length) && !endsLine whole) = false := by
      rcases hWhole with rfl | hLast
      · rfl
      · simp [endsLine, hLast]
    rw [List.append_nil, wholeLength, hKept, if_neg Bool.false_ne_true]
  · have hCut : (decide (0 < (whole ++ torn).length) && !endsLine (whole ++ torn)) = true := by
      rw [endsLine_append hTorn hNone, decide_eq_true]
      · rfl
      · rw [List.length_append]
        exact Nat.add_pos_right _ (List.length_pos_iff.mpr hNone)
    rw [wholeLength, if_pos hCut, behindNewline_append hWhole hTorn]

/-- A torn line is cut off behind the last newline. -/
theorem wholeLines_append (hWhole : IsWhole whole) (hTorn : newline ∉ torn) :
    wholeLines (whole ++ torn) = whole := by
  rw [wholeLines, wholeLength_append hWhole hTorn, List.take_left]

theorem length_wholeLines (bytes : List UInt8) : (wholeLines bytes).length = wholeLength bytes := by
  obtain ⟨whole, torn, rfl, hWhole, hTorn⟩ := exists_isWhole_append bytes
  rw [wholeLines_append hWhole hTorn, wholeLength_append hWhole hTorn]

/-- The whole lines are the longest beginning that is whole. -/
theorem isWholePart_wholeLines (bytes : List UInt8) : IsWholePart (wholeLines bytes) bytes := by
  obtain ⟨whole, torn, rfl, hWhole, hTorn⟩ := exists_isWhole_append bytes
  rw [wholeLines_append hWhole hTorn]
  exact isWholePart_append hWhole hTorn

theorem IsWhole.wholeLines_eq (h : IsWhole bytes) : wholeLines bytes = bytes := by
  simpa using wholeLines_append h List.not_mem_nil

end BanBoard.Log
