import BanBoard.Text.Blank
import Mathlib.Data.Char
import Mathlib.Data.List.Lex

/-!
The order of texts is the lexicographic order of their characters, so it is a linear one.
-/

namespace BanBoard.Text

/-- The comparison is the lexicographic order. -/
theorem le_iff {a b : List Char} : le a b = true ↔ a ≤ b := by
  rw [← not_lt]
  fun_induction le a b with
  | case1 b => exact iff_of_true rfl (List.not_lt_nil b)
  | case2 a as => exact iff_of_false Bool.false_ne_true (not_not_intro (List.nil_lt_cons a as))
  | case3 a as b bs hSame ih =>
      rw [Char.toNat_inj.mp hSame, ih]
      simp
  | case4 a as b bs hOther =>
      have hNe : a ≠ b := fun hEq => hOther (congrArg Char.toNat hEq)
      have hLess : a.toNat < b.toNat ↔ a < b := UInt32.lt_iff_toNat_lt.symm
      rw [decide_eq_true_eq, hLess, List.cons_lt_cons_iff]
      simp only [hNe.symm, false_and, or_false, not_lt]
      exact ⟨le_of_lt, fun hLe => lt_of_le_of_ne hLe hNe⟩

end BanBoard.Text
