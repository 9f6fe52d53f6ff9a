/-!
Sums of words of sixty-four bits. A sum that is no word is none, and whatever needed it is abandoned.
-/

namespace BanBoard.Number

/-- The sum of two words, if it is a word. -/
def add? (a b : UInt64) : Option UInt64 :=
  if a.toNat + b.toNat < 2 ^ 64 then some (a + b) else none

/-- A sum is the exact one. -/
theorem add?_eq_some_iff {a b c : UInt64} : add? a b = some c ↔ a.toNat + b.toNat = c.toNat := by
  have hBound := c.toNat_lt
  unfold add?
  split
  · rename_i hFits
    rw [Option.some.injEq, ← UInt64.toNat_inj, UInt64.toNat_add, Nat.mod_eq_of_lt hFits]
  · simp only [reduceCtorEq, false_iff]
    omega

/-- There is no sum just when it takes more than a word. -/
theorem add?_eq_none_iff {a b : UInt64} : add? a b = none ↔ 2 ^ 64 ≤ a.toNat + b.toNat := by
  unfold add?
  split
  · simp only [reduceCtorEq, false_iff]
    omega
  · simp only [true_iff]
    omega

end BanBoard.Number
