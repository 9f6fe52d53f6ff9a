import BanBoard.Text.Blank

/-!
Lowering letters. What does not tell an ASCII letter from its lower case is not changed by lowering a
text, and neither is the place of its blanks.
-/

namespace BanBoard.Text

/-- What holds of the first 128 characters holds of every ASCII character. -/
theorem forall_ascii {P : Char → Prop} (h : ∀ n < 128, P (Char.ofNat n)) {c : Char}
    (hAscii : c.toNat < 128) : P c := by
  simpa only [Char.ofNat_toNat] using h c.toNat hAscii

/-- What agrees on the two cases of every ASCII letter agrees on the two cases of every character. -/
theorem apply_toLower {f : Char → Bool}
    (h : ∀ n < 128, f (Char.ofNat n).toLower = f (Char.ofNat n)) (c : Char) : f c.toLower = f c := by
  by_cases hUpper : c.val ≥ 'A'.val ∧ c.val ≤ 'Z'.val
  · have hAscii : c.toNat < 128 :=
      Nat.lt_of_le_of_lt (UInt32.le_iff_toNat_le.mp hUpper.2) (by decide)
    exact forall_ascii (P := fun c => f c.toLower = f c) h hAscii
  · have hSame : c.toLower = c := dif_neg hUpper
    rw [hSame]

/-- Letters and their small forms are no blanks. -/
theorem isBlank_toLower (c : Char) : isBlank c.toLower = isBlank c := apply_toLower (by decide) c

/-- What does not look at the case of letters drops as much of the text in small letters. -/
theorem dropWhile_lowerAscii {p : Char → Bool} (hCase : ∀ c, p c.toLower = p c) (s : List Char) :
    (lowerAscii s).dropWhile p = lowerAscii (s.dropWhile p) := by
  have hComp : p ∘ Char.toLower = p := funext hCase
  rw [lowerAscii, List.dropWhile_map, hComp, lowerAscii]

theorem takeWhile_lowerAscii {p : Char → Bool} (hCase : ∀ c, p c.toLower = p c) (s : List Char) :
    (lowerAscii s).takeWhile p = lowerAscii (s.takeWhile p) := by
  have hComp : p ∘ Char.toLower = p := funext hCase
  rw [lowerAscii, List.takeWhile_map, hComp, lowerAscii]

/-- Trimming does not look at the case of letters. -/
theorem lowerAscii_trim (s : List Char) : lowerAscii (trim s) = trim (lowerAscii s) := by
  have hReverse (s : List Char) : (lowerAscii s).reverse = lowerAscii s.reverse :=
    List.map_reverse.symm
  rw [trim, trim, trimStart, trimStart, trimEnd, trimEnd, dropWhile_lowerAscii isBlank_toLower,
    hReverse, dropWhile_lowerAscii isBlank_toLower, hReverse]

end BanBoard.Text
