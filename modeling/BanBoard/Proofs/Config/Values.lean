import BanBoard.Config.Resolve
import BanBoard.Proofs.Text.DecimalDigit

/-!
What the texts of variables denote. A reader of values accepts a text just when the text denotes
something, and then it gives what is denoted. Numbers are decimal numerals up to a bound, and flags and
modes are words in any case. Blanks around a text do not matter.
-/

namespace BanBoard.Config

open BanBoard.Text

def flagWords : Bool → List String
  | true => ["true", "1", "yes", "on"]
  | false => ["false", "0", "no", "off"]

def DenotesFlag (value : List Char) (b : Bool) : Prop :=
  lowerAscii (trim value) ∈ (flagWords b).map String.toList

def DenotesDemo (value : List Char) : DemoSetting → Prop
  | .auto => lowerAscii (trim value) = "auto".toList
  | .on => DenotesFlag value true
  | .off => DenotesFlag value false

def DenotesPort (value : List Char) (port : UInt16) : Prop :=
  IsNumeral maxWord16 (trim value) port.toNat

def DenotesSeconds (value : List Char) (seconds : UInt64) : Prop :=
  IsNumeral maxWord64 (trim value) seconds.toNat

/-- Whether a reader of values accepts just the texts that denote something, as what they denote. -/
def Reads {α : Type} (read : List Char → Except String α) (denotes : List Char → α → Prop) :
    Prop :=
  ∀ value x, read value = .ok x ↔ denotes value x

/-- A bounded number is read from its numerals, with blanks around them or not. -/
theorem readBounded_eq_ok_iff {bound n : Nat} {value : List Char} :
    readBounded bound value = .ok n ↔ IsNumeral bound (trim value) n := by
  rw [← readUnsigned_eq_ok_iff, readBounded]
  cases readUnsigned 10 bound (trim value) <;> simp

/-- Bounded numbers are read as the words that they fill. -/
theorem reads_word {α : Type} {bound : Nat} {ofNat : Nat → α} {toNat : α → Nat}
    (hNumber : ∀ n ≤ bound, toNat (ofNat n) = n) (hWord : ∀ x, ofNat (toNat x) = x) :
    Reads (fun value => (readBounded bound value).map ofNat)
      fun value x => IsNumeral bound (trim value) (toNat x) := by
  intro value x
  dsimp only
  constructor
  · intro h
    cases hRead : readBounded bound value with
    | error reason => simp [hRead, Except.map] at h
    | ok n =>
        have hNumeral := readBounded_eq_ok_iff.mp hRead
        obtain rfl : ofNat n = x := by simpa [hRead, Except.map] using h
        rwa [hNumber n hNumeral.le_bound]
  · intro h
    rw [readBounded_eq_ok_iff.mpr h, Except.map, hWord]

theorem reads_port :
    Reads (fun value => (readBounded maxWord16 value).map Nat.toUInt16) DenotesPort :=
  reads_word (fun _ hBound => UInt16.toNat_ofNat_of_lt' (Nat.lt_succ_of_le hBound))
    fun _ => UInt16.ofNat_toNat

theorem reads_seconds :
    Reads (fun value => (readBounded maxWord64 value).map Nat.toUInt64) DenotesSeconds :=
  reads_word (fun _ hBound => UInt64.toNat_ofNat_of_lt' (Nat.lt_succ_of_le hBound))
    fun _ => UInt64.ofNat_toNat

theorem yesNo?_eq_some_iff {word : List Char} {b : Bool} :
    yesNo? word = some b ↔ word ∈ (flagWords b).map String.toList := by
  have hTrue : (flagWords true).map String.toList =
      [['t', 'r', 'u', 'e'], ['1'], ['y', 'e', 's'], ['o', 'n']] := rfl
  have hFalse : (flagWords false).map String.toList =
      [['f', 'a', 'l', 's', 'e'], ['0'], ['n', 'o'], ['o', 'f', 'f']] := rfl
  cases b with
  | true =>
      rw [hTrue, yesNo?]
      grind
  | false =>
      rw [hFalse, yesNo?]
      grind

theorem reads_flag : Reads readYesNo DenotesFlag := by
  intro value b
  rw [DenotesFlag, ← yesNo?_eq_some_iff, readYesNo]
  cases yesNo? (lowerAscii (trim value)) <;> simp

/-- The demo setting is a flag or the word for neither. -/
theorem reads_demo : Reads readDemoSetting DenotesDemo := by
  intro value setting
  have hWord : readDemoSetting value = .ok setting ↔ DemoSetting.ofText? value = some setting := by
    rw [readDemoSetting]
    cases DemoSetting.ofText? value <;> simp
  have hFlag (b : Bool) : DenotesFlag value b ↔ yesNo? (lowerAscii (trim value)) = some b :=
    yesNo?_eq_some_iff.symm
  rw [hWord, DemoSetting.ofText?]
  by_cases hAuto : lowerAscii (trim value) = ['a', 'u', 't', 'o']
  · cases setting <;> simp [DenotesDemo, hFlag, hAuto, yesNo?]
  · cases setting <;> simp [DenotesDemo, hFlag, hAuto, DemoSetting.ofBool]

end BanBoard.Config
