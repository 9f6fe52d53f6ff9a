import BanBoard.Json.Value
import BanBoard.Proofs.Json.Text
import BanBoard.Proofs.Text.Decimal

/-!
The compact form of a value is one line: whatever it holds, no control character is written.
-/

namespace BanBoard.Json

open BanBoard.Text

/-- A text without control characters, so without line breaks in particular. -/
def IsPrintable (s : List Char) : Prop := ∀ c ∈ s, isControl c = false

@[simp] theorem isPrintable_nil : IsPrintable [] := by simp [IsPrintable]

@[simp] theorem isPrintable_cons (c : Char) (s : List Char) :
    IsPrintable (c :: s) ↔ isControl c = false ∧ IsPrintable s := by simp [IsPrintable]

@[simp] theorem isPrintable_append (s t : List Char) :
    IsPrintable (s ++ t) ↔ IsPrintable s ∧ IsPrintable t := by
  simp [IsPrintable, or_imp, forall_and]

/-- A written text has no control characters, because they are escaped. -/
theorem isPrintable_writeText (text : List Char) : IsPrintable (writeText text) :=
  fun _ => isControl_of_mem_writeText

theorem isControl_of_isDigit {c : Char} (h : isDigit c = true) : isControl c = false := by
  have hLower := (toNat_of_isDigit h).1
  simp [isControl]
  omega

theorem isPrintable_decimal (n : Nat) : IsPrintable (decimal n) :=
  fun _ hc => isControl_of_isDigit (isDigit_of_mem_decimal hc)

mutual

/-- A written value has no control characters, and so no newline. -/
theorem Value.isPrintable_write : ∀ v : Value, IsPrintable v.write
  | .null => by simp [Value.write, isControl]
  | .bool true => by simp [Value.write, isControl]
  | .bool false => by simp [Value.write, isControl]
  | .nat n => isPrintable_decimal n
  | .text s => isPrintable_writeText s
  | .array elements => by
      simpa [Value.write, isControl] using Value.isPrintable_writeElements elements
  | .object members => by
      simpa [Value.write, isControl] using Value.isPrintable_writeMembers members

theorem Value.isPrintable_writeElements : ∀ elements, IsPrintable (Value.writeElements elements)
  | [] => isPrintable_nil
  | [v] => by simpa [Value.writeElements] using v.isPrintable_write
  | v :: w :: vs => by
      simpa [Value.writeElements, isControl] using
        ⟨v.isPrintable_write, Value.isPrintable_writeElements (w :: vs)⟩

theorem Value.isPrintable_writeMembers : ∀ members, IsPrintable (Value.writeMembers members)
  | [] => isPrintable_nil
  | [(name, v)] => by
      simpa [Value.writeMembers, isControl] using
        ⟨isPrintable_writeText name.toList, v.isPrintable_write⟩
  | (name, v) :: m :: ms => by
      simpa [Value.writeMembers, isControl] using
        ⟨isPrintable_writeText name.toList, v.isPrintable_write,
          Value.isPrintable_writeMembers (m :: ms)⟩

end

end BanBoard.Json
