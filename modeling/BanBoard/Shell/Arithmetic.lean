import BanBoard.Text.Blank
import BanBoard.Text.Decimal

/-!
The arithmetic of a shell: integers, the values of variables, and operators that bind more or less
strongly.
-/

namespace BanBoard.Shell

open BanBoard.Text

abbrev Values := List Char → Int

def dropBlanks (s : List Char) : List Char := s.dropWhile isBlank

def truth (b : Bool) : Int := if b then 1 else 0

/-- An integer that is not negative, as a number of bits. -/
def bits (n : Int) : Nat := n.toNat

/-- An operator between two operands: its sign, how strongly it binds, and its value, which division
by zero does not have. -/
structure BinaryOperator where
  sign : String
  strength : Nat
  apply : Int → Int → Option Int

/-- The operators, those with longer signs first. -/
def binaryOperators : List BinaryOperator :=
  [⟨"||", 1, fun n m => some (truth (n ≠ 0 || m ≠ 0))⟩,
    ⟨"&&", 2, fun n m => some (truth (n ≠ 0 && m ≠ 0))⟩,
    ⟨"==", 6, fun n m => some (truth (n = m))⟩,
    ⟨"!=", 6, fun n m => some (truth (n ≠ m))⟩,
    ⟨"<=", 7, fun n m => some (truth (n ≤ m))⟩,
    ⟨">=", 7, fun n m => some (truth (m ≤ n))⟩,
    ⟨"<<", 8, fun n m => some (n * 2 ^ bits m)⟩,
    ⟨">>", 8, fun n m => some (Int.fdiv n (2 ^ bits m))⟩,
    ⟨"|", 3, fun n m => some (bits n ||| bits m)⟩,
    ⟨"^", 4, fun n m => some (bits n ^^^ bits m)⟩,
    ⟨"&", 5, fun n m => some (bits n &&& bits m)⟩,
    ⟨"<", 7, fun n m => some (truth (n < m))⟩,
    ⟨">", 7, fun n m => some (truth (m < n))⟩,
    ⟨"+", 9, fun n m => some (n + m)⟩,
    ⟨"-", 9, fun n m => some (n - m)⟩,
    ⟨"*", 10, fun n m => some (n * m)⟩,
    ⟨"/", 10, fun n m => if m = 0 then none else some (n.tdiv m)⟩,
    ⟨"%", 10, fun n m => if m = 0 then none else some (n.tmod m)⟩]

def operatorAt? (s : List Char) : Option BinaryOperator :=
  binaryOperators.find? fun operator => operator.sign.toList.isPrefixOf s

mutual

/-- Read an operand: a number, a variable, an expression in parentheses, or any of them with a sign. -/
def operand : (rounds : Nat) → Values → List Char → Option (Int × List Char)
  | 0, _, _ => none
  | rounds + 1, values, s =>
    match dropBlanks s with
    | '-' :: rest => (operand rounds values rest).map fun (n, rest) => (-n, rest)
    | '+' :: rest => operand rounds values rest
    | '!' :: rest => (operand rounds values rest).map fun (n, rest) => (truth (n = 0), rest)
    | '~' :: rest => (operand rounds values rest).map fun (n, rest) => (-n - 1, rest)
    | '(' :: rest => do
      let (n, rest) ← expression rounds values 1 rest
      match dropBlanks rest with
      | ')' :: rest => some (n, rest)
      | _ => none
    | '$' :: rest => operand rounds values rest
    | c :: rest =>
      if isDigit c then
        some (digitsValue (c :: rest.takeWhile isDigit), rest.dropWhile isDigit)
      else
        let name := (c :: rest).takeWhile fun c => c.isAlphanum || c = '_'
        if name.isEmpty then none else some (values name, (c :: rest).drop name.length)
    | [] => none

/-- Read an expression whose operators bind at least as strongly as asked for. -/
def expression : (rounds : Nat) → Values → (strength : Nat) → List Char →
    Option (Int × List Char)
  | 0, _, _, _ => none
  | rounds + 1, values, strength, s => do
    let (n, rest) ← operand rounds values s
    operations rounds values strength n rest

def operations : (rounds : Nat) → Values → (strength : Nat) → Int → List Char →
    Option (Int × List Char)
  | 0, _, _, _, _ => none
  | rounds + 1, values, strength, n, s =>
    let s := dropBlanks s
    match operatorAt? s with
    | none => some (n, s)
    | some operator =>
      if operator.strength < strength then some (n, s)
      else do
        let (m, rest) ←
          expression rounds values (operator.strength + 1) (s.drop operator.sign.length)
        let value ← operator.apply n m
        operations rounds values strength value rest

end

def evaluate? (values : Values) (text : List Char) : Option Int := do
  let (n, rest) ← expression (4 * text.length + 8) values 1 text
  if rest.isEmpty then some n else none

end BanBoard.Shell
