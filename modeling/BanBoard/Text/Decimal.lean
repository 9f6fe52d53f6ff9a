import BanBoard.Number.Core

/-!
Decimal and other positional numerals. Reading a bounded number goes digit by digit from the left,
so of two faults in one numeral the one that stands further left is reported.
-/

namespace BanBoard.Text

inductive NumeralError where
  | empty
  | invalidDigit
  | tooLarge
  deriving DecidableEq

def NumeralError.message : NumeralError → String
  | .empty => "cannot parse integer from empty string"
  | .invalidDigit => "invalid digit found in string"
  | .tooLarge => "number too large to fit in target type"

/-- The value of an ASCII digit in a base of at most sixteen, letters in either case. -/
def digitValue? (base : Nat) (c : Char) : Option Nat :=
  let value :=
    if '0' ≤ c ∧ c ≤ '9' then c.toNat - '0'.toNat
    else if 'a' ≤ c ∧ c ≤ 'f' then c.toNat - 'a'.toNat + 10
    else if 'A' ≤ c ∧ c ≤ 'F' then c.toNat - 'A'.toNat + 10
    else base
  if value < base then some value else none

def isDigit (c : Char) : Bool := '0' ≤ c && c ≤ '9'

/-- The value of a list of decimal digits, the first one the most significant. Characters that are
no digits count as zeros, so callers pass digits alone. -/
def digitsValue (digits : List Char) : Nat :=
  digits.foldl (fun acc c => acc * 10 + (c.toNat - '0'.toNat)) 0

def readDigits (base bound acc : Nat) : List Char → Except NumeralError Nat
  | [] => .ok acc
  | c :: rest =>
    match digitValue? base c with
    | none => .error .invalidDigit
    | some d =>
      if acc * base + d ≤ bound then readDigits base bound (acc * base + d) rest
      else .error .tooLarge

/-- Read an unsigned numeral of at most `bound`. One plus sign in front is allowed and no other
sign is, and the text has no blanks. -/
def readUnsigned (base bound : Nat) : List Char → Except NumeralError Nat
  | [] => .error .empty
  | ['+'] => .error .invalidDigit
  | '+' :: rest => readDigits base bound 0 rest
  | s => readDigits base bound 0 s

def maxByte : Nat := 2 ^ 8 - 1

def maxWord16 : Nat := 2 ^ 16 - 1

/-- The greatest value of a sixty-four-bit word. -/
def maxWord64 : Nat := 2 ^ 64 - 1

/-- The decimal numeral of a number, without leading zeros. -/
def decimal (n : Nat) : List Char := Nat.toDigits 10 n

/-- The decimal numeral of a number, with zeros in front up to a width. -/
def decimalPadded (width n : Nat) : List Char :=
  List.replicate (width - (decimal n).length) '0' ++ decimal n

/-- Split off the longest run of decimal digits in front, but no more than `limit` of them. -/
def takeDigits : (limit : Nat) → List Char → List Char × List Char
  | 0, s => ([], s)
  | _ + 1, [] => ([], [])
  | limit + 1, c :: rest =>
    if isDigit c then
      let (digits, after) := takeDigits limit rest
      (c :: digits, after)
    else ([], c :: rest)

end BanBoard.Text
