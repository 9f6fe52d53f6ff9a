import BanBoard.Json.Text

/-!
JSON values as they are written. Numbers are natural, because nothing that is written has another
kind, and the members of an object keep their order.
-/

namespace BanBoard.Json

open BanBoard.Text

/-- A value to be written. -/
inductive Value where
  | null
  | bool (b : Bool)
  | nat (n : Nat)
  | text (s : List Char)
  | array (elements : List Value)
  | object (members : List (String × Value))

namespace Value

/-- A member that is left out when there is no value. -/
def optional (name : String) (value : Option Value) : List (String × Value) :=
  match value with
  | none => []
  | some v => [(name, v)]

mutual

/-- A value in the compact form, without any space. -/
def write : Value → List Char
  | .null => ['n', 'u', 'l', 'l']
  | .bool true => ['t', 'r', 'u', 'e']
  | .bool false => ['f', 'a', 'l', 's', 'e']
  | .nat n => decimal n
  | .text s => writeText s
  | .array elements => '[' :: writeElements elements ++ [']']
  | .object members => '\x7b' :: writeMembers members ++ ['\x7d']

def writeElements : List Value → List Char
  | [] => []
  | [v] => v.write
  | v :: vs => v.write ++ ',' :: writeElements vs

def writeMembers : List (String × Value) → List Char
  | [] => []
  | [(name, v)] => writeText name.toList ++ ':' :: v.write
  | (name, v) :: rest => writeText name.toList ++ ':' :: v.write ++ ',' :: writeMembers rest

end

def newLine (level : Nat) : List Char := '\n' :: List.replicate (2 * level) ' '

mutual

/-- A value over several lines, its own first line at the given level. Empty containers stay on one
line. -/
def writeLines (level : Nat) : Value → List Char
  | .array [] => ['[', ']']
  | .array elements => '[' :: elementLines (level + 1) elements ++ newLine level ++ [']']
  | .object [] => ['\x7b', '\x7d']
  | .object members => '\x7b' :: memberLines (level + 1) members ++ newLine level ++ ['\x7d']
  | .null => write .null
  | .bool b => write (.bool b)
  | .nat n => write (.nat n)
  | .text s => write (.text s)

def elementLines (level : Nat) : List Value → List Char
  | [] => []
  | [v] => newLine level ++ v.writeLines level
  | v :: vs => newLine level ++ v.writeLines level ++ ',' :: elementLines level vs

def memberLines (level : Nat) : List (String × Value) → List Char
  | [] => []
  | [(name, v)] => newLine level ++ writeText name.toList ++ ':' :: ' ' :: v.writeLines level
  | (name, v) :: rest =>
    newLine level ++ writeText name.toList ++ ':' :: ' ' :: v.writeLines level ++
      ',' :: memberLines level rest

end

end Value

end BanBoard.Json
