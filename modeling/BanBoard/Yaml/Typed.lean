import BanBoard.Text.Decimal
import BanBoard.Yaml.Node

/-!
The typed readings of scalars. A plain scalar may be null, a truth value or a number, while a quoted
one is only ever text.
-/

namespace BanBoard.Yaml

open BanBoard.Text (digitsValue isDigit maxWord64 readUnsigned)

def standardTag (name : String) : List Char := "tag:yaml.org,2002:".toList ++ name.toList

def isNullWord (s : List Char) : Bool :=
  s = "null".toList || s = "Null".toList || s = "NULL".toList || s = ['~']

def boolWord? (s : List Char) : Option Bool :=
  if s = "true".toList || s = "True".toList || s = "TRUE".toList then some true
  else if s = "false".toList || s = "False".toList || s = "FALSE".toList then some false
  else none

/-- Whether a text is digits with a leading zero, which makes it no number. -/
def hasLeadingZero : List Char → Bool
  | '0' :: d :: rest => isDigit d && rest.all isDigit
  | _ => false

/-- Read an unsigned numeral in a base, without any sign. -/
def unsignedDigits? (base bound : Nat) (s : List Char) : Option Nat :=
  match s with
  | '+' :: _ => none
  | _ => (readUnsigned base bound s).toOption

def natural? (bound : Nat) (s : List Char) : Option Nat :=
  let s := match s with
    | '+' :: rest => rest
    | _ => s
  match s with
  | '0' :: 'x' :: digits => unsignedDigits? 16 bound digits
  | '0' :: 'o' :: digits => unsignedDigits? 8 bound digits
  | '0' :: 'b' :: digits => unsignedDigits? 2 bound digits
  | _ => if hasLeadingZero s then none else unsignedDigits? 10 bound s

namespace Scalar

/-- Whether a scalar may have a type other than text: a plain one may, unless its tag says that it is
text, and so may a literal one whose tag says so. -/
def isTyped (s : Scalar) (tag : String) : Bool :=
  (s.style = .plain && s.tag ≠ some (standardTag "str")) ||
    (s.style = .literal && s.tag = some (standardTag tag))

def natural? (s : Scalar) (bound : Nat) : Option Nat :=
  if s.isTyped "int" then Yaml.natural? bound s.text else none

def bool? (s : Scalar) : Option Bool := if s.isTyped "bool" then boolWord? s.text else none

/-- Whether a scalar is null. A plain one with the tag for null that is not null is refused. -/
def isNull? (s : Scalar) : Option Bool :=
  if s.style ≠ .plain then some false
  else
    match s.tag with
    | none => some (s.text.isEmpty || isNullWord s.text)
    | some tag =>
      if tag = standardTag "null" then (if isNullWord s.text then some true else none)
      else some false

end Scalar

end BanBoard.Yaml
