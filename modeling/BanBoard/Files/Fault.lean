import BanBoard.Text.Decimal

/-!
The reasons for which an operation on a file fails, in the words and numbers of the operating system.
-/

namespace BanBoard.Files

open BanBoard.Text (decimal)

/-- Why a file could not be used. Everything that is neither a number of the operating system nor bad
text goes under its own words. -/
inductive Fault where
  | notFound
  | noAccess
  | alreadyExists
  | notDirectory
  | isDirectory
  | notText
  | other (text : List Char)
  deriving DecidableEq

def numbered (text : String) (number : Nat) : List Char :=
  text.toList ++ " (os error ".toList ++ decimal number ++ [')']

def Fault.message : Fault → List Char
  | .notFound => numbered "No such file or directory" 2
  | .noAccess => numbered "Permission denied" 13
  | .alreadyExists => numbered "File exists" 17
  | .notDirectory => numbered "Not a directory" 20
  | .isDirectory => numbered "Is a directory" 21
  | .notText => "stream did not contain valid UTF-8".toList
  | .other text => text

end BanBoard.Files
