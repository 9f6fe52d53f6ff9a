import BanBoard.Net.AddressText
import BanBoard.Text.Blank

/-!
The words that may reach the daemon. Jail names come from a narrow alphabet and cannot be mistaken
for flags, and addresses are only ever passed on in their canonical text.
-/

namespace BanBoard

open BanBoard.Text
open BanBoard.Net (Address)

/-- Why a word is refused before anything is sent. -/
inductive ValidationError where
  | emptyJailName
  | jailNameTooLong
  | invalidJailName (name : List Char)
  | invalidAddress (text : List Char)
  deriving DecidableEq

def ValidationError.message : ValidationError → List Char
  | .emptyJailName => "Jail name is empty".toList
  | .jailNameTooLong => "Jail name is longer than 64 characters".toList
  | .invalidJailName name => "Invalid jail name: ".toList ++ name
  | .invalidAddress text => "Invalid IP address: ".toList ++ text

/-- The greatest length of a jail name in bytes. -/
def maxJailNameLength : Nat := 64

def isAsciiAlphanumeric (c : Char) : Bool :=
  ('0' ≤ c && c ≤ '9') || ('a' ≤ c && c ≤ 'z') || ('A' ≤ c && c ≤ 'Z')

/-- A character that a jail name may hold. -/
def isJailNameChar (c : Char) : Bool :=
  isAsciiAlphanumeric c || c = '.' || c = '_' || c = '-'

/-- Check a jail name. A name that is both too long and badly spelled counts as too long. -/
def checkJailName (name : List Char) : Except ValidationError Unit :=
  if name.isEmpty then .error .emptyJailName
  else if maxJailNameLength < byteLength name then .error .jailNameTooLong
  else if name.head? = some '-' || !name.all isJailNameChar then .error (.invalidJailName name)
  else .ok ()

def isJailName (name : List Char) : Bool :=
  match checkJailName name with
  | .ok () => true
  | .error _ => false

/-- Check an address, blanks around it ignored. -/
def checkAddress (text : List Char) : Except ValidationError Address :=
  match Address.parse? (trim text) with
  | some address => .ok address
  | none => .error (.invalidAddress text)

end BanBoard
