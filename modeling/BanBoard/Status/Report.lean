import BanBoard.Jail.Basic
import BanBoard.Jail.Name
import BanBoard.Net.Token
import BanBoard.Text.DecimalDigit

/-!
The reports that the daemon's client prints as a tree of labelled lines. Reading one never fails:
lines without a known label are passed over, and words that are no addresses are dropped from a list
of bans.
-/

namespace BanBoard.Status

open BanBoard.Text
open BanBoard.Net (isAddressToken)

/-- A character that the tree is drawn with. -/
def isTreeChar (c : Char) : Bool := isBlank c || c = '|' || c = '\x60' || c = '-'

/-- A line without the tree in front of it and without blanks behind it. -/
def stripTree (line : List Char) : List Char := trimEnd (line.dropWhile isTreeChar)

/-- Whether a text holds a branch: a hyphen right behind a bar or a corner. -/
def hasBranch : List Char → Bool
  | [] => false
  | [_] => false
  | a :: b :: rest => ((a = '|' || a = '\x60') && b = '-') || hasBranch (b :: rest)

/-- Whether a branch of the tree is drawn in front of a line. A continued list has none. -/
def isBranch (line : List Char) : Bool := hasBranch (line.takeWhile isTreeChar)

/-- The label and the value of a line, which are separated by its first colon. The label is put in
lower case, without blanks around it. -/
def labelled? (line : List Char) : Option (List Char × List Char) :=
  (splitOnce ':' (stripTree line)).map fun (label, value) => (lowerAscii (trim label), value)

/-- The names in a list whose separators are commas and blanks. Words that are no jail names are
dropped. -/
def namesIn (value : List Char) : List (List Char) :=
  (splitWhere (fun c => c = ',' || isBlank c) value).filter isJailName

/-- The jails that a report lists, from its first line with the label of such a list. -/
def jailList (text : List Char) : List (List Char) :=
  match (lines text).findSome? fun line =>
      (labelled? line).bind fun (label, value) =>
        if label = "jail list".toList then some value else none with
  | some value => namesIn value
  | none => []

/-- Add to a jail the addresses among the words of a text. -/
def addAddresses (jail : Jail) (text : List Char) : Jail :=
  ((words text).filter isAddressToken).foldl
    (fun jail word => (jail.addBanned (.listed word jail.name)).2) jail

/-- Whether the first word of a line is an address. -/
def startsWithAddress (line : List Char) : Bool :=
  match words line with
  | word :: _ => isAddressToken word
  | [] => false

/-- A counter, which is zero when its value shows no number. -/
def counter (value : List Char) : UInt64 := ((firstNumber? value).getD 0).toUInt64

/-- Take a labelled value into a jail. The second component tells whether it was a list of bans,
which further lines may continue. -/
def applyField (jail : Jail) (label value : List Char) : Jail × Bool :=
  if label = "currently failed".toList then ({ jail with currentlyFailed := counter value }, false)
  else if label = "total failed".toList then ({ jail with totalFailed := counter value }, false)
  else if label = "total banned".toList then ({ jail with totalBanned := counter value }, false)
  else if label = "file list".toList then (jail.setFileList (words value), false)
  else if label = "banned ip list".toList then (addAddresses jail value, true)
  else (jail, false)

/-- Take one line into a jail. The flag tells whether the lines before it belong to a list of bans,
which this line may continue if it has no branch and starts with an address. -/
def applyLine : Jail × Bool → (line : List Char) → Jail × Bool
  | (jail, inList), line =>
    let content := stripTree line
    if content.isEmpty then (jail, false)
    else if inList && !isBranch line && startsWithAddress content then
      (addAddresses jail content, true)
    else
      match labelled? line with
      | none => (jail, false)
      | some (label, value) => applyField jail label value

/-- The jail that a report describes. The count of banned addresses that the report gives is not
used, because the list itself has it. -/
def jailReport (name text : List Char) : Jail :=
  ((lines text).foldl applyLine (Jail.empty name, false)).1

end BanBoard.Status
