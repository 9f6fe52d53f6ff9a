import BanBoard.Json.Decode
import BanBoard.Json.Value
import BanBoard.Text.Blank

/-!
The mode of operation and the setting that decides it.
-/

namespace BanBoard

open BanBoard.Text

/-- Whether the daemon is real or synthetic data is shown. -/
inductive Mode where
  | live
  | demo
  deriving DecidableEq

namespace Mode

def word : Mode → String
  | .live => "live"
  | .demo => "demo"

/-- The mode that a word names. Case matters here. -/
def ofWord? (s : List Char) : Option Mode :=
  if s = Mode.live.word.toList then some .live
  else if s = Mode.demo.word.toList then some .demo
  else none

def decode? (s : List Char) : Option Mode := Json.decodeWord? ofWord? s

def toValue (mode : Mode) : Json.Value := .text mode.word.toList

end Mode

/-- How the mode is chosen: by asking the daemon, or by force. -/
inductive DemoSetting where
  | auto
  | on
  | off
  deriving DecidableEq

namespace DemoSetting

def word : DemoSetting → String
  | .auto => "auto"
  | .on => "true"
  | .off => "false"

/-- The mode that a setting forces. -/
def forced? : DemoSetting → Option Mode
  | .auto => none
  | .on => some .demo
  | .off => some .live

end DemoSetting

/-- The words for yes and no. The text is expected to be trimmed and in lower case. -/
def yesNo? (s : List Char) : Option Bool :=
  if s = ['t', 'r', 'u', 'e'] || s = ['1'] || s = ['y', 'e', 's'] || s = ['o', 'n'] then some true
  else if s = ['f', 'a', 'l', 's', 'e'] || s = ['0'] || s = ['n', 'o'] || s = ['o', 'f', 'f'] then
    some false
  else none

def DemoSetting.ofBool (b : Bool) : DemoSetting := if b then .on else .off

/-- The setting that a word names, in any case and with blanks around it. -/
def DemoSetting.ofText? (s : List Char) : Option DemoSetting :=
  let word := lowerAscii (trim s)
  if word = ['a', 'u', 't', 'o'] then some .auto else (yesNo? word).map ofBool

def DemoSetting.expected : String := "expected auto, true or false"

end BanBoard
