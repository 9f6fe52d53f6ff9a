import BanBoard.Yaml.Cursor

/-!
The tokens of YAML. Layout is told by tokens of its own, so that a row of tokens needs no columns any
more.
-/

namespace BanBoard.Yaml

inductive Style where
  | plain
  | singleQuoted
  | doubleQuoted
  | literal
  | folded
  deriving DecidableEq

inductive Token where
  | version (major minor : Nat)
  | tagHandle (handle tagPrefix : List Char)
  | documentStart
  | documentEnd
  | blockSequence
  | blockMapping
  | blockEnd
  | flowSequence
  | flowSequenceEnd
  | flowMapping
  | flowMappingEnd
  | blockEntry
  | flowEntry
  | key
  | value
  | alias_ (name : List Char)
  | anchor (name : List Char)
  | tag (handle suffix : List Char)
  | scalar (text : List Char) (style : Style)
  deriving DecidableEq

def isNameChar (c : Char) : Bool := c.isAlphanum || c = '-' || c = '_'

end BanBoard.Yaml
