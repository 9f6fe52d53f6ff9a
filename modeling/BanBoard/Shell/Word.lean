import BanBoard.Jail.Name

/-!
Words on the command line of a shell. Quoting turns any text into one word, and the reading here is
that of a shell restricted to quotes and backslashes: it refuses every character that would do more.
-/

namespace BanBoard.Shell

def isSafe (c : Char) : Bool :=
  isAsciiAlphanumeric c || "._-/:=@%+,".toList.contains c

/-- The text of a character between single quotes. A single quote itself ends them, stands alone
behind a backslash, and starts them again. -/
def quoteChar (c : Char) : List Char := if c = '\'' then ['\'', '\\', '\'', '\''] else [c]

/-- A text as one word. Words of safe characters alone stay as they are. -/
def quote (word : List Char) : List Char :=
  if !word.isEmpty && word.all isSafe then word
  else '\'' :: word.flatMap quoteChar ++ ['\'']

def joinWords : List (List Char) → List Char
  | [] => []
  | [w] => w
  | w :: ws => w ++ ' ' :: joinWords ws

def isSeparator (c : Char) : Bool := c = ' ' || c = '\t' || c = '\n'

/-- A character that, outside quotes, starts an expansion, a pattern, a comment, a redirection or an
operator. -/
def isActive (c : Char) : Bool := "|&;<>()$\x60\"*?[]#~!\x7b\x7d".toList.contains c

/-- Where a reader of words stands: between words, in a word, or in a quoted part of one. A word is
kept backwards. -/
inductive Place where
  | between
  | inWord (word : List Char)
  | inQuotes (word : List Char)
  deriving DecidableEq

def Place.word : Place → List Char
  | .between => []
  | .inWord word => word
  | .inQuotes word => word

/-- Read words from a place on. There are none when a quote stays open, a backslash stands at the end,
or an active character stands outside quotes. A backslash before a newline joins lines. -/
def readWordsFrom : Place → List Char → Option (List (List Char))
  | .between, [] => some []
  | .inWord word, [] => some [word.reverse]
  | .inQuotes _, [] => none
  | .inQuotes word, c :: rest =>
    if c = '\'' then readWordsFrom (.inWord word) rest else readWordsFrom (.inQuotes (c :: word)) rest
  | _, ['\\'] => none
  | place, '\\' :: c :: rest =>
    if c = '\n' then readWordsFrom place rest else readWordsFrom (.inWord (c :: place.word)) rest
  | place, c :: rest =>
    if isSeparator c then
      match place with
      | .inWord word => (readWordsFrom .between rest).map (word.reverse :: ·)
      | _ => readWordsFrom .between rest
    else if c = '\'' then readWordsFrom (.inQuotes place.word) rest
    else if isActive c then none
    else readWordsFrom (.inWord (c :: place.word)) rest

def readWords (line : List Char) : Option (List (List Char)) := readWordsFrom .between line

end BanBoard.Shell
