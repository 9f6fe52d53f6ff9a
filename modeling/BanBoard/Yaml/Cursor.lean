/-!
A position in a YAML text: the characters ahead, and the line and the column that they start at. Line
ends come in several spellings, and all but two of them stand for a newline.
-/

namespace BanBoard.Yaml

/-- A position in a text. Index, line and column count characters from zero. -/
structure Cursor where
  rest : List Char
  index : Nat
  line : Nat
  column : Nat

/-- A space or a tab. -/
def isBlank (c : Char) : Bool := c = ' ' || c = '\t'

def isBreak (c : Char) : Bool :=
  c = '\n' || c = '\r' || c = '\x85' || c = '\u2028' || c = '\u2029'

def isPrintable (c : Char) : Bool :=
  let n := c.toNat
  n = 0x09 || n = 0x0A || n = 0x0D || (0x20 ≤ n && n ≤ 0x7E) || n = 0x85 ||
    (0xA0 ≤ n && n ≤ 0xFFFD) || 0x10000 ≤ n

namespace Cursor

def start (text : List Char) : Cursor := ⟨text, 0, 0, 0⟩

def peek? (cur : Cursor) : Option Char := cur.rest.head?

def isAt (cur : Cursor) (c : Char) : Bool := cur.peek? = some c

/-- Whether a character of the text is a break, a blank or the end, counted from the position. -/
def endsWordAt (cur : Cursor) (offset : Nat) : Bool :=
  match cur.rest[offset]? with
  | none => true
  | some c => isBlank c || isBreak c

def endsLine (cur : Cursor) : Bool :=
  match cur.peek? with
  | none => true
  | some c => isBreak c

def skip (cur : Cursor) : Cursor :=
  ⟨cur.rest.drop 1, cur.index + 1, cur.line, cur.column + 1⟩

def skipMany (cur : Cursor) (count : Nat) : Cursor :=
  ⟨cur.rest.drop count, cur.index + count, cur.line, cur.column + count⟩

def skipBreak (cur : Cursor) : Cursor :=
  match cur.rest with
  | '\r' :: '\n' :: rest => ⟨rest, cur.index + 2, cur.line + 1, 0⟩
  | _ => ⟨cur.rest.drop 1, cur.index + 1, cur.line + 1, 0⟩

/-- The character that a line end stands for. Only the two separators of Unicode stand for
themselves. -/
def breakChar (c : Char) : Char := if c = '\u2028' || c = '\u2029' then c else '\n'

def skipWhile (cur : Cursor) (p : Char → Bool) : Cursor :=
  cur.skipMany (cur.rest.takeWhile p).length

/-- The characters of the line that satisfy `p`, and the position behind them. -/
def takeWhile (cur : Cursor) (p : Char → Bool) : List Char × Cursor :=
  (cur.rest.takeWhile p, cur.skipWhile p)

/-- Pass over blanks and a comment. Nothing else may stand before the end of the line. -/
def skipToLineEnd? (cur : Cursor) : Option Cursor :=
  let cur := cur.skipWhile isBlank
  let cur := if cur.isAt '#' then cur.skipWhile fun c => !isBreak c else cur
  if cur.endsLine then some cur else none

/-- Whether three equal characters that mark the border of a document stand at the start of a
line. -/
def isBorder (cur : Cursor) (c : Char) : Bool :=
  cur.column = 0 && cur.rest.take 3 = [c, c, c] && cur.endsWordAt 3

def isAnyBorder (cur : Cursor) : Bool := cur.isBorder '-' || cur.isBorder '.'

end Cursor

end BanBoard.Yaml
