import BanBoard.Number.Core

/-!
Blank space, lines and words of a text held as its list of characters. A blank is a character with
the Unicode property White_Space, and nothing in this module looks at any other property.
-/

namespace BanBoard.Text

/-- A character of the Unicode property White_Space. The property is closed, so the ranges below
are all of it and no later version of Unicode adds to them. -/
def isBlank (c : Char) : Bool :=
  let n := c.toNat
  (0x09 ≤ n && n ≤ 0x0D) || n == 0x20 || n == 0x85 || n == 0xA0 || n == 0x1680 ||
    (0x2000 ≤ n && n ≤ 0x200A) || n == 0x2028 || n == 0x2029 || n == 0x202F || n == 0x205F ||
    n == 0x3000

/-- Drop the blanks in front. The rest is untouched, blanks inside it included. -/
def trimStart (s : List Char) : List Char := s.dropWhile isBlank

def trimEnd (s : List Char) : List Char := (s.reverse.dropWhile isBlank).reverse

def trim (s : List Char) : List Char := trimEnd (trimStart s)

/-- A text of blanks alone, the empty text among them. -/
def isBlankText (s : List Char) : Bool := s.all isBlank

/-- Drop from both ends the characters that satisfy `p`. -/
def trimWhere (p : Char → Bool) (s : List Char) : List Char :=
  ((s.dropWhile p).reverse.dropWhile p).reverse

/-- Cut a text at every character that satisfies `p`, dropping those characters. There is always
one piece more than there are cuts, so the empty text is one empty piece. -/
def splitWhere (p : Char → Bool) : List Char → List (List Char)
  | [] => [[]]
  | c :: rest =>
    if p c then [] :: splitWhere p rest
    else
      match splitWhere p rest with
      | [] => [[c]]
      | piece :: pieces => (c :: piece) :: pieces

/-- The maximal runs of characters that are not blank, in order. -/
def words (s : List Char) : List (List Char) :=
  (splitWhere isBlank s).filter fun w => !w.isEmpty

/-- Cut at the first occurrence of `sep`, which belongs to neither side. There is no cut where
`sep` does not occur. -/
def splitOnce (sep : Char) : List Char → Option (List Char × List Char)
  | [] => none
  | c :: rest =>
    if c = sep then some ([], rest)
    else (splitOnce sep rest).map fun (before, after) => (c :: before, after)

/-- Drop one carriage return at the very end. -/
def dropReturn (line : List Char) : List Char :=
  match line.reverse with
  | '\r' :: before => before.reverse
  | _ => line

/-- The lines of the pieces between newlines. Every piece but the last was ended by a newline and
loses a carriage return before it, and an empty last piece is no line at all. -/
def linesOfPieces : List (List Char) → List (List Char)
  | [] => []
  | [piece] => if piece.isEmpty then [] else [piece]
  | piece :: pieces => dropReturn piece :: linesOfPieces pieces

/-- The lines of a text. A final newline ends the last line and starts no further one. -/
def lines (s : List Char) : List (List Char) := linesOfPieces (splitWhere (· = '\n') s)

/-- Lower the letters A to Z and leave every other character alone. -/
def lowerAscii (s : List Char) : List Char := s.map Char.toLower

/-- The order of texts by code point, a proper beginning first. It agrees with the order of their
UTF-8 bytes. -/
def le : List Char → List Char → Bool
  | [], _ => true
  | _ :: _, [] => false
  | a :: as, b :: bs => if a.toNat = b.toNat then le as bs else a.toNat < b.toNat

def byteLength (s : List Char) : Nat := (s.map fun c => c.utf8Size).sum

/-- Extend a text on the left with spaces up to a width counted in characters. -/
def padLeft (width : Nat) (s : List Char) : List Char :=
  List.replicate (width - s.length) ' ' ++ s

/-- Extend a text on the right with spaces up to a width counted in characters. -/
def padRight (width : Nat) (s : List Char) : List Char :=
  s ++ List.replicate (width - s.length) ' '

end BanBoard.Text
