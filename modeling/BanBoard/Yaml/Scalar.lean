import BanBoard.Text.Decimal
import BanBoard.Yaml.Token

/-!
The scalars of YAML. Within a scalar a single line break becomes a space and further ones stay, unless
the scalar is literal; blanks around a break are dropped.
-/

namespace BanBoard.Yaml

open BanBoard.Text (digitValue?)

/-- What has been passed over since the last character of a scalar: blanks on one line, or a first
line break, which may have been escaped, with the breaks after it. -/
inductive Pause where
  | blanks (chars : List Char)
  | breaks (first : Option Char) (more : List Char)

namespace Pause

def empty : Pause := .blanks []

def isEmpty : Pause → Bool
  | .blanks chars => chars.isEmpty
  | .breaks .. => false

def hasBreak : Pause → Bool
  | .blanks _ => false
  | .breaks .. => true

/-- Pass over a blank. Blanks after a line break are dropped. -/
def addBlank (c : Char) : Pause → Pause
  | .blanks chars => .blanks (chars ++ [c])
  | .breaks first more => .breaks first more

/-- Pass over a line break. Blanks before it are dropped. -/
def addBreak (c : Char) : Pause → Pause
  | .blanks _ => .breaks (some c) []
  | .breaks first more => .breaks first (more ++ [c])

/-- The text of a pause when the scalar goes on. -/
def text : Pause → List Char
  | .blanks chars => chars
  | .breaks none more => more
  | .breaks (some c) more =>
    if c = '\n' then (if more.isEmpty then [' '] else more) else c :: more

end Pause

def shortEscape? (c : Char) : Option Char :=
  match c with
  | '0' => some '\x00'
  | 'a' => some '\x07'
  | 'b' => some '\x08'
  | 't' => some '\t'
  | '\t' => some '\t'
  | 'n' => some '\n'
  | 'v' => some '\x0B'
  | 'f' => some '\x0C'
  | 'r' => some '\r'
  | 'e' => some '\x1B'
  | ' ' => some ' '
  | '"' => some '"'
  | '/' => some '/'
  | '\\' => some '\\'
  | 'N' => some '\x85'
  | '_' => some '\xA0'
  | 'L' => some '\u2028'
  | 'P' => some '\u2029'
  | _ => none

def escapeDigits? (c : Char) : Option Nat :=
  if c = 'x' then some 2 else if c = 'u' then some 4 else if c = 'U' then some 8 else none

/-- The number that hexadecimal digits denote, if all of them are such digits. -/
def hexNumber? (digits : List Char) : Option Nat :=
  digits.foldlM (fun acc c => (digitValue? 16 c).map (acc * 16 + ·)) 0

/-- Read an escape after its backslash. Numbers that are no code point are refused. -/
def readEscape? (cur : Cursor) : Option (Char × Cursor) := do
  let c ← cur.peek?
  match shortEscape? c, escapeDigits? c with
  | some d, _ => some (d, cur.skip)
  | none, some count =>
    let digits := cur.skip.rest.take count
    let n ← hexNumber? digits
    if digits.length = count && (n < 0xD800 || (0xDFFF < n && n ≤ 0x10FFFF)) then
      some (Char.ofNat n, cur.skip.skipMany count)
    else none
  | none, none => none

/-- Read a quoted scalar after its opening quote. Every round reads a character. -/
def readQuotedFrom (double : Bool) : (rounds : Nat) → (text : List Char) → Pause → Cursor →
    Option (List Char × Cursor)
  | 0, _, _, _ => none
  | rounds + 1, text, pause, cur =>
    if cur.isAnyBorder then none
    else
      match cur.peek? with
      | none => none
      | some c =>
        let joined := text ++ pause.text
        if isBlank c then readQuotedFrom double rounds text (pause.addBlank c) cur.skip
        else if isBreak c then
          readQuotedFrom double rounds text (pause.addBreak (Cursor.breakChar c)) cur.skipBreak
        else if double then
          if c = '"' then some (joined, cur.skip)
          else if c = '\\' then
            if cur.skip.rest.head?.any isBreak then
              readQuotedFrom double rounds joined (.breaks none []) cur.skip.skipBreak
            else (readEscape? cur.skip).bind fun (d, cur) =>
              readQuotedFrom double rounds (joined ++ [d]) .empty cur
          else readQuotedFrom double rounds (joined ++ [c]) .empty cur.skip
        else if c = '\'' then
          if cur.skip.isAt '\'' then
            readQuotedFrom double rounds (joined ++ ['\'']) .empty cur.skip.skip
          else some (joined, cur.skip)
        else readQuotedFrom double rounds (joined ++ [c]) .empty cur.skip

def readQuoted? (double : Bool) (cur : Cursor) : Option (List Char × Cursor) :=
  readQuotedFrom double (cur.rest.length + 1) [] .empty cur.skip

def isFlowEnd (c : Char) : Bool := c = ',' || c = '[' || c = ']' || c = '\x7b' || c = '\x7d'

/-- A plain scalar: its text, whether the position behind it is on a later line, and that
position. -/
structure PlainScalar where
  text : List Char
  brokeLine : Bool
  after : Cursor

/-- Read a plain scalar. Outside brackets and braces a line that is indented less than `indent` ends
it. -/
def readPlainFrom (inFlow : Bool) (indent : Int) : (rounds : Nat) → (text : List Char) → Pause →
    Cursor → Option PlainScalar
  | 0, _, _, _ => none
  | rounds + 1, text, pause, cur =>
    let stop := some ⟨text, pause.hasBreak, cur⟩
    match cur.peek? with
    | none => stop
    | some c =>
      if isBlank c then
        if pause.hasBreak && cur.column < indent && c = '\t' then none
        else readPlainFrom inFlow indent rounds text (pause.addBlank c) cur.skip
      else if isBreak c then
        readPlainFrom inFlow indent rounds text (pause.addBreak (Cursor.breakChar c)) cur.skipBreak
      else if !pause.isEmpty && !inFlow && cur.column < indent then stop
      else if cur.isAnyBorder then stop
      else if !pause.isEmpty && c = '#' then stop
      else if inFlow && c = ':' && cur.skip.rest.head?.any (fun d => isFlowEnd d || d = '?') then none
      else if c = ':' && cur.endsWordAt 1 then stop
      else if inFlow && isFlowEnd c then stop
      else readPlainFrom inFlow indent rounds (text ++ pause.text ++ [c]) .empty cur.skip

/-- Read a plain scalar at its first character, inside blocks that are indented by `indent`. -/
def readPlain? (inFlow : Bool) (indent : Int) (cur : Cursor) : Option PlainScalar :=
  readPlainFrom inFlow (indent + 1) (cur.rest.length + 1) [] .empty cur

/-- What becomes of the line breaks at the end of a block scalar. -/
inductive Chomping where
  | strip
  | clip
  | keep
  deriving DecidableEq

def readChomping (cur : Cursor) : Option Chomping × Cursor :=
  if cur.isAt '+' then (some .keep, cur.skip)
  else if cur.isAt '-' then (some .strip, cur.skip)
  else (none, cur)

/-- Read the digit for the indentation. Zero is refused. -/
def readIncrement? (cur : Cursor) : Option (Option Nat × Cursor) :=
  match cur.peek? with
  | none => some (none, cur)
  | some c =>
    if c = '0' then none
    else
      match digitValue? 10 c with
      | some d => some (some d, cur.skip)
      | none => some (none, cur)

/-- Read the header of a block scalar behind its indicator, up to the start of the next line. -/
def readHeader? (cur : Cursor) : Option (Chomping × Option Nat × Cursor) := do
  let (chomping, cur) := readChomping cur
  let (increment, cur) ← readIncrement? cur
  let (chomping, cur) := if chomping.isSome then (chomping, cur) else readChomping cur
  let cur ← cur.skipToLineEnd?
  let cur := if cur.peek?.isSome then cur.skipBreak else cur
  some (chomping.getD .clip, increment, cur)

/-- Pass over empty lines before the next line of a block scalar, whose indentation may still be
unknown. The result is the greatest column reached, the breaks passed over, and the position. -/
def skipEmptyLines (indent : Option Nat) : (rounds : Nat) → (deepest : Nat) → List Char → Cursor →
    Option (Nat × List Char × Cursor)
  | 0, _, _, _ => none
  | rounds + 1, deepest, breaks, cur =>
    let spaces := (cur.rest.takeWhile (· = ' ')).length
    let cur := cur.skipMany (match indent with
      | none => spaces
      | some n => min spaces (n - cur.column))
    let deepest := max deepest cur.column
    let short := match indent with
      | none => true
      | some n => cur.column < n
    match cur.peek? with
    | none => some (deepest, breaks, cur)
    | some c =>
      if short && c = '\t' then none
      else if isBreak c then
        skipEmptyLines indent rounds deepest (breaks ++ [Cursor.breakChar c]) cur.skipBreak
      else some (deepest, breaks, cur)

/-- Read the lines of a block scalar. `lead` is the break that ended the last line, `breaks` are
those of the empty lines after it, and `indented` tells whether that line began with a blank. -/
def readBlockLines (folded : Bool) (chomping : Chomping) (indent : Nat) : (rounds : Nat) →
    (text : List Char) → (lead breaks : List Char) → (indented : Bool) → Cursor →
    Option (List Char × Cursor)
  | 0, _, _, _, _, _ => none
  | rounds + 1, text, lead, breaks, indented, cur =>
    match cur.peek? with
    | some c =>
      if cur.column = indent then
        let startsBlank := isBlank c
        let joint :=
          if folded && lead = ['\n'] && !indented && !startsBlank then
            (if breaks.isEmpty then [' '] else breaks)
          else lead ++ breaks
        let (line, cur) := cur.takeWhile fun c => !isBreak c
        let (lead, cur) := match cur.peek? with
          | some c => ([Cursor.breakChar c], cur.skipBreak)
          | none => ([], cur)
        match skipEmptyLines (some indent) (cur.rest.length + 1) 0 [] cur with
        | none => none
        | some (_, breaks, cur) =>
          readBlockLines folded chomping indent rounds (text ++ joint ++ line) lead breaks startsBlank
            cur
      else some (finish text lead breaks, cur)
    | none => some (finish text lead breaks, cur)
where
  /-- The whole text, with as many of the breaks at its end as the sign asks for. -/
  finish (text lead breaks : List Char) : List Char :=
    match chomping with
    | .strip => text
    | .clip => text ++ lead
    | .keep => text ++ lead ++ breaks

/-- Read a block scalar at its indicator, inside blocks that are indented by `parent`. -/
def readBlock? (folded : Bool) (parent : Int) (cur : Cursor) : Option (List Char × Cursor) := do
  let (chomping, increment, cur) ← readHeader? cur.skip
  let declared := increment.map fun n => (max parent 0).toNat + n
  let (deepest, breaks, cur) ← skipEmptyLines declared (cur.rest.length + 1) 0 [] cur
  let indent := declared.getD (max (max deepest (parent + 1).toNat) 1)
  readBlockLines folded chomping indent (cur.rest.length + 1) [] [] breaks false cur

end BanBoard.Yaml
