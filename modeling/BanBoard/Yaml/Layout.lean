import BanBoard.Yaml.Directive
import BanBoard.Yaml.Scalar

/-!
The layout of a YAML text as a row of tokens. Blocks are opened and closed by indentation, and a
value's key is marked only once the colon behind it has been seen.
-/

namespace BanBoard.Yaml

/-- A token that will turn out to start a key if a colon follows on the same line. A required key is
one whose column leaves it no other role. -/
structure PossibleKey where
  position : Nat
  required : Bool
  cursor : Cursor

/-- Whether a possible key is too far behind: on an earlier line, or more than 1024 characters. -/
def PossibleKey.isStale (k : PossibleKey) (cur : Cursor) : Bool :=
  k.cursor.line < cur.line || k.cursor.index + 1024 < cur.index

/-- The state of the layout. Tokens are kept newest first; `keys` has one place for the blocks and one
for every open bracket or brace, the innermost first. -/
structure Layout where
  cursor : Cursor
  tokens : List Token
  indent : Int
  outer : List Int
  keys : List (Option PossibleKey)
  keyAllowed : Bool

namespace Layout

def start (text : List Char) : Layout := ⟨.start text, [], -1, [], [none], true⟩

def inFlow (l : Layout) : Bool := 1 < l.keys.length

def emit (l : Layout) (token : Token) : Layout := { l with tokens := token :: l.tokens }

def emitSign (l : Layout) (token : Token) : Layout :=
  { l with tokens := token :: l.tokens, cursor := l.cursor.skip }

/-- Put tokens, newest first, before those from a given position on. -/
def insertAt (l : Layout) (position : Nat) (tokens : List Token) : Layout :=
  let newer := l.tokens.length - position
  { l with tokens := l.tokens.take newer ++ tokens ++ l.tokens.drop newer }

def closeBlocks (l : Layout) (column : Int) : Layout :=
  if l.inFlow then l
  else
    let rec close : (indent : Int) → (outer : List Int) → (tokens : List Token) → Layout
      | indent, [], tokens => { l with indent := indent, outer := [], tokens := tokens }
      | indent, next :: outer, tokens =>
        if column < indent then close next outer (.blockEnd :: tokens)
        else { l with indent := indent, outer := next :: outer, tokens := tokens }
    close l.indent l.outer l.tokens

/-- Open a block at a column that is deeper than the innermost block. Its token goes before those
from a given position on, newest first together with the tokens that have to follow it there. -/
def openBlock (l : Layout) (column : Nat) (position : Nat) (block : Token) (then_ : List Token) :
    Layout :=
  if !l.inFlow && l.indent < column then
    { l.insertAt position (then_ ++ [block]) with indent := column, outer := l.indent :: l.outer }
  else l.insertAt position then_

def key? (l : Layout) : Option PossibleKey := l.keys.head?.join

/-- Give up the innermost possible key, unless it was required. -/
def dropKey? (l : Layout) : Option Layout :=
  match l.key? with
  | some k => if k.required then none else some { l with keys := none :: l.keys.drop 1 }
  | none => some l

def noteKey? (l : Layout) : Option Layout :=
  if l.keyAllowed then
    l.dropKey?.map fun l =>
      let required := !l.inFlow && l.indent = (l.cursor.column : Int)
      { l with keys := some ⟨l.tokens.length, required, l.cursor⟩ :: l.keys.drop 1 }
  else some l

/-- Give up all stale keys, none of which may be required. -/
def dropStale? (l : Layout) : Option Layout :=
  if l.keys.any fun key => key.any fun k => k.isStale l.cursor && k.required then none
  else some { l with keys := l.keys.map fun key => key.filter fun k => !k.isStale l.cursor }

/-- Pass over blanks, comments and line ends. Tabs are passed over only where no block can start, and
a line end outside brackets makes a key possible again. -/
def skipToToken : (rounds : Nat) → Layout → Layout
  | 0, l => l
  | rounds + 1, l =>
    let cur := l.cursor
    let cur := if cur.index = 0 && cur.isAt '\uFEFF' then cur.skip else cur
    let cur := cur.skipWhile fun c => c = ' ' || ((l.inFlow || !l.keyAllowed) && c = '\t')
    let cur := if cur.isAt '#' then cur.skipWhile fun c => !isBreak c else cur
    if cur.peek?.any isBreak then
      skipToToken rounds
        { l with cursor := cur.skipBreak, keyAllowed := l.keyAllowed || !l.inFlow }
    else { l with cursor := cur }

/-- Read a directive or a border of a document, which closes all blocks. -/
def border? (l : Layout) (read : Cursor → Option (Token × Cursor)) : Option Layout := do
  let l ← (l.closeBlocks (-1)).dropKey?
  let (token, cur) ← read l.cursor
  some { l.emit token with cursor := cur, keyAllowed := false }

def openFlow? (l : Layout) (token : Token) : Option Layout :=
  l.noteKey?.map fun l => { l.emitSign token with keys := none :: l.keys, keyAllowed := true }

def closeFlow? (l : Layout) (token : Token) : Option Layout :=
  l.dropKey?.map fun l =>
    { l.emitSign token with
      keys := if l.inFlow then l.keys.drop 1 else l.keys, keyAllowed := false }

def flowEntry? (l : Layout) : Option Layout :=
  l.dropKey?.map fun l => { l.emitSign .flowEntry with keyAllowed := true }

def blockEntry? (l : Layout) : Option Layout :=
  if !l.inFlow && !l.keyAllowed then none
  else
    (l.openBlock l.cursor.column l.tokens.length .blockSequence []).dropKey?.map fun l =>
      { l.emitSign .blockEntry with keyAllowed := true }

def explicitKey? (l : Layout) : Option Layout :=
  if !l.inFlow && !l.keyAllowed then none
  else
    (l.openBlock l.cursor.column l.tokens.length .blockMapping []).dropKey?.map fun l =>
      { l.emitSign .key with keyAllowed := !l.inFlow }

/-- Pass over the colon of a value. The key that it ends is marked where it started. -/
def value? (l : Layout) : Option Layout :=
  match l.key? with
  | some k =>
    let l := l.openBlock k.cursor.column k.position .blockMapping [.key]
    some { l.emitSign .value with keys := none :: l.keys.drop 1, keyAllowed := false }
  | none =>
    if !l.inFlow && !l.keyAllowed then none
    else
      let l := l.openBlock l.cursor.column l.tokens.length .blockMapping []
      some { l.emitSign .value with keyAllowed := !l.inFlow }

def keyLike? (l : Layout) (read : Cursor → Option (Token × Cursor)) : Option Layout := do
  let l ← l.noteKey?
  let (token, cur) ← read l.cursor
  some { l.emit token with cursor := cur, keyAllowed := false }

def block? (l : Layout) (folded : Bool) : Option Layout := do
  let l ← l.dropKey?
  let (text, cur) ← readBlock? folded l.indent l.cursor
  some { l.emit (.scalar text (if folded then .folded else .literal)) with
    cursor := cur, keyAllowed := true }

def plain? (l : Layout) : Option Layout := do
  let l ← l.noteKey?
  let read ← readPlain? l.inFlow l.indent l.cursor
  some { l.emit (.scalar read.text .plain) with cursor := read.after, keyAllowed := read.brokeLine }

def isSign (c : Char) : Bool := "-?:,[]\x7b\x7d#&*!|>'\"%@`".toList.contains c

/-- Whether a plain scalar starts at the position, where the next character is `c`. -/
def startsPlain (l : Layout) (c : Char) : Bool :=
  let nextIsBlank := l.cursor.skip.rest.head?.any isBlank
  (!isBlank c && !isBreak c && !isSign c) || (c = '-' && !nextIsBlank) ||
    (!l.inFlow && (c = '?' || c = ':') && !l.cursor.endsWordAt 1)

def token? (l : Layout) (c : Char) : Option Layout :=
  let cur := l.cursor
  if cur.column = 0 && c = '%' then l.border? readDirective?
  else if cur.isBorder '-' then l.border? fun cur => some (.documentStart, cur.skipMany 3)
  else if cur.isBorder '.' then l.border? fun cur => some (.documentEnd, cur.skipMany 3)
  else if c = '[' then l.openFlow? .flowSequence
  else if c = '\x7b' then l.openFlow? .flowMapping
  else if c = ']' then l.closeFlow? .flowSequenceEnd
  else if c = '\x7d' then l.closeFlow? .flowMappingEnd
  else if c = ',' then l.flowEntry?
  else if c = '-' && cur.endsWordAt 1 then l.blockEntry?
  else if c = '?' && (l.inFlow || cur.endsWordAt 1) then l.explicitKey?
  else if c = ':' && (l.inFlow || cur.endsWordAt 1) then l.value?
  else if c = '*' then
    l.keyLike? fun cur => (readAnchorName? cur.skip).map fun (name, cur) => (.alias_ name, cur)
  else if c = '&' then
    l.keyLike? fun cur => (readAnchorName? cur.skip).map fun (name, cur) => (.anchor name, cur)
  else if c = '!' then l.keyLike? (readTag? l.inFlow)
  else if c = '|' && !l.inFlow then l.block? false
  else if c = '>' && !l.inFlow then l.block? true
  else if c = '\'' then
    l.keyLike? fun cur =>
      (readQuoted? false cur).map fun (text, cur) => (.scalar text .singleQuoted, cur)
  else if c = '"' then
    l.keyLike? fun cur =>
      (readQuoted? true cur).map fun (text, cur) => (.scalar text .doubleQuoted, cur)
  else if l.startsPlain c then l.plain?
  else none

def run : (rounds : Nat) → Layout → Option Layout
  | 0, _ => none
  | rounds + 1, l => do
    let l ← (skipToToken (l.cursor.rest.length + 1) l).dropStale?
    let l := l.closeBlocks l.cursor.column
    match l.cursor.peek? with
    | none => (l.closeBlocks (-1)).dropKey?
    | some c => do run rounds (← l.token? c)

end Layout

def tokens? (text : List Char) : Option (List Token) :=
  if text.all isPrintable then
    ((Layout.start text).run (text.length + 1)).map fun l => l.tokens.reverse
  else none

end BanBoard.Yaml
