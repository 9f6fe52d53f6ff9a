import BanBoard.Text.Decimal
import BanBoard.Yaml.Token

/-!
The tokens that start with a sign and a name: directives, anchors, aliases and tags.
-/

namespace BanBoard.Yaml

open BanBoard.Text (digitValue? digitsValue isDigit)

/-- A character of a tag's address. Commas and brackets belong to it only between angle brackets. -/
def isTagChar (inAngles : Bool) (c : Char) : Bool :=
  isNameChar c || ";/?:@&=+$.!~*'()".toList.contains c ||
    (inAngles && (c = ',' || c = '[' || c = ']'))

def readPercent? : List Char → Option (UInt8 × List Char)
  | '%' :: a :: b :: rest => do
    let high ← digitValue? 16 a
    let low ← digitValue? 16 b
    some ((high * 16 + low).toUInt8, rest)
  | _ => none

def sequenceLength? (b : UInt8) : Option Nat :=
  if b < 0x80 then some 1
  else if b &&& 0xE0 == 0xC0 then some 2
  else if b &&& 0xF0 == 0xE0 then some 3
  else if b &&& 0xF8 == 0xF0 then some 4
  else none

def readContinuation? : (count bits : Nat) → List Char → Option (Nat × List Char)
  | 0, bits, s => some (bits, s)
  | count + 1, bits, s => do
    let (b, rest) ← readPercent? s
    if b &&& 0xC0 == 0x80 then readContinuation? count (bits * 64 + b.toNat % 64) rest else none

def readEscaped? (s : List Char) : Option (Char × List Char) := do
  let (b, rest) ← readPercent? s
  let count ← sequenceLength? b
  let own := match count with
    | 1 => b.toNat
    | 2 => b.toNat % 32
    | 3 => b.toNat % 16
    | _ => b.toNat % 8
  let (bits, rest) ← readContinuation? (count - 1) own rest
  some (Char.ofNat bits, rest)

def readTagText (inAngles : Bool) : (rounds : Nat) → (text : List Char) → Cursor →
    Option (List Char × Cursor)
  | 0, _, _ => none
  | rounds + 1, text, cur =>
    match cur.peek? with
    | none => some (text, cur)
    | some c =>
      if c = '%' then do
        let (d, rest) ← readEscaped? cur.rest
        readTagText inAngles rounds (text ++ [d]) (cur.skipMany (cur.rest.length - rest.length))
      else if isTagChar inAngles c then readTagText inAngles rounds (text ++ [c]) cur.skip
      else some (text, cur)

/-- Read the address of a tag behind a part that was read already. It is not empty unless that part
alone is a handle. -/
def readTagUri? (inAngles : Bool) (head : List Char) (cur : Cursor) :
    Option (List Char × Cursor) := do
  let (text, cur) ← readTagText inAngles (cur.rest.length + 1) (head.drop 1) cur
  if head.isEmpty && text.isEmpty then none else some (text, cur)

/-- Read a handle: an exclamation mark, or a name between two of them. The second mark may be missing,
and then the name belongs to the address. -/
def readHandle? (cur : Cursor) : Option (List Char × Cursor) :=
  if cur.isAt '!' then
    let (name, cur) := cur.skip.takeWhile isNameChar
    if cur.isAt '!' then some ('!' :: name ++ ['!'], cur.skip) else some ('!' :: name, cur)
  else none

def readTag? (inFlow : Bool) (cur : Cursor) : Option (Token × Cursor) := do
  let (token, cur) ←
    if cur.skip.isAt '<' then do
      let (suffix, cur) ← readTagUri? true [] cur.skip.skip
      if cur.isAt '>' then some (Token.tag [] suffix, cur.skip) else none
    else do
      let (handle, after) ← readHandle? cur
      if 1 < handle.length && handle.getLast? = some '!' then do
        let (suffix, after) ← readTagUri? false [] after
        some (Token.tag handle suffix, after)
      else do
        let (suffix, after) ← readTagUri? false handle after
        some (if suffix.isEmpty then Token.tag [] ['!'] else Token.tag ['!'] suffix, after)
  if cur.endsWordAt 0 || (inFlow && cur.isAt ',') then some (token, cur) else none

def readAnchorName? (cur : Cursor) : Option (List Char × Cursor) :=
  let (name, cur) := cur.takeWhile isNameChar
  let ended := cur.endsWordAt 0 || cur.peek?.any fun c => "?:,]\x7d%@`".toList.contains c
  if name.isEmpty || !ended then none else some (name, cur)

/-- Read a number of a version, which has at most nine digits. -/
def readVersionNumber? (cur : Cursor) : Option (Nat × Cursor) :=
  let (digits, cur) := cur.takeWhile isDigit
  if digits.isEmpty || 9 < digits.length then none else some (digitsValue digits, cur)

/-- Read a directive at its percent sign. Only versions and handles of tags are known. -/
def readDirective? (cur : Cursor) : Option (Token × Cursor) := do
  let (name, cur) := cur.skip.takeWhile isNameChar
  if !cur.endsWordAt 0 then none
  else
    let cur := cur.skipWhile isBlank
    let (token, cur) ←
      if name = "YAML".toList then do
        let (major, cur) ← readVersionNumber? cur
        if !cur.isAt '.' then none
        else
          let (minor, cur) ← readVersionNumber? cur.skip
          some (Token.version major minor, cur)
      else if name = "TAG".toList then do
        let (handle, cur) ← readHandle? cur
        let spaced := cur.skipWhile isBlank
        if (handle ≠ ['!'] && handle.getLast? ≠ some '!') || spaced.index = cur.index then none
        else
          let (uri, cur) ← readTagUri? true [] spaced
          if cur.endsWordAt 0 then some (Token.tagHandle handle uri, cur) else none
      else none
    let cur ← cur.skipToLineEnd?
    some (token, if cur.peek?.isSome then cur.skipBreak else cur)

end BanBoard.Yaml
