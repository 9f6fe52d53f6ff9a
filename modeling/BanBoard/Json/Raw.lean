import BanBoard.Json.Text

/-!
The outer structure of JSON texts. Containers are cut into the texts of their parts, which are only
checked to be well formed and are decoded by whoever knows their meaning. How deeply a part is nested
does not matter, because open containers are kept on a stack.
-/

namespace BanBoard.Json

open BanBoard.Text

/-- The four characters that may stand between the tokens of JSON. -/
def isSpace (c : Char) : Bool := c = ' ' || c = '\n' || c = '\t' || c = '\r'

def skipSpace (s : List Char) : List Char := s.dropWhile isSpace

def readMark (c : Char) (s : List Char) : Option (List Char) :=
  match skipSpace s with
  | [] => none
  | d :: rest => if d = c then some rest else none

def skipDigits (s : List Char) : Option (List Char) :=
  match s with
  | [] => none
  | c :: rest => if isDigit c then some (rest.dropWhile isDigit) else none

def skipFraction : List Char → Option (List Char)
  | '.' :: rest => skipDigits rest
  | s => some s

def skipExponent : List Char → Option (List Char)
  | [] => some []
  | c :: rest =>
    if c = 'e' || c = 'E' then
      match rest with
      | '+' :: after => skipDigits after
      | '-' :: after => skipDigits after
      | _ => skipDigits rest
    else some (c :: rest)

/-- Pass over the whole part of a number. A leading zero is the only digit. -/
def skipWhole : List Char → Option (List Char)
  | [] => none
  | c :: rest =>
    if c = '0' then
      match rest with
      | [] => some []
      | d :: after => if isDigit d then none else some (d :: after)
    else skipDigits (c :: rest)

def skipNumber (s : List Char) : Option (List Char) := do
  let s := match s with
    | '-' :: rest => rest
    | _ => s
  let s ← skipWhole s
  let s ← skipFraction s
  skipExponent s

def skipWord : (word : List Char) → List Char → Option (List Char)
  | [], s => some s
  | _ :: _, [] => none
  | c :: word, d :: rest => if c = d then skipWord word rest else none

def skipScalar : List Char → Option (List Char)
  | [] => none
  | c :: rest =>
    if c = '"' then skipText rest
    else if c = 'n' then skipWord ['u', 'l', 'l'] rest
    else if c = 't' then skipWord ['r', 'u', 'e'] rest
    else if c = 'f' then skipWord ['a', 'l', 's', 'e'] rest
    else skipNumber (c :: rest)

/-- An open container. -/
inductive Container where
  | array
  | object

/-- What may come next while values are passed over: a value, the first part of the innermost
container or its end, or what follows a finished value. -/
inductive Position where
  | value
  | first
  | after

/-- Pass over a member's name and its colon. Nothing is decoded inside of a value that is passed over. -/
def skipName (s : List Char) : Option (List Char) := do
  let s ← readMark '"' s
  let s ← skipText s
  readMark ':' s

/-- Go on inside the open containers until the outermost one is closed. Every round reads a
character, so as many rounds as there are characters suffice. -/
def skipFrom : (rounds : Nat) → Position → List Container → List Char → Option (List Char)
  | 0, _, _, _ => none
  | _ + 1, .after, [], s => some s
  | rounds + 1, .value, stack, s =>
    match skipSpace s with
    | '[' :: rest => skipFrom rounds .first (.array :: stack) rest
    | '\x7b' :: rest => skipFrom rounds .first (.object :: stack) rest
    | s => (skipScalar s).bind fun rest => skipFrom rounds .after stack rest
  | _ + 1, .first, [], _ => none
  | rounds + 1, .first, .array :: stack, s =>
    match skipSpace s with
    | ']' :: rest => skipFrom rounds .after stack rest
    | s => skipFrom rounds .value (.array :: stack) s
  | rounds + 1, .first, .object :: stack, s =>
    match skipSpace s with
    | '\x7d' :: rest => skipFrom rounds .after stack rest
    | s => (skipName s).bind fun rest => skipFrom rounds .value (.object :: stack) rest
  | rounds + 1, .after, .array :: stack, s =>
    match skipSpace s with
    | ',' :: rest => skipFrom rounds .value (.array :: stack) rest
    | ']' :: rest => skipFrom rounds .after stack rest
    | _ => none
  | rounds + 1, .after, .object :: stack, s =>
    match skipSpace s with
    | ',' :: rest => (skipName rest).bind fun rest => skipFrom rounds .value (.object :: stack) rest
    | '\x7d' :: rest => skipFrom rounds .after stack rest
    | _ => none

/-- Pass over a value. Twice as many rounds as characters allow for the round that only turns from
an opened container to its first value. -/
def skipValue (s : List Char) : Option (List Char) := skipFrom (2 * s.length + 2) .value [] s

/-- Read a value as the text that it is written with, without the space around it. -/
def readRaw (s : List Char) : Option (List Char × List Char) :=
  let s := skipSpace s
  (skipValue s).map fun rest => (s.take (s.length - rest.length), rest)

/-- Read the elements of an array after its opening bracket and at least one of them, up to the
closing bracket. -/
def elementsFrom : (rounds : Nat) → List Char → Option (List (List Char) × List Char)
  | 0, _ => none
  | rounds + 1, s => do
    let (raw, s) ← readRaw s
    match skipSpace s with
    | ',' :: rest =>
      let (raws, rest) ← elementsFrom rounds rest
      some (raw :: raws, rest)
    | ']' :: rest => some ([raw], rest)
    | _ => none

def readElements (s : List Char) : Option (List (List Char) × List Char) := do
  let s ← readMark '[' s
  match skipSpace s with
  | ']' :: rest => some ([], rest)
  | s => elementsFrom s.length s

/-- Read the members of an object after its opening brace and at least one of them, up to the
closing brace. -/
def membersFrom : (rounds : Nat) → List Char →
    Option (List (List Char × List Char) × List Char)
  | 0, _ => none
  | rounds + 1, s => do
    let s ← readMark '"' s
    let (name, s) ← readText s
    let s ← readMark ':' s
    let (raw, s) ← readRaw s
    match skipSpace s with
    | ',' :: rest =>
      let (members, rest) ← membersFrom rounds rest
      some ((name, raw) :: members, rest)
    | '\x7d' :: rest => some ([(name, raw)], rest)
    | _ => none

/-- Read an object as its names and the texts of their values, in order. -/
def readMembers (s : List Char) : Option (List (List Char × List Char) × List Char) := do
  let s ← readMark '\x7b' s
  match skipSpace s with
  | '\x7d' :: rest => some ([], rest)
  | s => membersFrom s.length s

end BanBoard.Json
