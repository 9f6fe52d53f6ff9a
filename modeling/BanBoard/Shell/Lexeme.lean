import BanBoard.Shell.Script

/-!
The tokens of scripts: words with their quotes and expansions, signs, and redirections together with
the texts that are given in place.
-/

namespace BanBoard.Shell

inductive Lexeme where
  | word (w : ScriptWord)
  | sign (s : String)
  | redirect (r : Redirect)
  | newline
  deriving DecidableEq

/-- The text up to the parenthesis that closes one opened before it, and what follows it. -/
def takeClosed : (depth : Nat) → List Char → Option (List Char × List Char)
  | _, [] => none
  | depth, c :: rest =>
    if c = ')' then
      match depth with
      | 0 => some ([], rest)
      | depth + 1 => (takeClosed depth rest).map fun (inner, after) => (c :: inner, after)
    else
      (takeClosed (if c = '(' then depth + 1 else depth) rest).map fun (inner, after) =>
        (c :: inner, after)

/-- The text up to the brace that closes one opened before it, and what follows it. -/
def takeBraced : (depth : Nat) → List Char → Option (List Char × List Char)
  | _, [] => none
  | depth, c :: rest =>
    if c = '\x7d' then
      match depth with
      | 0 => some ([], rest)
      | depth + 1 => (takeBraced depth rest).map fun (inner, after) => (c :: inner, after)
    else
      (takeBraced (if c = '\x7b' then depth + 1 else depth) rest).map fun (inner, after) =>
        (c :: inner, after)

def modifierSigns : List String :=
  [":-", ":=", ":?", ":+", "##", "%%", "-", "=", "?", "+", "#", "%"]

def readBraced (quoted : Bool) (inner : List Char) : Option Piece :=
  match inner with
  | '#' :: c :: rest => some (.length (c :: rest) quoted)
  | _ =>
    let name :=
      match inner with
      | c :: rest =>
        if isNameChar c && !c.isDigit then c :: rest.takeWhile isNameChar
        else if c.isDigit then c :: rest.takeWhile Char.isDigit
        else if isSpecial c then [c]
        else []
      | [] => []
    let rest := inner.drop name.length
    if name.isEmpty then none
    else if rest.isEmpty then some (.parameter name quoted)
    else
      (modifierSigns.find? fun sign => sign.toList.isPrefixOf rest).map fun sign =>
        .modified name sign (rest.drop sign.length) quoted

def readExpansion (quoted : Bool) (s : List Char) : Option (Piece × List Char) :=
  match s with
  | '(' :: '(' :: rest => do
    let (inner, after) ← takeClosed 0 rest
    match after with
    | ')' :: after => some (.arithmetic inner quoted, after)
    | _ => none
  | '(' :: rest => do
    let (inner, after) ← takeClosed 0 rest
    some (.command inner quoted, after)
  | '\x7b' :: rest => do
    let (inner, after) ← takeBraced 0 rest
    (readBraced quoted inner).map fun piece => (piece, after)
  | c :: rest =>
    if isNameChar c && !c.isDigit then
      some (.parameter (c :: rest.takeWhile isNameChar) quoted, rest.dropWhile isNameChar)
    else if isSpecial c then some (.parameter [c] quoted, rest)
    else some (.text ['$'] quoted, c :: rest)
  | [] => some (.text ['$'] quoted, [])

def readDoubleQuoted : (rounds : Nat) → ScriptWord → List Char → Option (ScriptWord × List Char)
  | 0, _, _ => none
  | _, _, [] => none
  | rounds + 1, word, c :: rest =>
    if c = '"' then some (word, rest)
    else if c = '\\' then
      match rest with
      | d :: after =>
        if d = '\n' then readDoubleQuoted rounds word after
        else if "$\x60\"\\".toList.contains d then
          readDoubleQuoted rounds (word ++ [.text [d] true]) after
        else readDoubleQuoted rounds (word ++ [.text ['\\', d] true]) after
      | [] => none
    else if c = '$' then do
      let (piece, after) ← readExpansion true rest
      readDoubleQuoted rounds (word ++ [piece]) after
    else if c = '\x60' then
      match rest.dropWhile (· ≠ '\x60') with
      | _ :: after =>
        readDoubleQuoted rounds (word ++ [.command (rest.takeWhile (· ≠ '\x60')) true]) after
      | [] => none
    else readDoubleQuoted rounds (word ++ [.text [c] true]) rest

def endsScriptWord (c : Char) : Bool := isSeparator c || ";&|()<>".toList.contains c

def readScriptWord : (rounds : Nat) → ScriptWord → List Char → Option (ScriptWord × List Char)
  | 0, _, _ => none
  | _, word, [] => some (word, [])
  | rounds + 1, word, c :: rest =>
    if endsScriptWord c then some (word, c :: rest)
    else if c = '\'' then
      match rest.dropWhile (· ≠ '\'') with
      | _ :: after =>
        readScriptWord rounds (word ++ [.text (rest.takeWhile (· ≠ '\'')) true]) after
      | [] => none
    else if c = '"' then do
      let (word, after) ← readDoubleQuoted rounds (word ++ [.text [] true]) rest
      readScriptWord rounds word after
    else if c = '\\' then
      match rest with
      | d :: after =>
        if d = '\n' then readScriptWord rounds word after
        else readScriptWord rounds (word ++ [.text [d] true]) after
      | [] => readScriptWord rounds (word ++ [.text ['\\'] true]) []
    else if c = '$' then do
      let (piece, after) ← readExpansion false rest
      readScriptWord rounds (word ++ [piece]) after
    else if c = '\x60' then
      match rest.dropWhile (· ≠ '\x60') with
      | _ :: after =>
        readScriptWord rounds (word ++ [.command (rest.takeWhile (· ≠ '\x60')) false]) after
      | [] => none
    else readScriptWord rounds (word ++ [.text [c] false]) rest

def Piece.plain? : Piece → Option (List Char)
  | .text s _ => some s
  | _ => none

def Piece.bare? : Piece → Option (List Char)
  | .text s false => some s
  | _ => none

def plainText? (word : ScriptWord) : Option (List Char) :=
  (word.mapM Piece.plain?).map List.flatten

/-- The text of a word without expansions and without quotes, which alone may be a word of the
language. -/
def bareText? (word : ScriptWord) : Option (List Char) :=
  (word.mapM Piece.bare?).map List.flatten

/-- The lines of a text given in place, up to the line that is its mark, and what follows it. -/
def takeBody (mark : List Char) (tabs : Bool) : (rounds : Nat) → List Char →
    List Char × List Char
  | 0, s => ([], s)
  | rounds + 1, s =>
    if s.isEmpty then ([], [])
    else
      let line := s.takeWhile (· ≠ '\n')
      let after := (s.dropWhile (· ≠ '\n')).drop 1
      let line := if tabs then line.dropWhile (· = '\t') else line
      if line = mark then ([], after)
      else
        let (body, rest) := takeBody mark tabs rounds after
        (line ++ '\n' :: body, rest)

/-- Read a text given in place behind its signs. The body starts on the next line and is taken out of
the script. -/
def readHere (s : List Char) : Option (Redirect × List Char) := do
  let (tabs, s) := match s with
    | '-' :: rest => (true, rest)
    | _ => (false, s)
  let s := s.dropWhile fun c => c = ' ' || c = '\t'
  let (word, rest) ← readScriptWord (s.length + 1) [] s
  let mark ← plainText? word
  let line := rest.takeWhile (· ≠ '\n')
  let (body, after) := takeBody mark tabs rest.length ((rest.dropWhile (· ≠ '\n')).drop 1)
  let content ←
    if (bareText? word).isSome then
      (readDoubleQuoted (2 * body.length + 2) [] (body.flatMap (fun c =>
        if c = '"' then ['\\', '"'] else [c]) ++ ['"'])).map Prod.fst
    else some [.text body true]
  some (.fromText content, line ++ '\n' :: after)

def readRedirect (stream : Option Nat) (sign : Char) (s : List Char) :
    Option (Redirect × List Char) :=
  let target (s : List Char) : Option (ScriptWord × List Char) :=
    let s := s.dropWhile fun c => c = ' ' || c = '\t'
    readScriptWord (s.length + 1) [] s
  match sign, s with
  | '<', '<' :: rest => readHere rest
  | '<', _ => (target s).map fun (path, rest) => (.fromFile path, rest)
  | _, '&' :: rest =>
    match rest with
    | '1' :: rest => some (.toStream (stream.getD 1) 1, rest)
    | '2' :: rest => some (.toStream (stream.getD 1) 2, rest)
    | _ => none
  | _, '>' :: rest =>
    (target rest).map fun (path, rest) => (.toFile (stream.getD 1) path true, rest)
  | _, _ => (target s).map fun (path, rest) => (.toFile (stream.getD 1) path false, rest)

def lexemes : (rounds : Nat) → List Char → Option (List Lexeme)
  | 0, _ => none
  | _, [] => some []
  | rounds + 1, c :: rest =>
    let sign (s : String) (rest : List Char) := (lexemes rounds rest).map (Lexeme.sign s :: ·)
    let redirect (read : Option (Redirect × List Char)) := do
      let (r, rest) ← read
      (lexemes rounds rest).map (Lexeme.redirect r :: ·)
    if c = '\n' then (lexemes rounds rest).map (.newline :: ·)
    else if isSeparator c then lexemes rounds rest
    else if c = '#' then lexemes rounds (rest.dropWhile (· ≠ '\n'))
    else
      match c, rest with
      | '\\', '\n' :: rest => lexemes rounds rest
      | '1', '>' :: rest => redirect (readRedirect (some 1) '>' rest)
      | '2', '>' :: rest => redirect (readRedirect (some 2) '>' rest)
      | '>', rest => redirect (readRedirect none '>' rest)
      | '<', rest => redirect (readRedirect none '<' rest)
      | '&', '&' :: rest => sign "&&" rest
      | '|', '|' :: rest => sign "||" rest
      | ';', ';' :: rest => sign ";;" rest
      | ';', rest => sign ";" rest
      | '|', rest => sign "|" rest
      | '(', rest => sign "(" rest
      | ')', rest => sign ")" rest
      | '&', rest => sign "&" rest
      | _, _ => do
        let (word, rest) ← readScriptWord (rest.length + 2) [] (c :: rest)
        (lexemes rounds rest).map (.word word :: ·)

end BanBoard.Shell
