import BanBoard.Shell.Lexeme

/-!
The grammar of scripts: what a row of tokens means.
-/

namespace BanBoard.Shell

def assignment? (word : ScriptWord) : Option (List Char × ScriptWord) :=
  let leading := word.takeWhile fun piece =>
    match piece with
    | .text s false => s ≠ ['=']
    | _ => false
  match bareText? leading, word.drop leading.length with
  | some name, .text ['='] false :: value =>
    if !name.isEmpty && name.all isNameChar && !name.head?.any Char.isDigit then some (name, value)
    else none
  | _, _ => none

def isKeyword (keyword : String) : Option Lexeme → Bool
  | some (.word w) => bareText? w = some keyword.toList
  | _ => false

def dropBreaks : List Lexeme → List Lexeme
  | .newline :: rest => dropBreaks rest
  | rest => rest

def readKeyword (keyword : String) (tokens : List Lexeme) : Option (List Lexeme) :=
  match dropBreaks tokens with
  | token :: rest => if isKeyword keyword (some token) then some rest else none
  | [] => none

def endsList (token : Option Lexeme) : Bool :=
  token = none || token = some (.sign ")") || token = some (.sign ";;") ||
    ["then", "else", "elif", "fi", "do", "done", "esac", "\x7d"].any fun keyword =>
      isKeyword keyword token

def readRedirects : List Lexeme → List Redirect × List Lexeme
  | .redirect r :: rest =>
    let (rs, rest) := readRedirects rest
    (r :: rs, rest)
  | rest => ([], rest)

def readSimple : List Lexeme → List ScriptWord × List Redirect × List Lexeme
  | .word w :: rest =>
    let (ws, rs, rest) := readSimple rest
    (w :: ws, rs, rest)
  | .redirect r :: rest =>
    let (ws, rs, rest) := readSimple rest
    (ws, r :: rs, rest)
  | rest => ([], [], rest)

def splitAssignments : List ScriptWord → List (List Char × ScriptWord) × List ScriptWord
  | [] => ([], [])
  | w :: ws =>
    match assignment? w with
    | some entry =>
      let (entries, words) := splitAssignments ws
      (entry :: entries, words)
    | none => ([], w :: ws)

def readWordList : List Lexeme → List ScriptWord × List Lexeme
  | .word w :: rest =>
    let (ws, rest) := readWordList rest
    (w :: ws, rest)
  | .sign ";" :: rest => ([], rest)
  | .newline :: rest => ([], rest)
  | rest => ([], rest)

def readPatterns : List Lexeme → Option (List ScriptWord × List Lexeme)
  | .word w :: .sign "|" :: rest => (readPatterns rest).map fun (ws, rest) => (w :: ws, rest)
  | .word w :: .sign ")" :: rest => some ([w], rest)
  | _ => none

mutual

def readList : (rounds : Nat) → List Lexeme → Option (Script × List Lexeme)
  | 0, _ => none
  | rounds + 1, tokens => do
    let tokens := dropBreaks tokens
    if endsList tokens.head? then some (.nothing, tokens)
    else
      let (first, rest) ← readAndOr rounds tokens
      match rest with
      | .sign ";" :: rest => do
        let (second, rest) ← readList rounds rest
        some (.sequence first second, rest)
      | .sign "&" :: rest => do
        let (second, rest) ← readList rounds rest
        some (.sequence (.background first) second, rest)
      | .newline :: rest => do
        let (second, rest) ← readList rounds rest
        some (.sequence first second, rest)
      | _ => if endsList rest.head? then some (first, rest) else none

def readAndOr : (rounds : Nat) → List Lexeme → Option (Script × List Lexeme)
  | 0, _ => none
  | rounds + 1, tokens => do
    let (first, rest) ← readPipeline rounds tokens
    continueAndOr rounds first rest

def continueAndOr : (rounds : Nat) → Script → List Lexeme → Option (Script × List Lexeme)
  | 0, _, _ => none
  | rounds + 1, first, tokens =>
    match tokens with
    | .sign "&&" :: rest => do
      let (second, rest) ← readPipeline rounds (dropBreaks rest)
      continueAndOr rounds (.both first second) rest
    | .sign "||" :: rest => do
      let (second, rest) ← readPipeline rounds (dropBreaks rest)
      continueAndOr rounds (.either first second) rest
    | _ => some (first, tokens)

def readPipeline : (rounds : Nat) → List Lexeme → Option (Script × List Lexeme)
  | 0, _ => none
  | rounds + 1, tokens =>
    if isKeyword "!" tokens.head? then do
      let (body, rest) ← readPipeline rounds (tokens.drop 1)
      some (.negated body, rest)
    else do
      let (first, rest) ← readCommand rounds tokens
      match rest with
      | .sign "|" :: rest => do
        let (second, rest) ← readPipeline rounds (dropBreaks rest)
        some (.pipe first second, rest)
      | _ => some (first, rest)

def readCommand : (rounds : Nat) → List Lexeme → Option (Script × List Lexeme)
  | 0, _ => none
  | rounds + 1, tokens =>
    let head := tokens.head?
    let rest := tokens.drop 1
    if head = some (.sign "(") then do
      let (body, rest) ← readList rounds rest
      match rest with
      | .sign ")" :: rest =>
        let (redirects, rest) := readRedirects rest
        some (.subshell body redirects, rest)
      | _ => none
    else if isKeyword "\x7b" head then do
      let (body, rest) ← readList rounds rest
      let rest ← readKeyword "\x7d" rest
      let (redirects, rest) := readRedirects rest
      some (.group body redirects, rest)
    else if isKeyword "if" head then do
      let (body, rest) ← readIf rounds rest
      let (redirects, rest) := readRedirects rest
      some (.group body redirects, rest)
    else if isKeyword "while" head || isKeyword "until" head then do
      let (condition, rest) ← readList rounds rest
      let (body, rest) ← readBody rounds rest
      let (redirects, rest) := readRedirects rest
      some (.group (.loop (isKeyword "until" head) condition body) redirects, rest)
    else if isKeyword "for" head then
      match rest with
      | .word name :: rest => do
        let name ← bareText? name
        let (words, rest) :=
          if isKeyword "in" rest.head? then
            let (words, rest) := readWordList (rest.drop 1)
            (some words, rest)
          else
            (none, match rest with
              | .sign ";" :: rest => rest
              | _ => rest)
        let (body, rest) ← readBody rounds rest
        let (redirects, rest) := readRedirects rest
        some (.group (.forEach name words body) redirects, rest)
      | _ => none
    else if isKeyword "case" head then
      match rest with
      | .word subject :: rest => do
        let rest ← readKeyword "in" rest
        let (arms, rest) ← readArms rounds rest
        let (redirects, rest) := readRedirects rest
        some (.group (.choice subject arms) redirects, rest)
      | _ => none
    else
      match tokens with
      | .word name :: .sign "(" :: .sign ")" :: rest => do
        let name ← bareText? name
        let (body, rest) ← readCommand rounds (dropBreaks rest)
        some (.define name body, rest)
      | _ =>
        let (words, redirects, rest) := readSimple tokens
        if words.isEmpty && redirects.isEmpty then none
        else
          let (assignments, words) := splitAssignments words
          some (.simple assignments words redirects, rest)

/-- Read a condition and what depends on it, up to the end of all its branches. -/
def readIf : (rounds : Nat) → List Lexeme → Option (Script × List Lexeme)
  | 0, _ => none
  | rounds + 1, tokens => do
    let (condition, rest) ← readList rounds tokens
    let rest ← readKeyword "then" rest
    let (consequence, rest) ← readList rounds rest
    if isKeyword "elif" rest.head? then do
      let (alternative, rest) ← readIf rounds (rest.drop 1)
      some (.conditional condition consequence alternative, rest)
    else if isKeyword "else" rest.head? then do
      let (alternative, rest) ← readList rounds (rest.drop 1)
      let rest ← readKeyword "fi" rest
      some (.conditional condition consequence alternative, rest)
    else do
      let rest ← readKeyword "fi" rest
      some (.conditional condition consequence .nothing, rest)

def readBody : (rounds : Nat) → List Lexeme → Option (Script × List Lexeme)
  | 0, _ => none
  | rounds + 1, tokens => do
    let rest ← readKeyword "do" tokens
    let (body, rest) ← readList rounds rest
    let rest ← readKeyword "done" rest
    some (body, rest)

def readArms : (rounds : Nat) → List Lexeme →
    Option (List (List ScriptWord × Script) × List Lexeme)
  | 0, _ => none
  | rounds + 1, tokens => do
    let tokens := dropBreaks tokens
    if isKeyword "esac" tokens.head? then some ([], tokens.drop 1)
    else
      let tokens := match tokens with
        | .sign "(" :: rest => rest
        | _ => tokens
      let (patterns, rest) ← readPatterns tokens
      let (body, rest) ← readList rounds rest
      let rest := dropBreaks rest
      match rest with
      | .sign ";;" :: rest => do
        let (arms, rest) ← readArms rounds rest
        some ((patterns, body) :: arms, rest)
      | _ => do
        let rest ← readKeyword "esac" rest
        some ([(patterns, body)], rest)

end

def syntaxComplaint (text : List Char) : List Char :=
  let reason :=
    if (lexemes (text.length + 2) text).isSome then "Syntax error: end of file unexpected"
    else "Syntax error: Unterminated quoted string"
  reason.toList

def Script.parse? (text : List Char) : Option Script := do
  let tokens ← lexemes (text.length + 2) text
  let (script, rest) ← readList (8 * tokens.length + 8) tokens
  if rest.isEmpty then some script else none

end BanBoard.Shell
