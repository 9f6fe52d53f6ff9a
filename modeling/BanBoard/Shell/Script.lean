import BanBoard.Shell.Word

/-!
The scripts of a small shell: words with expansions, simple commands with redirections, functions, and
the usual ways to join commands.
-/

namespace BanBoard.Shell

def isNameChar (c : Char) : Bool := c.isAlphanum || c = '_'

/-- A parameter that is named by one sign. -/
def isSpecial (c : Char) : Bool := "*@#?$!-0123456789".toList.contains c

/-- A part of a word. The results of unquoted expansions are split at blanks. A modified parameter has
a sign that tells what its word is for: to stand for a missing value, or to be cut off. -/
inductive Piece where
  | text (s : List Char) (quoted : Bool)
  | parameter (name : List Char) (quoted : Bool)
  | length (name : List Char) (quoted : Bool)
  | modified (name : List Char) (sign : String) (word : List Char) (quoted : Bool)
  | arithmetic (expression : List Char) (quoted : Bool)
  | command (script : List Char) (quoted : Bool)
  deriving DecidableEq

def Piece.isQuoted : Piece → Bool
  | .text _ quoted => quoted
  | .parameter _ quoted => quoted
  | .length _ quoted => quoted
  | .modified _ _ _ quoted => quoted
  | .arithmetic _ quoted => quoted
  | .command _ quoted => quoted

def Piece.withQuotes : Piece → Piece
  | .text s _ => .text s true
  | .parameter name _ => .parameter name true
  | .length name _ => .length name true
  | .modified name sign word _ => .modified name sign word true
  | .arithmetic expression _ => .arithmetic expression true
  | .command script _ => .command script true

abbrev ScriptWord := List Piece

/-- Where the output of a command, or its complaints, may go, and where its input may come from. -/
inductive Redirect where
  | toStream (from_ onto : Nat)
  | toFile (from_ : Nat) (path : ScriptWord) (append : Bool)
  | fromFile (path : ScriptWord)
  | fromText (body : ScriptWord)
  deriving DecidableEq

inductive Script where
  | nothing
  | simple (assignments : List (List Char × ScriptWord)) (words : List ScriptWord)
      (redirects : List Redirect)
  | sequence (first second : Script)
  | both (first second : Script)
  | either (first second : Script)
  | negated (body : Script)
  | pipe (first second : Script)
  | conditional (condition consequence alternative : Script)
  | loop (until_ : Bool) (condition body : Script)
  | forEach (name : List Char) (words : Option (List ScriptWord)) (body : Script)
  | choice (subject : ScriptWord) (arms : List (List ScriptWord × Script))
  | group (body : Script) (redirects : List Redirect)
  | subshell (body : Script) (redirects : List Redirect)
  | background (body : Script)
  | define (name : List Char) (body : Script)

end BanBoard.Shell
