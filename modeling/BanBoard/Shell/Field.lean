import BanBoard.Shell.Word

/-!
What words expand to: fields, which are the words of a command, and patterns, which texts may match.
-/

namespace BanBoard.Shell

/-- The fields that a word has become so far: finished ones, newest first, and one that is begun. -/
structure Fields where
  finished : List (List Char)
  begun : Option (List Char)

namespace Fields

def finish (f : Fields) : Fields :=
  match f.begun with
  | some field => ⟨field :: f.finished, none⟩
  | none => f

def add (f : Fields) (s : List Char) : Fields := { f with begun := some (f.begun.getD [] ++ s) }

def addSplit (f : Fields) (s : List Char) : Fields :=
  s.foldl (fun f c => if isSeparator c then f.finish else f.add [c]) f

/-- Add texts that are fields of their own, of which only the first and the last join what is around
them. -/
def addAll (f : Fields) : List (List Char) → Fields
  | [] => f
  | [s] => f.add s
  | s :: rest => ((f.add s).finish).addAll rest

def all (f : Fields) : List (List Char) := f.finish.finished.reverse

end Fields

/-- A pattern: characters, each with a flag for those that were quoted and stand for themselves. -/
abbrev Pattern := List (Char × Bool)

/-- Read a class of characters behind its bracket: whether it is negated, what it holds, and what
follows it. -/
def readClass (p : Pattern) : Option (Bool × List Char × Pattern) :=
  let (negated, p) := match p with
    | ('!', false) :: rest => (true, rest)
    | _ => (false, p)
  let (first, p) := match p with
    | (']', false) :: rest => ([']'], rest)
    | _ => ([], p)
  match p.dropWhile fun x => x ≠ (']', false) with
  | _ :: after => some (negated, first ++ (p.takeWhile fun x => x ≠ (']', false)).map Prod.fst, after)
  | [] => none

/-- Whether a class holds a character. A hyphen between two characters stands for those between. -/
def inClass (c : Char) : List Char → Bool
  | a :: '-' :: b :: rest => (a ≤ c && c ≤ b) || inClass c rest
  | a :: rest => a = c || inClass c rest
  | [] => false

def patternFits : (rounds : Nat) → Pattern → List Char → Bool
  | 0, _, _ => false
  | _, [], s => s.isEmpty
  | rounds + 1, ('*', false) :: p, s =>
    patternFits rounds p s ||
      match s with
      | [] => false
      | _ :: rest => patternFits rounds (('*', false) :: p) rest
  | rounds + 1, ('?', false) :: p, s =>
    match s with
    | [] => false
    | _ :: rest => patternFits rounds p rest
  | rounds + 1, ('[', false) :: p, s =>
    match readClass p, s with
    | some (negated, chars, after), c :: rest =>
      (inClass c chars != negated) && patternFits rounds after rest
    | some _, [] => false
    | none, '[' :: rest => patternFits rounds p rest
    | none, _ => false
  | rounds + 1, (c, _) :: p, s =>
    match s with
    | [] => false
    | d :: rest => c = d && patternFits rounds p rest

/-- The ways to cut a text in two, the cut wandering from its front to its end. -/
def cuts (s : List Char) : List (List Char × List Char) :=
  (List.range (s.length + 1)).map fun k => (s.take k, s.drop k)

/-- Cut off the part of a text that matches a pattern, at its front or at its end, and the shortest or
the longest such part. -/
def trimPattern (sign : String) (p : Pattern) (s : List Char) : List Char :=
  let fits (part : List Char) := patternFits (p.length + part.length + 1) p part
  let front := (cuts s).filter fun cut => fits cut.1
  let back := (cuts s).filter fun cut => fits cut.2
  let kept? :=
    match sign with
    | "#" => front.head?.map Prod.snd
    | "##" => front.getLast?.map Prod.snd
    | "%" => back.getLast?.map Prod.fst
    | _ => back.head?.map Prod.fst
  kept?.getD s

end BanBoard.Shell
