import BanBoard.Files.Fault
import BanBoard.Text.Blank
import BanBoard.Text.Utf8

/-!
A tree of directories and files. Paths are texts on the outside, relative to a current directory, and
rows of names on the inside; following one fails at the first name that is missing or is no directory.
-/

namespace BanBoard.Files

open BanBoard.Text

abbrev Path := List (List Char)

/-- Directories and files. The root is a directory whether or not it is listed. -/
structure Tree where
  directories : List Path
  files : List (Path × List UInt8)

namespace Tree

def empty : Tree := ⟨[], []⟩

def isDirectory (tree : Tree) (path : Path) : Bool :=
  path.isEmpty || tree.directories.contains path

def file? (tree : Tree) (path : Path) : Option (List UInt8) :=
  (tree.files.find? fun entry => entry.1 = path).map Prod.snd

def has (tree : Tree) (path : Path) : Bool := tree.isDirectory path || (tree.file? path).isSome

/-- Put bytes into the file at a path. -/
def write (tree : Tree) (path : Path) (bytes : List UInt8) : Tree :=
  { tree with files := (path, bytes) :: tree.files.filter fun entry => entry.1 ≠ path }

def addDirectory (tree : Tree) (path : Path) : Tree :=
  if tree.isDirectory path then tree else { tree with directories := path :: tree.directories }

def add (tree : Tree) (path : Path) (bytes : List UInt8) : Tree :=
  let above := (List.range path.length).map path.take
  (above.foldl addDirectory tree).write path bytes

end Tree

/-- The names in the text of a path. Empty ones do not count. -/
def namesOf (text : List Char) : List (List Char) :=
  (splitWhere (· = '/') text).filter fun name => !name.isEmpty

def isAbsolute (text : List Char) : Bool := text.head? = some '/'

namespace Tree

def step (tree : Tree) (at_ : Path) (name : List Char) : Except Fault Path :=
  if tree.isDirectory at_ then
    if name = ['.'] then .ok at_
    else if name = ['.', '.'] then .ok at_.dropLast
    else .ok (at_ ++ [name])
  else if (tree.file? at_).isSome then .error .notDirectory
  else .error .notFound

/-- Follow the text of a path. Nothing needs to stand at the end of it. -/
def follow (tree : Tree) (current : Path) (text : List Char) : Except Fault Path :=
  if text.isEmpty then .error .notFound
  else
    match (namesOf text).foldlM tree.step (if isAbsolute text then [] else current) with
    | .error fault => .error fault
    | .ok path =>
      if text.getLast? = some '/' && (tree.file? path).isSome then .error .notDirectory else .ok path

def read (tree : Tree) (current : Path) (text : List Char) : Except Fault (List UInt8) :=
  match tree.follow current text with
  | .error fault => .error fault
  | .ok path =>
    match tree.file? path with
    | some bytes => .ok bytes
    | none => .error (if tree.isDirectory path then .isDirectory else .notFound)

def readText (tree : Tree) (current : Path) (text : List Char) : Except Fault (List Char) :=
  match tree.read current text with
  | .error fault => .error fault
  | .ok bytes =>
    match decodeUtf8? bytes with
    | some text => .ok text
    | none => .error .notText

def makeDirectory (tree : Tree) (current : Path) (text : List Char) : Except Fault Tree :=
  match tree.follow current text with
  | .error fault => .error fault
  | .ok path => if tree.has path then .error .alreadyExists else .ok (tree.addDirectory path)

def leadsToDirectory (tree : Tree) (current : Path) (text : List Char) : Bool :=
  match tree.follow current text with
  | .ok path => tree.isDirectory path
  | .error _ => false

end Tree

/-- The text of the path above, which is empty for a single name. There is none above the root or
above nothing. -/
def parent? (text : List Char) : Option (List Char) :=
  let trimmed := (text.reverse.dropWhile (· = '/')).reverse
  if trimmed.isEmpty then none
  else
    let above := (trimmed.reverse.dropWhile (· ≠ '/')).reverse
    let bare := (above.reverse.dropWhile (· = '/')).reverse
    some (if bare.isEmpty && isAbsolute text then ['/'] else bare)

namespace Tree

/-- Make a directory and those above it that are missing. A directory that is there already is no
fault. -/
def makeDirectories : (rounds : Nat) → Tree → (current : Path) → (text : List Char) →
    Except Fault Tree
  | 0, _, _, _ => .error .notFound
  | rounds + 1, tree, current, text =>
    if text.isEmpty then .ok tree
    else
      match tree.makeDirectory current text with
      | .ok tree => .ok tree
      | .error .notFound =>
        match parent? text with
        | none => .error .notFound
        | some above => do
          let tree ← makeDirectories rounds tree current above
          tree.makeDirectory current text
      | .error fault => if tree.leadsToDirectory current text then .ok tree else .error fault

end Tree

end BanBoard.Files
