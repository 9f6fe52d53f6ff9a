import BanBoard.Files.Tree
import BanBoard.Http.Response
import BanBoard.Http.Uri

/-!
Files served below a directory. A directory answers with its index page, but only under a path that
ends with a slash; no path leads out of the directory.
-/

namespace BanBoard.Http

open BanBoard.Files (Path Tree)
open BanBoard.Text

/-- The names that the path of a request leads to below the served directory, unless it tries to leave
it or is no text. -/
def servedNames? (path : List Char) : Option (List (List Char)) := do
  let text ← decodeUtf8? (unescape (path.dropWhile (· = '/')))
  let names := (splitWhere (· = '/') text).filter fun name => !name.isEmpty && name ≠ ['.']
  if text.head? = some '/' || names.contains ['.', '.'] then none else some names

def serveFile (tree : Tree) (root : Path) (path : List Char) : Response :=
  match servedNames? path with
  | none => .bare 404
  | some names =>
    if names.any fun name => name.contains '\x00' then .bare 500
    else
      let target := root ++ names
      if tree.isDirectory target then
        if path.getLast? = some '/' then
          match tree.file? (target ++ ["index.html".toList]) with
          | some bytes => ⟨200, bytes, none⟩
          | none => .bare 404
        else .bare 307
      else
        match tree.file? target with
        | some bytes => ⟨200, bytes, none⟩
        | none => .bare 404

end BanBoard.Http
