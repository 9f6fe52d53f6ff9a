import BanBoard.Config.Resolve
import BanBoard.Files.Tree

/-!
Loading a configuration from the file that is asked for, or from the one that the environment names.
-/

namespace BanBoard.Config

open BanBoard.Files (Path Tree)

/-- The path of the file to read. An empty variable names a file too, one that cannot be found. -/
def filePath? (file : Option (List Char)) (env : Environment) : Option (List Char) :=
  file.or (env.get? "F2B_CONFIG")

def load (tree : Tree) (current : Path) (accountHome : Option (List Char))
    (file : Option (List Char)) (env : Environment) : Except Error Config :=
  let base := default (env.dataDir? accountHome)
  match filePath? file env with
  | none => base.ofSources none env
  | some path =>
    match tree.readText current path with
    | .error fault => .error (.io path fault.message)
    | .ok text => base.ofSources (some text) env

/-- The reason that lies under an error, if it has one of its own. -/
def Error.cause? : Error → Option (List Char)
  | .io _ reason => some reason
  | _ => none

end BanBoard.Config
