import BanBoard.Cli.Run
import Std.Time.DateTime.Timestamp

/-!
The program itself: what a command line can reach on the machine is read into memory, the command runs
there, and what it changed is put back.
-/

namespace BanBoard

open BanBoard.Files (Path Tree)
open BanBoard.Shell (Host)
open BanBoard.Time (Instant)

def settingVariables : List String :=
  ["HOME", "XDG_DATA_HOME", "F2B_CONFIG", "F2B_BIND", "F2B_PORT", "F2B_DEMO", "F2B_CLIENT",
    "F2B_USE_SUDO", "F2B_SSH_HOST", "F2B_SSH_USER", "F2B_SSH_KEY", "F2B_LOG_PATH", "F2B_DB_PATH",
    "F2B_COMMAND_TIMEOUT", "F2B_STATIC_DIR"]

def readEnvironment : IO Environment :=
  settingVariables.filterMapM fun name => do
    return (← IO.getEnv name).map fun value => (name.toList, value.toList)

def homeIn? (accounts account : String) : Option (List Char) :=
  (accounts.splitOn "\n").findSome? fun line =>
    match line.splitOn ":" with
    | [_, _, number, _, _, home, _] => if number = account then some home.toList else none
    | _ => none

/-- The home that the machine has for the account which runs the program. -/
def readAccountHome : IO (Option (List Char)) :=
  try
    let status ← IO.FS.readFile "/proc/self/status"
    let account? := (status.splitOn "\n").findSome? fun line =>
      match line.splitOn "\t" with
      | "Uid:" :: account :: _ => some account
      | _ => none
    return account?.bind (homeIn? (← IO.FS.readFile "/etc/passwd"))
  catch _ => return none

def pathText (path : Path) : String := String.ofList (path.flatMap fun name => '/' :: name)

/-- Read what stands at a path of the machine, together with the directories above it. -/
def readPath (host : Host) (text : List Char) : IO Host := do
  let names := Files.namesOf text
  let path := if Files.isAbsolute text then names else host.current ++ names
  let root ← IO.currentDir
  let tree ← (List.range (path.length + 1)).foldlM (fun (tree : Tree) length => do
    let place := root / pathText (path.take length)
    if ← place.isDir then return tree.addDirectory (path.take length)
    else if ← place.pathExists then
      return tree.write (path.take length) (← IO.FS.readBinFile place).toList
    else return tree) host.tree
  return { host with tree := tree }

/-- Read all that a command line can reach: the configuration, the log, and the client. -/
def readHost (arguments : List (List Char)) : IO Host := do
  let environment ← readEnvironment
  let current := Files.namesOf (← IO.currentDir).toString.toList
  let programs := Shell.programDirectories.foldl Tree.addDirectory Tree.empty
  let bare : Host :=
    ⟨programs.add Shell.emptyDevice [], current, environment, ← readAccountHome⟩
  match Cli.Arguments.parse arguments with
  | .error _ => return bare
  | .ok arguments =>
    let host ←
      match Config.filePath? arguments.config environment with
      | some path => readPath bare path
      | none => pure bare
    match Config.load host.tree current host.accountHome arguments.config environment with
    | .error _ => return host
    | .ok config => readPath (← readPath host config.logPath) config.client

def writeBack (old new : Tree) : IO Unit := do
  let root ← IO.currentDir
  for path in new.directories do
    unless old.isDirectory path do IO.FS.createDirAll (root / pathText path)
  for (path, bytes) in new.files do
    unless old.file? path = some bytes || path = Shell.emptyDevice do
      IO.FS.writeBinFile (root / pathText path) ⟨bytes.toArray⟩

def present : IO Instant := do
  let now ← Std.Time.Timestamp.now
  let nanoseconds := now.toNanosecondsSinceUnixEpoch.toInt
  return ⟨nanoseconds / 1000000000, (nanoseconds % 1000000000).toNat⟩

/-- Print how a run ended, and give its status. A server is only ever announced. -/
def finish : Cli.Finish → IO UInt32
  | .exited code stdout stderr => do
    IO.print (String.ofList stdout)
    IO.eprint (String.ofList stderr)
    return code.toUInt32
  | .serving address => do
    IO.eprintln (String.ofList ("no way to listen on ".toList ++ address))
    return 1

end BanBoard

def main (arguments : List String) : IO UInt32 := do
  let arguments := arguments.map String.toList
  let host ← BanBoard.readHost arguments
  let (ending, after) := BanBoard.Cli.run host (← BanBoard.present) arguments
  BanBoard.writeBack host.tree after.tree
  BanBoard.finish ending
