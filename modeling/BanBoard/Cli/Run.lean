import BanBoard.Cli.Arguments
import BanBoard.Cli.Failure
import BanBoard.Client.Local
import BanBoard.Service.Jails

/-!
The commands of the program, on a machine with its files and programs. Everything is printed at the
end, and a failing command prints nothing but its failure. What the program writes down about its own
work, which goes to the errors as well, is left out.
-/

namespace BanBoard.Cli

open BanBoard.Client (Launch)
open BanBoard.Files (Fault)
open BanBoard.Net (Address)
open BanBoard.Shell (Host)
open BanBoard.Text
open BanBoard.Time (Instant)

/-- How a run ends: with a status and what was printed, or not at all because the server is up. Of the
errors there is only the failure that ends a run. A run that succeeds has none, although the program notes
there what it does, and help, usage and the words of a panic are left out. -/
inductive Finish where
  | exited (code : Nat) (stdout stderr : List Char)
  | serving (address : List Char)
  deriving DecidableEq

def printed (text : List Char) : Finish := .exited 0 text []

def failed (failure : Failure) : Finish := .exited 1 [] failure.write

/-- How a run ends that panics. -/
def crashed : Finish := .exited 101 [] []

def logFailed (doing : List Char) : Log.Error → Finish
  | .overflow => crashed
  | e => failed ((Failure.ofLog e).during doing)

def versionLine : List Char := "f2b-dashboard 1.0.0\n".toList

/-- The log at a path of a machine: what is there, with the directories above it made. -/
def openSlot (host : Host) (path : List Char) : Except Log.Error (Log.Slot × Host) :=
  let made : Except Log.Error Files.Tree :=
    match Files.parent? path with
    | none => .ok host.tree
    | some above =>
      match host.tree.makeDirectories (above.length + 1) host.current above with
      | .ok tree => .ok tree
      | .error fault => .error (.io above fault)
  match made with
  | .error e => .error e
  | .ok tree =>
    match tree.follow host.current path with
    | .error fault => .error (.io path fault)
    | .ok names =>
      let slot : Log.Slot :=
        match tree.file? names with
        | some bytes => .file bytes
        | none => if tree.isDirectory names then .directory else .missing
      .ok (slot, { host with tree := tree })

def saveSlot (host : Host) (path : List Char) (slot : Log.Slot) : Host :=
  match slot, host.tree.follow host.current path with
  | .file bytes, .ok names => { host with tree := host.tree.write names bytes }
  | _, _ => host

def openLog (host : Host) (path : List Char) : Except Log.Error (Log.Store × Log.Slot) × Host :=
  match openSlot host path with
  | .error e => (.error e, host)
  | .ok (slot, host) =>
    let (result, slot) := Log.Store.open_ path slot
    (result.map fun store => (store, slot), saveSlot host path slot)

/-- Start the service of a configuration: choose its mode, then open its log. -/
def startService (host : Host) (config : Config) :
    Except Finish (Service Host × Service.State Host) × Host :=
  let daemon := (Launch.ofConfig config).daemon
  let (mode, sent, host) := config.demo.resolve daemon host
  let (opened, host) := openLog host config.logPath
  match opened with
  | .error e => (.error (logFailed "opening action log".toList e), host)
  | .ok (store, slot) =>
    (.ok (⟨mode, none, .utc, daemon⟩, ⟨host, sent, store, slot⟩), host)

/-- The address that a host to listen on is, if it is not a name. One of version six stands in
brackets. -/
def listenIp? (host : List Char) : Option Address :=
  match host with
  | '[' :: rest =>
    if rest.getLast? = some ']' then (Address.parse? rest.dropLast).filter (·.version = 6) else none
  | _ => Address.parse? host

/-- Whether an address belongs to every machine. -/
def isOwnAddress : Address → Bool
  | .v4 a b c d => a = 127 || (a = 0 && b = 0 && c = 0 && d = 0)
  | .v6 groups => groups.val.take 7 = List.replicate 7 0 && (groups.val[7]?.getD 0) ≤ 1

/-- Why a server cannot listen on a host, if it cannot. Addresses of other machines are refused, and a
name other than that of the machine itself has no address. -/
def bindFault? (host : List Char) : Option Fault :=
  match listenIp? host with
  | some address =>
    if isOwnAddress address then none
    else some (.other (Files.numbered "Cannot assign requested address" 99))
  | none =>
    if host = "localhost".toList then none
    else
      some (.other "failed to lookup address information: Name or service not known".toList)

def serve (host : Host) (config : Config) : Finish × Host :=
  let (started, host) := startService host config
  match started with
  | .error finish => (finish, host)
  | .ok _ =>
    match bindFault? config.listenHost with
    | some fault =>
      (failed ⟨"serving on ".toList ++ config.listenAddress, [fault.message]⟩, host)
    | none => (.serving config.listenAddress, host)

def printStatus (host : Host) (config : Config) (now : Instant) : Finish × Host :=
  let (started, host) := startService host config
  match started with
  | .error finish => (finish, host)
  | .ok (service, state) =>
    let (result, state) := service.statusAt state now
    match result with
    | .error .panic => (crashed, state.daemon)
    | .error e => (failed (.ofService e), state.daemon)
    | .ok snapshot => (printed (snapshot.toValue.writeLines 0 ++ ['\n']), state.daemon)

def entryLine (entry : Log.Entry) : List Char :=
  let gap := [' ', ' ']
  let attempt := entry.attempt
  padLeft 5 (decimal entry.id.toNat) ++ gap ++
    Time.writeDate entry.timestamp.date ++ ' ' :: Time.writeClock entry.timestamp ++ gap ++
    padRight 5 attempt.action.word.toList ++ gap ++
    padRight 7 (if entry.succeeded then "ok" else "FAILED").toList ++ gap ++
    padRight 16 attempt.jail ++ gap ++ attempt.ip ++
    match attempt.error with
    | some message => gap ++ '(' :: message ++ [')']
    | none => []

def entryLines (json : Bool) (path : List Char) (entries : List Log.Entry) : List Char :=
  if json then entries.flatMap fun entry => entry.encode ++ ['\n']
  else if entries.isEmpty then "No actions logged in ".toList ++ path ++ ['\n']
  else entries.flatMap fun entry => entryLine entry ++ ['\n']

def printLog (host : Host) (config : Config) (limit : Nat) (jail : Option (List Char))
    (json : Bool) : Finish × Host :=
  let checked := match jail with
    | some name => checkJailName name
    | none => .ok ()
  match checked with
  | .error e => (failed (.ofValidation e), host)
  | .ok () =>
    let (opened, host) := openLog host config.logPath
    match opened with
    | .error e => (logFailed ("opening ".toList ++ config.logPath) e, host)
    | .ok (store, slot) =>
      match store.query slot ⟨none, some limit, jail, none⟩ with
      | .error e => (failed (.ofLog e), host)
      | .ok entries => (printed (entryLines json config.logPath entries), host)

def printMode (host : Host) (config : Config) : Finish × Host :=
  let launch := Launch.ofConfig config
  let (mode, _, host) := config.demo.resolve launch.daemon host
  (printed (mode.word.toList ++ " (demo setting: ".toList ++ config.demo.word.toList ++
    ", client: ".toList ++ launch.describe ++ [')', '\n']), host)

def serverConfig (config : Config) (port : Option UInt16) (bind : Option (List Char))
    (demo : Option DemoSetting) (staticDir : Option (List Char)) : Config :=
  { config with
    port := port.getD config.port
    bind := bind.getD config.bind
    demo := demo.getD config.demo
    staticDir := staticDir.or config.staticDir }

def runCommand (host : Host) (config : Config) (now : Instant) : Command → Finish × Host
  | .serve port bind demo staticDir => serve host (serverConfig config port bind demo staticDir)
  | .status => printStatus host config now
  | .log limit jail json => printLog host config limit jail json
  | .mode => printMode host config

/-- Run the program. The notes on its own work are no part of the errors of a run. -/
def run (host : Host) (now : Instant) (arguments : List (List Char)) : Finish × Host :=
  match Arguments.parse arguments with
  | .error .help => (.exited 0 [] [], host)
  | .error .version => (printed versionLine, host)
  | .error .usage => (.exited 2 [] [], host)
  | .ok arguments =>
    match Config.load host.tree host.current host.accountHome arguments.config host.environment with
    | .error e => (failed ((Failure.ofConfig e).during "loading configuration".toList), host)
    | .ok config => runCommand host config now arguments.command

end BanBoard.Cli
