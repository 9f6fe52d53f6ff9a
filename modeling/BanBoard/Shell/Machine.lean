import BanBoard.Config.Basic
import BanBoard.Files.Tree
import BanBoard.Shell.Arithmetic
import BanBoard.Shell.Print
import BanBoard.Shell.Script

/-!
The machine that programs run on, and a shell that runs there, with its variables, its streams and its
clock.
-/

namespace BanBoard.Shell

open BanBoard.Files (Path Tree)
open BanBoard.Text

/-- The machine that programs run on: its files, the current directory, the environment, and the home that
the account has whatever the environment says. -/
structure Host where
  tree : Tree
  current : Path
  environment : Environment
  accountHome : Option (List Char)

inductive Sink where
  | out
  | err
  | file (path : Path)
  | nowhere

structure Streams where
  out : Sink
  err : Sink

/-- The directories of a machine in which programs are found by their names. -/
def programDirectories : List Path := [["bin".toList], ["usr".toList], ["usr".toList, "bin".toList]]

def emptyDevice : Path := ["dev".toList, "null".toList]

/-- What a shell has been told about itself: to leave at the first failure, to refuse unset variables,
and what to run at its end. -/
structure Manner where
  strict : Bool
  nounset : Bool
  atEnd : List Char

/-- The manner of a shell that has been told nothing. -/
def Manner.usual : Manner := ⟨false, false, []⟩

/-- A running shell. Output is kept in pieces, the newest first. The clock counts milliseconds; what
runs in the background ends at `jobsUntil`, and keeps the streams open until `busyUntil`. An expansion
that fails breaks the shell off. -/
structure Machine where
  host : Host
  name : List Char
  parameters : List (List Char)
  functions : List (List Char × Script)
  manner : Manner
  input : List UInt8
  outPieces : List (List UInt8)
  errPieces : List (List UInt8)
  status : Nat
  clock : Nat
  jobsUntil : Nat
  busyUntil : Nat
  broken : Bool

def Machine.start (host : Host) (name : List Char) : Machine :=
  ⟨host, name, [], [], .usual, [], [], [], 0, 0, 0, 0, false⟩

/-- How a script ends: by itself, by leaving the shell, a function or a loop, or by a signal. -/
inductive Ending where
  | done
  | left
  | returned
  | interrupted (again : Bool)
  | killed
  deriving DecidableEq

/-- A time that no timeout outlasts. -/
def forever : Nat := 10 ^ 30

/-- The number by which a shell knows itself. -/
def ownNumber : List Char := "4242".toList

namespace Machine

def valueOf? (m : Machine) (name : List Char) : Option (List Char) :=
  (m.host.environment.find? fun entry => entry.1 = name).map Prod.snd

def setVariable (m : Machine) (name value : List Char) : Machine :=
  let others := m.host.environment.filter fun entry => entry.1 ≠ name
  { m with host := { m.host with environment := (name, value) :: others } }

def withStatus (m : Machine) (status : Nat) : Machine := { m with status := status }

def stuck (m : Machine) : Machine := { m with clock := m.clock + forever }

def send (m : Machine) (sink : Sink) (bytes : List UInt8) : Machine :=
  match sink with
  | .out => { m with outPieces := bytes :: m.outPieces }
  | .err => { m with errPieces := bytes :: m.errPieces }
  | .nowhere => m
  | .file path =>
    let before := (m.host.tree.file? path).getD []
    { m with host := { m.host with tree := m.host.tree.write path (before ++ bytes) } }

def complain (m : Machine) (streams : Streams) (status : Nat) (text : List Char) : Machine :=
  (m.send streams.err (encodeUtf8 (text ++ ['\n']))).withStatus status

def stdout (m : Machine) : List UInt8 := m.outPieces.reverse.flatten

def stderr (m : Machine) : List UInt8 := m.errPieces.reverse.flatten

def parameter (m : Machine) (name : List Char) : List Char :=
  match name with
  | ['?'] => decimal m.status
  | ['#'] => decimal m.parameters.length
  | ['$'] => ownNumber
  | ['0'] => m.name
  | ['*'] => joinWords m.parameters
  | ['@'] => joinWords m.parameters
  | _ =>
    if !name.isEmpty && name.all isDigit then (m.parameters[digitsValue name - 1]?).getD []
    else (m.valueOf? name).getD []

def isSet (m : Machine) (name : List Char) : Bool :=
  if !name.isEmpty && name.all isDigit then
    digitsValue name ≤ m.parameters.length
  else if name.all isSpecial then true
  else (m.valueOf? name).isSome

def removeVariable (m : Machine) (name : List Char) : Machine :=
  let others := m.host.environment.filter fun entry => entry.1 ≠ name
  { m with host := { m.host with environment := others } }

def breakOff (m : Machine) (complaint : List Char) : Machine :=
  { m with
    errPieces := encodeUtf8 (m.name ++ ": 1: ".toList ++ complaint ++ ['\n']) :: m.errPieces
    status := 2
    broken := true }

def values (m : Machine) : Values := fun name => integerOf (m.parameter name)

end Machine

def Streams.set (streams : Streams) (stream : Nat) (sink : Sink) : Streams :=
  if stream = 1 then { streams with out := sink }
  else if stream = 2 then { streams with err := sink }
  else streams

def Streams.get (streams : Streams) (stream : Nat) : Sink :=
  if stream = 1 then streams.out else streams.err

end BanBoard.Shell
