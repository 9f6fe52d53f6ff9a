import BanBoard.Log.Entry
import BanBoard.Number.Single
import BanBoard.Text.Blank

/-!
The commands that the daemon's client knows, the answers it can give, and what counts as a failed
command.
-/

namespace BanBoard.Client

open BanBoard.Text

/-- The words of a command, without the program that runs it. -/
abbrev Words := List (List Char)

/-- What a finished program leaves behind. There is no code when a signal ended it. -/
structure Output where
  stdout : List Char
  stderr : List Char
  code : Option Int
  deriving DecidableEq

def Output.success (output : Output) : Bool := output.code = some 0

/-- Why a command has no result: it could not be started, took too long, ended badly, or broke off in
some other way. -/
inductive CommandError where
  | spawn (program reason : List Char)
  | timeout (program : List Char) (milliseconds : Nat)
  | failed (code : Int) (message : List Char)
  | io (reason : List Char)
  deriving DecidableEq

def integer (n : Int) : List Char :=
  if n < 0 then '-' :: decimal (-n).toNat else decimal n.toNat

def CommandError.message : CommandError → List Char
  | .spawn program reason => "Failed to start ".toList ++ program ++ ':' :: ' ' :: reason
  | .timeout program milliseconds =>
    program ++ " timed out after ".toList ++ (Number.secondsOf milliseconds).write ++ ['s']
  | .failed code message =>
    "Command exited with status ".toList ++ integer code ++ ':' :: ' ' :: message
  | .io reason => "IO error: ".toList ++ reason

/-- What running a program gives: its output, or why there is none. A program that ends badly still
has an output. -/
abbrev Reply := Except CommandError Output

/-- The result of a command: what the program printed, when it ended well. Otherwise its complaint is
what it printed as such, or anything that it printed. -/
def result : Reply → Except CommandError (List Char)
  | .error e => .error e
  | .ok output =>
    if output.success then .ok output.stdout
    else
      let complaint := trim output.stderr
      let message := if complaint.isEmpty then trim output.stdout else complaint
      .error (.failed (output.code.getD (-1)) message)

inductive Command where
  | ping
  | status
  | jailStatus (jail : List Char)
  | banTimes (jail : List Char)
  | apply (action : Action) (jail ip : List Char)
  deriving DecidableEq

def actionWord : Action → String
  | .ban => "banip"
  | .unban => "unbanip"

def Command.words : Command → Words
  | .ping => ["ping".toList]
  | .status => ["status".toList]
  | .jailStatus jail => ["status".toList, jail]
  | .banTimes jail => ["get".toList, jail, "banip".toList, "--with-time".toList]
  | .apply action jail ip => ["set".toList, jail, (actionWord action).toList, ip]

/-- A daemon as whoever runs its client sees it: it answers each command and may change by it. -/
abbrev Daemon (σ : Type) := σ → Words → Reply × σ

end BanBoard.Client
