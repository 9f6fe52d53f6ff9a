import BanBoard.Client.Command
import BanBoard.Demo.Data
import BanBoard.Jail.Name
import BanBoard.Log.Store
import BanBoard.Overview.Snapshot
import BanBoard.Time.Zone

/-!
The service behind the dashboard: what it knows for as long as it runs, what changes from request to
request, and how a request can fail.
-/

namespace BanBoard

open BanBoard.Client
open BanBoard.Time (Instant Zone)

namespace Service

/-- Why a request has no result. A validation error is found before anything is sent; a transport
error is one of the daemon's client. A request that panics is given up without an answer, as when a
number is no word or an hour leaves the calendar. -/
inductive Error where
  | validation (message : List Char)
  | notFound (message : List Char)
  | transport (message : List Char)
  | internal (message : List Char)
  | panic
  deriving DecidableEq

namespace Error

def message : Error → List Char
  | .validation message => message
  | .notFound message => message
  | .transport message => message
  | .internal message => message
  | .panic => []

/-- The word for the kind of an error. -/
def kind : Error → String
  | .validation _ => "validation"
  | .notFound _ => "not_found"
  | .transport _ => "transport"
  | .internal _ => "internal"
  | .panic => "panic"

/-- The status of a response that carries an error. There is no response after a panic, which is written
as a status of zero. -/
def status : Error → Nat
  | .validation _ => 400
  | .notFound _ => 404
  | .transport _ => 502
  | .internal _ => 500
  | .panic => 0

def ofValidation (e : ValidationError) : Error := .validation e.message

def ofCommand (e : CommandError) : Error := .transport e.message

def ofLog : Log.Error → Error
  | .overflow => .panic
  | e => .internal e.message

/-- The error of a request whose action is carried out by a task of its own that panics. -/
def taskPanic (message : List Char) : Error :=
  .internal ("action task failed: task panicked with message \"".toList ++ message ++ ['"'])

end Error

end Service

/-- What a service knows for as long as it runs. With a seed, synthetic data does not change from hour
to hour. The zone is the one in which the daemon tells times. -/
structure Service (σ : Type) where
  mode : Mode
  seed : Option UInt64
  zone : Zone
  daemon : Daemon σ

namespace Service

/-- What changes from request to request: the daemon, the commands it has been sent, and the log with
the file it is kept in. -/
structure State (σ : Type) where
  daemon : σ
  sent : List Command
  log : Log.Store
  slot : Log.Slot

variable {σ : Type}

def ask (service : Service σ) (state : State σ) (command : Command) :
    Except CommandError (List Char) × State σ :=
  let (reply, daemon) := service.daemon state.daemon command.words
  (Client.result reply, { state with daemon := daemon, sent := state.sent ++ [command] })

def demoData? (service : Service σ) (now : Instant) : Option Demo.Data :=
  Demo.Data.ofSeed? (service.seed.getD (Demo.hourSeed now)) now

end Service

/-- The mode that a setting leads to. Only the setting that forces none asks the daemon, and one that
does not answer leads to synthetic data. -/
def DemoSetting.resolve {σ : Type} (setting : DemoSetting) (daemon : Daemon σ) (state : σ) :
    Mode × List Command × σ :=
  match setting.forced? with
  | some mode => (mode, [], state)
  | none =>
    let (reply, state) := daemon state Command.ping.words
    match Client.result reply with
    | .ok _ => (.live, [.ping], state)
    | .error _ => (.demo, [.ping], state)

end BanBoard
