import BanBoard.Service.Basic

/-!
Bans and unbans. Every action that reaches the daemon is logged together with its outcome, and whether
that succeeds does not change what is reported about the action itself.
-/

namespace BanBoard.Service

open BanBoard.Client
open BanBoard.Json (Value)
open BanBoard.Log (Attempt WriteFate)
open BanBoard.Time (Instant)

structure ActionReport where
  action : Action
  jail : List Char
  ip : List Char
  message : List Char
  demo : Bool
  logged : Bool
  logError : Option (List Char)
  error : Option (List Char)
  entry : Option Log.Entry
  deriving DecidableEq

namespace ActionReport

def succeeded (report : ActionReport) : Bool := report.error.isNone

/-- The status of the response: a failed action is a bad gateway. -/
def status (report : ActionReport) : Nat := if report.succeeded then 200 else 502

def toValue (report : ActionReport) : Value :=
  .object <|
    [("status", .text (if report.succeeded then "ok" else "error").toList),
      ("action", report.action.toValue), ("jail", .text report.jail), ("ip", .text report.ip),
      ("message", .text report.message), ("demo", .bool report.demo),
      ("logged", .bool report.logged)] ++
      Value.optional "logError" (report.logError.map .text) ++
      Value.optional "error" (report.error.map .text) ++
      Value.optional "entry" (report.entry.map Log.Entry.toValue)

end ActionReport

def doneMessage (action : Action) (jail ip : List Char) : List Char :=
  match action with
  | .ban => "Banned ".toList ++ ip ++ " in ".toList ++ jail
  | .unban => "Unbanned ".toList ++ ip ++ " from ".toList ++ jail

/-- The message for an action that was only pretended. -/
def demoMessage (action : Action) (jail ip : List Char) : List Char :=
  match action with
  | .ban => "[DEMO] Would ban ".toList ++ ip ++ " in ".toList ++ jail
  | .unban => "[DEMO] Would unban ".toList ++ ip ++ " from ".toList ++ jail

def failedMessage (action : Action) (ip reason : List Char) : List Char :=
  "Failed to ".toList ++ action.word.toList ++ ' ' :: ip ++ ':' :: ' ' :: reason

variable {σ : Type}

def logAttempt (state : State σ) (attempt : Attempt) (now : Instant) (fate : WriteFate) :
    Except Log.Error Log.Entry × State σ :=
  let (result, log, slot) := state.log.append state.slot attempt now fate
  (result, { state with log := log, slot := slot })

/-- The report on an action after its entry has been logged, or not. -/
def reportOf (attempt : Attempt) (message : List Char) (logged : Except Log.Error Log.Entry) :
    ActionReport where
  action := attempt.action
  jail := attempt.jail
  ip := attempt.ip
  message := message
  demo := false
  logged := logged.isOk
  logError :=
    match logged with
    | .ok _ => none
    | .error e => some e.message
  error := attempt.error
  entry := logged.toOption

/-- Send a checked action to the daemon and log what became of it. This is the work of a task of its own,
which panics when the numbers of the log have run out. -/
def dispatch (service : Service σ) (state : State σ) (action : Action) (jail ip : List Char)
    (now : Instant) (fate : WriteFate) : Except Error ActionReport × State σ :=
  let (result, state) := service.ask state (.apply action jail ip)
  let (attempt, message) :=
    match result with
    | .ok _ => (Attempt.success action jail ip, doneMessage action jail ip)
    | .error e => (Attempt.failure action jail ip e.message, failedMessage action ip e.message)
  let (logged, state) := logAttempt state attempt now fate
  match logged with
  | .error .overflow => (.error (.taskPanic Log.Error.overflow.message), state)
  | logged => (.ok (reportOf attempt message logged), state)

/-- Check an action and carry it out. While synthetic data is shown it is only acknowledged. -/
def apply (service : Service σ) (state : State σ) (action : Action) (jail ip : List Char)
    (now : Instant) (fate : WriteFate) : Except Error ActionReport × State σ :=
  match checkJailName jail with
  | .error e => (.error (.ofValidation e), state)
  | .ok () =>
    match checkAddress ip with
    | .error e => (.error (.ofValidation e), state)
    | .ok address =>
      let ip := address.write
      match service.mode with
      | .demo =>
        (.ok ⟨action, jail, ip, demoMessage action jail ip, true, false, none, none, none⟩, state)
      | .live => service.dispatch state action jail ip now fate

def actionLog (state : State σ) (query : Log.Query) : Except Error (List Log.Entry) :=
  (state.log.query state.slot query).mapError .ofLog

end BanBoard.Service
