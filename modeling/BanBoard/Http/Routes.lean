import BanBoard.Http.LogQuery
import BanBoard.Http.Static
import BanBoard.Service.Actions
import BanBoard.Service.Jails

/-!
The interface over HTTP. Each route knows one method, and reading methods may leave out the body; what
no route matches is looked for among the served files.
-/

namespace BanBoard.Http

open BanBoard.Files (Path Tree)
open BanBoard.Json (Value)
open BanBoard.Log (WriteFate)
open BanBoard.Service (State)
open BanBoard.Text
open BanBoard.Time (Instant)

/-- What a path asks for. Names and addresses are still escaped. -/
inductive Route where
  | status
  | jail (name : List Char)
  | action (action : Action) (name ip : List Char)
  | log
  | mode
  | health
  deriving DecidableEq

/-- The route that a path matches. A segment in the middle may be empty, the last one may not. -/
def Route.ofPath? (path : List Char) : Option Route :=
  match (segments path).map String.ofList with
  | ["api", "status"] => some .status
  | ["api", "log"] => some .log
  | ["api", "mode"] => some .mode
  | ["api", "health"] => some .health
  | ["api", "jail", name] => if name.isEmpty then none else some (.jail name.toList)
  | ["api", "jail", name, "ban", ip] =>
    if ip.isEmpty then none else some (.action .ban name.toList ip.toList)
  | ["api", "jail", name, "unban", ip] =>
    if ip.isEmpty then none else some (.action .unban name.toList ip.toList)
  | _ => none

structure Request where
  method : String
  target : List Char

/-- Whether a route changes something, and so knows another method than reading. -/
def Route.isAction : Route → Bool
  | .action .. => true
  | _ => false

def readMethods : String := "GET,HEAD"

def badParameter (name : String) : Response :=
  .text 400 ("Invalid URL: Invalid UTF-8 in \x60".toList ++ name.toList ++ ['\x60'])

def repeatedParameter (name : List Char) : Response :=
  .text 400
    ("Failed to deserialize query string: duplicate field \x60".toList ++ name ++ ['\x60'])

def respond {α : Type} (toValue : α → Value) : Except Service.Error α → Response
  | .ok x => .json 200 (toValue x)
  | .error e => .ofError e

variable {σ : Type}

def respondLog (state : State σ) (query : Option (List Char)) : Response :=
  match LogParams.ofQuery query with
  | .error name => repeatedParameter name
  | .ok params =>
    match params.toQuery with
    | .error e => .ofError e
    | .ok query =>
      respond (fun entries => .array (entries.map Log.Entry.toValue))
        (Service.actionLog state query)

/-- Carry out the request for an action, its parameters unescaped. -/
def respondAction (service : Service σ) (state : State σ) (action : Action) (name ip : List Char)
    (now : Instant) (fate : WriteFate) : Response × State σ :=
  let (result, state) := service.apply state action name ip now fate
  match result with
  | .error e => (.ofError e, state)
  | .ok report => (.json report.status report.toValue, state)

def answer (service : Service σ) (state : State σ) (route : Route) (query : Option (List Char))
    (now : Instant) (fate : WriteFate) : Response × State σ :=
  match route with
  | .status =>
    let (result, state) := service.statusAt state now
    (respond Overview.Snapshot.toValue result, state)
  | .jail name =>
    match decodeUtf8? (unescape name) with
    | none => (badParameter "name", state)
    | some name =>
      let (result, state) := service.jail state name now
      (respond Jail.toValue result, state)
  | .action action name ip =>
    match decodeUtf8? (unescape name), decodeUtf8? (unescape ip) with
    | none, _ => (badParameter "name", state)
    | some _, none => (badParameter "ip", state)
    | some name, some ip => respondAction service state action name ip now fate
  | .log => (respondLog state query, state)
  | .mode =>
    (.json 200 (.object
      [("mode", service.mode.toValue), ("demo", .bool (service.mode = .demo))]), state)
  | .health =>
    let (daemon, state) := service.isReachable state
    (.json 200 (.object
      [("ok", .bool true), ("mode", service.mode.toValue), ("daemon", .bool daemon)]), state)

structure Site where
  tree : Tree
  root : Path

def serve (site : Option Site) (request : Request) (path : List Char) : Response :=
  match site with
  | none => .bare 404
  | some site =>
    if request.method = "GET" then serveFile site.tree site.root path
    else if request.method = "HEAD" then (serveFile site.tree site.root path).withoutBody
    else .notAllowed readMethods

def handle (service : Service σ) (site : Option Site) (state : State σ) (request : Request)
    (now : Instant) (fate : WriteFate) : Response × State σ :=
  let (path, query) := splitTarget request.target
  match Route.ofPath? path with
  | none => (serve site request path, state)
  | some route =>
    if route.isAction then
      if request.method = "POST" then answer service state route query now fate
      else (.notAllowed "POST", state)
    else if request.method = "GET" then answer service state route query now fate
    else if request.method = "HEAD" then
      let (response, state) := answer service state route query now fate
      (response.withoutBody, state)
    else (.notAllowed readMethods, state)

end BanBoard.Http
