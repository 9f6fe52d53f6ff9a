import BanBoard.Service.Basic
import BanBoard.Status.BanTimes
import BanBoard.Status.Report

/-!
Reading jails and the status of all of them. A jail whose own status cannot be read is left out of a
list of jails, and ban times that cannot be read are left out of a jail.
-/

namespace BanBoard.Service

open BanBoard.Client
open BanBoard.Time (Instant)

variable {σ : Type}

/-- The names that the daemon lists. -/
def jailNames (service : Service σ) (state : State σ) :
    Except CommandError (List (List Char)) × State σ :=
  let (result, state) := service.ask state .status
  (result.map Status.jailList, state)

/-- One jail, with the times of its bans when the daemon tells them. -/
def fetchJail (service : Service σ) (state : State σ) (name : List Char) :
    Except CommandError Jail × State σ :=
  let (result, state) := service.ask state (.jailStatus name)
  match result with
  | .error e => (.error e, state)
  | .ok text =>
    let jail := Status.jailReport name text
    if jail.banned.isEmpty then (.ok jail, state)
    else
      let (times, state) := service.ask state (.banTimes name)
      match times with
      | .error _ => (.ok jail, state)
      | .ok text => (.ok (Status.attach (Status.banTimes service.zone text) jail).2, state)

/-- The jails of some names, one after the other. Those that cannot be read are left out. -/
def fetchJails (service : Service σ) (state : State σ) :
    (names : List (List Char)) → List Jail × State σ
  | [] => ([], state)
  | name :: names =>
    let (result, state) := service.fetchJail state name
    let (jails, state) := service.fetchJails state names
    match result with
    | .ok jail => (jail :: jails, state)
    | .error _ => (jails, state)

def liveJails (service : Service σ) (state : State σ) : Except Error (List Jail) × State σ :=
  let (names, state) := service.jailNames state
  match names with
  | .error e => (.error (.ofCommand e), state)
  | .ok names =>
    let (jails, state) := service.fetchJails state names
    (.ok jails, state)

/-- A snapshot from its parts, if there is one. -/
def snapshotOf (mode : Mode) (jails : List Jail) (events : List Instant) (now : Instant) :
    Except Error Overview.Snapshot :=
  match Overview.Snapshot.compose? mode jails events now with
  | some snapshot => .ok snapshot
  | none => .error .panic

/-- The times of bans for a timeline, read from the log. A log that cannot be read gives none. -/
def loggedBans (state : State σ) (now : Instant) : List Instant :=
  match state.log.banTimes state.slot (Overview.windowStart now) with
  | .ok times => times
  | .error _ => []

/-- The status of all jails at an instant. -/
def statusAt (service : Service σ) (state : State σ) (now : Instant) :
    Except Error Overview.Snapshot × State σ :=
  match service.mode with
  | .demo =>
    match service.demoData? now with
    | some data => (snapshotOf .demo data.jails data.banEvents now, state)
    | none => (.error .panic, state)
  | .live =>
    let (jails, state) := service.liveJails state
    match jails with
    | .error e => (.error e, state)
    | .ok jails => (snapshotOf .live jails (loggedBans state now) now, state)

def jailNotFound (name : List Char) : Error :=
  .notFound ("Jail '".toList ++ name ++ "' not found".toList)

def jail (service : Service σ) (state : State σ) (name : List Char) (now : Instant) :
    Except Error Jail × State σ :=
  match checkJailName name with
  | .error e => (.error (.ofValidation e), state)
  | .ok () =>
    match service.mode with
    | .demo =>
      match service.demoData? now with
      | none => (.error .panic, state)
      | some data =>
        match data.jail? name with
        | some jail => (.ok jail, state)
        | none => (.error (jailNotFound name), state)
    | .live =>
      let (names, state) := service.jailNames state
      match names with
      | .error e => (.error (.ofCommand e), state)
      | .ok names =>
        if names.contains name then
          let (result, state) := service.fetchJail state name
          (result.mapError .ofCommand, state)
        else (.error (jailNotFound name), state)

/-- Whether the daemon answers. It is not asked while synthetic data is shown. -/
def isReachable (service : Service σ) (state : State σ) : Bool × State σ :=
  match service.mode with
  | .demo => (false, state)
  | .live =>
    let (result, state) := service.ask state .ping
    (result.isOk, state)

end BanBoard.Service
