import BanBoard.Http.Routes
import BanBoard.Proofs.Jail.Basic
import BanBoard.Proofs.Log.File

/-!
What one request for an action does. A bad word is refused with nothing changed; otherwise the daemon
is asked once, and one entry with its verdict comes to the end of the log. When the numbers of the log have
run out, the daemon has been asked all the same, but the request fails and the log stays as it was.
-/

namespace BanBoard.Service

open BanBoard.Client
open BanBoard.Log (Attempt Entry fileOf)
open BanBoard.Net (Address)
open BanBoard.Time (Instant)

variable {σ : Type}

/-- The attempt that is logged for an action with a given result. -/
def attemptOf (action : Action) (jail ip : List Char) :
    Except CommandError (List Char) → Attempt
  | .ok _ => Attempt.success action jail ip
  | .error e => Attempt.failure action jail ip e.message

theorem attemptOf_words (action : Action) (jail ip : List Char)
    (result : Except CommandError (List Char)) :
    (attemptOf action jail ip result).action = action ∧
      (attemptOf action jail ip result).jail = jail ∧ (attemptOf action jail ip result).ip = ip := by
  cases result <;> exact ⟨rfl, rfl, rfl⟩

theorem attemptOf_outcome (action : Action) (jail ip : List Char)
    (result : Except CommandError (List Char)) :
    (attemptOf action jail ip result).outcome = .success ↔ result.isOk = true := by
  cases result <;> simp [attemptOf, Attempt.success, Attempt.failure, Except.isOk, Except.toBool]

def messageOf (action : Action) (jail ip : List Char) : Except CommandError (List Char) → List Char
  | .ok _ => doneMessage action jail ip
  | .error e => failedMessage action ip e.message

/-- Dispatching an action asks the daemon once and appends the attempt that its reply makes. -/
theorem dispatch_eq_append {service : Service σ} {state : State σ} {action : Action}
    {jail ip : List Char} {reply : Reply} {daemon : σ} (hRoom : ¬state.log.IsExhausted)
    (hReply : service.daemon state.daemon (Command.apply action jail ip).words = (reply, daemon))
    (now : Instant) (fate : Log.WriteFate) :
    service.dispatch state action jail ip now fate =
      let attempt := attemptOf action jail ip (Client.result reply)
      let appended := state.log.append state.slot attempt now fate
      (.ok (reportOf attempt (messageOf action jail ip (Client.result reply)) appended.1),
        ⟨daemon, state.sent ++ [.apply action jail ip], appended.2.1, appended.2.2⟩) := by
  rw [dispatch, ask, hReply]
  -- Of the append only its result is looked at, and that is no overflow.
  cases hResult : Client.result reply with
  | ok text =>
      have hAppended := Log.Store.append_ne_overflow hRoom state.slot (.success action jail ip) now fate
      rcases hAppend : state.log.append state.slot (.success action jail ip) now fate with ⟨(_ | _) | _, _⟩ <;>
        simp_all [logAttempt, attemptOf, messageOf]
  | error e =>
      have hAppended := Log.Store.append_ne_overflow hRoom state.slot
        (.failure action jail ip e.message) now fate
      rcases hAppend : state.log.append state.slot (.failure action jail ip e.message) now fate with
        ⟨(_ | _) | _, _⟩ <;> simp_all [logAttempt, attemptOf, messageOf]

/-- When the numbers of the log have run out, only the daemon takes notice of an action. -/
theorem dispatch_exhausted {service : Service σ} {state : State σ} (h : state.log.IsExhausted)
    (action : Action) (jail ip : List Char) (now : Instant) (fate : Log.WriteFate) :
    service.dispatch state action jail ip now fate =
      (.error (.taskPanic Log.Error.overflow.message),
        ⟨(service.daemon state.daemon (Command.apply action jail ip).words).2,
          state.sent ++ [.apply action jail ip], state.log, state.slot⟩) := by
  rw [dispatch, ask]
  dsimp only
  cases Client.result (service.daemon state.daemon (Command.apply action jail ip).words).1 <;>
    simp only [logAttempt, Log.Store.append_exhausted h]

/-- The entry that an action leaves in the log. -/
def entryFor (service : Service σ) (state : State σ) (action : Action) (jail ip : List Char)
    (now : Instant) : Entry :=
  state.log.stamp (attemptOf action jail ip
    (Client.result (service.daemon state.daemon (Command.apply action jail ip).words).1)) now

/-- The state after an action whose attempt was logged behind some entries. -/
def after (service : Service σ) (state : State σ) (action : Action) (jail ip : List Char)
    (now : Instant) (entries : List Entry) (spent : Log.Store) : State σ :=
  ⟨(service.daemon state.daemon (Command.apply action jail ip).words).2,
    state.sent ++ [.apply action jail ip], spent,
    .file (fileOf (entries ++ [service.entryFor state action jail ip now]))⟩

/-- The status with which the result of an action is reported. -/
def statusOf : Except Error ActionReport → Nat
  | .error e => e.status
  | .ok report => report.status

/-- Dispatching an action asks the daemon and logs its verdict. -/
theorem dispatch_eq (service : Service σ) {state : State σ} {entries : List Entry}
    (h : state.slot.Holds entries) {action : Action} {jail ip : List Char} {now : Instant}
    {spent : Log.Store} (hSpends : state.log.Spends (service.entryFor state action jail ip now) spent) :
    (statusOf (service.dispatch state action jail ip now .succeeds).1 =
      if (Client.result (service.daemon state.daemon
        (Command.apply action jail ip).words).1).isOk then 200 else 502) ∧
    (service.dispatch state action jail ip now .succeeds).2 =
      service.after state action jail ip now entries spent := by
  have hSpent := Log.Store.spend?_eq_some_iff.mpr hSpends
  have hRoom : ¬state.log.IsExhausted := fun hExhausted => by
    rw [Log.Store.spend?_eq_none_iff.mpr hExhausted] at hSpent
    cases hSpent
  rw [dispatch_eq_append hRoom rfl, after]
  simp only [Log.Store.append_succeeds h hSpent]
  refine ⟨?_, rfl⟩
  cases Client.result (service.daemon state.daemon (Command.apply action jail ip).words).1 with
  | ok text => rfl
  | error e => rfl

/-- An action with a bad word is refused in every state, and the state stays as it was. -/
theorem exists_apply_invalid (service : Service σ) (action : Action) {jail ip : List Char}
    (h : ¬(isJailName jail = true ∧ ∃ address, checkAddress ip = .ok address)) :
    ∃ e, ∀ state now fate,
      service.apply state action jail ip now fate = (.error (.ofValidation e), state) := by
  cases hName : checkJailName jail with
  | error e => exact ⟨e, fun state now fate => by simp only [apply, hName]⟩
  | ok =>
      cases hAddress : checkAddress ip with
      | error e => exact ⟨e, fun state now fate => by simp only [apply, hName, hAddress]⟩
      | ok address => exact (h ⟨isJailName_iff.mpr hName, address, hAddress⟩).elim

section Valid

variable {service : Service σ} {jail ip : List Char} {address : Address}

theorem apply_demo (hDemo : service.mode = .demo) (state : State σ) (action : Action)
    (hName : isJailName jail = true) (hAddress : checkAddress ip = .ok address) (now : Instant)
    (fate : Log.WriteFate) :
    service.apply state action jail ip now fate =
      (.ok ⟨action, jail, address.write, demoMessage action jail address.write, true, false, none, none,
        none⟩, state) := by
  simp only [apply, isJailName_iff.mp hName, hAddress, hDemo]

/-- In live mode an action with good words is carried out. -/
theorem apply_live (hLive : service.mode = .live) (state : State σ) (action : Action)
    (hName : isJailName jail = true) (hAddress : checkAddress ip = .ok address) (now : Instant)
    (fate : Log.WriteFate) :
    service.apply state action jail ip now fate =
      service.dispatch state action jail address.write now fate := by
  simp only [apply, isJailName_iff.mp hName, hAddress, hLive]

end Valid

/-- The response tells the result, and the state is that of the service. -/
theorem respondAction_eq {service : Service σ} {state next : State σ} {action : Action}
    {jail ip : List Char} {now : Instant} {fate : Log.WriteFate} {result : Except Error ActionReport}
    (h : service.apply state action jail ip now fate = (result, next)) :
    (Http.respondAction service state action jail ip now fate).1.status = statusOf result ∧
    (Http.respondAction service state action jail ip now fate).2 = next := by
  rw [Http.respondAction, h]
  cases result with
  | error e => cases e <;> exact ⟨rfl, rfl⟩
  | ok report => exact ⟨rfl, rfl⟩

/-- A request with a bad word is refused, and nothing changes. -/
theorem respondAction_invalid (service : Service σ) (state : State σ) (action : Action)
    {jail ip : List Char} (now : Instant) (fate : Log.WriteFate)
    (h : ¬(isJailName jail = true ∧ ∃ address, checkAddress ip = .ok address)) :
    (Http.respondAction service state action jail ip now fate).1.status = 400 ∧
      (Http.respondAction service state action jail ip now fate).2 = state := by
  obtain ⟨e, hApply⟩ := exists_apply_invalid service action h
  exact respondAction_eq (hApply state now fate)

section Respond

variable {service : Service σ} {state : State σ} {action : Action} {jail ip : List Char}
  {address : Address} {now : Instant}

/-- A request with good words goes to the daemon with the canonical address. -/
theorem respondAction_valid (hLive : service.mode = .live) {entries : List Entry}
    (hHolds : state.slot.Holds entries) (hName : isJailName jail = true)
    (hAddress : checkAddress ip = .ok address) {spent : Log.Store}
    (hSpends : state.log.Spends (service.entryFor state action jail address.write now) spent) :
    ((Http.respondAction service state action jail ip now .succeeds).1.status =
      if (Client.result (service.daemon state.daemon
        (Command.apply action jail address.write).words).1).isOk then 200 else 502) ∧
    (Http.respondAction service state action jail ip now .succeeds).2 =
      service.after state action jail address.write now entries spent := by
  obtain ⟨hStatus, hState⟩ :=
    respondAction_eq (apply_live hLive state action hName hAddress now .succeeds)
  obtain ⟨hReport, hNext⟩ := dispatch_eq service hHolds hSpends
  exact ⟨hStatus.trans hReport, hState.trans hNext⟩

/-- When the numbers of the log have run out, a request with good words is an internal error, and only the
daemon has taken notice of it. -/
theorem respondAction_exhausted (hLive : service.mode = .live) (h : state.log.IsExhausted)
    (hName : isJailName jail = true) (hAddress : checkAddress ip = .ok address)
    (fate : Log.WriteFate) :
    (Http.respondAction service state action jail ip now fate).1.status = 500 ∧
    (Http.respondAction service state action jail ip now fate).2 =
      ⟨(service.daemon state.daemon (Command.apply action jail address.write).words).2,
        state.sent ++ [.apply action jail address.write], state.log, state.slot⟩ := by
  have hApply := apply_live hLive state action hName hAddress now fate
  rw [dispatch_exhausted h] at hApply
  exact respondAction_eq hApply

end Respond

end BanBoard.Service
