import BanBoard.Proofs.Http.Routes
import BanBoard.Proofs.Jail.Name
import BanBoard.Proofs.Service.Accountability
import BanBoard.Proofs.Service.Calls

/-!
Synthetic data without effects. A service that shows it never changes its state, whatever is asked of it
and in whatever order: its daemon's client is not run and its log is not written. An action with good words
is acknowledged as one that was not carried out.
-/

namespace BanBoard.Service

open BanBoard.Client
open BanBoard.Log (WriteFate)
open BanBoard.Net (Address)
open BanBoard.Time (Instant Zone)

variable {σ : Type} {service : Service σ}

section Demo

variable (hDemo : service.mode = .demo)
include hDemo

/-- No function of the service does anything to the state. -/
theorem eq_of_step_demo {state next : State σ} (h : Step service state next) : next = state := by
  cases h with
  | none => rfl
  | status now =>
      rw [statusAt, hDemo]
      cases service.demoData? now <;> rfl
  | jail name now =>
      rw [jail, hDemo]
      -- The synthetic data has to be out of the way, or checking this evaluates it.
      generalize service.demoData? now = data?
      cases checkJailName name with
      | error e => rfl
      | ok _ =>
          cases data? with
          | none => rfl
          | some data =>
              dsimp only
              cases data.jail? name <;> rfl
  | apply action name ip now fate =>
      have hPretended : isJailName name = false ∨ (∀ address, checkAddress ip ≠ .ok address) ∨
          service.mode = .demo := .inr (.inr hDemo)
      obtain ⟨result, hApply⟩ := exists_apply_eq service action hPretended
      rw [hApply]
  | health => rw [isReachable, hDemo]

/-- In demo mode no row of calls changes anything. -/
theorem runCalls_demo (calls : List Call) (state : State σ) : runCalls service calls state = state := by
  induction calls generalizing state with
  | nil => rfl
  | cons call calls ih =>
      have hFirst : call.run service state = state :=
        eq_of_step_demo hDemo (call.step_run service state)
      calc
        runCalls service (call :: calls) state = runCalls service calls (call.run service state) := rfl
        _ = call.run service state := ih _
        _ = state := hFirst

end Demo

/-- While synthetic data is shown, no session whatever has the daemon's client hear a word or changes what
stands in place of the log. After it every ban and every unban with a jail name and an address, escaped in
whatever way, is acknowledged as a pretended one that is not in the log. -/
theorem demo_touchesNothing (daemon : Daemon σ) (start : σ) (seed : Option UInt64) (zone : Zone)
    (sent : List Command) (log : Log.Store) (slot : Log.Slot) (calls : List Call) :
    let service : Service (σ × List Words) := ⟨.demo, seed, zone, overheard daemon⟩
    let after := runCalls service calls ⟨(start, []), sent, log, slot⟩
    after.daemon.2 = [] ∧ after.slot = slot ∧
    ∀ (site : Option Http.Site) (request : Http.Request) (action : Action) (jail ip : List Char)
      (address : Address) (now : Instant) (fate : WriteFate),
      request.AsksFor action jail ip → IsPlainName jail → checkAddress ip = .ok address →
      (Http.handle service site after request now fate).1 =
        .json 200 (.object [("status", .text "ok".toList), ("action", action.toValue),
          ("jail", .text jail), ("ip", .text address.write),
          ("message", .text (demoMessage action jail address.write)),
          ("demo", .bool true), ("logged", .bool false)]) := by
  intro service after
  have hDemo : service.mode = .demo := rfl
  have hAfter : after = ⟨(start, []), sent, log, slot⟩ := runCalls_demo hDemo calls _
  refine ⟨by rw [hAfter], by rw [hAfter], ?_⟩
  intro site request action jail ip address now fate hAsks hName hAddress
  rw [Http.handle_action service site after hAsks, Http.respondAction,
    apply_demo hDemo after action (isJailName_iff_isPlainName.mpr hName) hAddress]
  rfl

/-- With a torn line at the end of the log, after a status, a ban and a look at the log, an unban with
escapes in its target is acknowledged, and the torn line is still there. -/
theorem demo_touchesNothing_tornLog :
    let daemon : Daemon Unit := fun state _ => (.error (.spawn "fail2ban-client".toList "none".toList), state)
    let torn : Log.Slot := .file (Text.encodeUtf8 "\x7b\"id\":1,\"timest".toList)
    let now : Instant := ⟨1714525323, 0⟩
    let get (target : String) : Call := .http none ⟨"GET", target.toList⟩ now .succeeds
    let calls : List Call :=
      [get "/api/status", .apply .ban "sshd".toList "192.0.2.1".toList now .succeeds, get "/api/log?limit=x"]
    let unban : Http.Request := ⟨"POST", "/api/jail/ss%68d/unban/2001%3ADB8::0:1?x=/".toList⟩
    let address : Address := .v6 ⟨[8193, 3512, 0, 0, 0, 0, 0, 1], rfl⟩
    let service : Service (Unit × List Words) := ⟨.demo, none, .utc, overheard daemon⟩
    let after := runCalls service calls ⟨((), []), [], ⟨"log".toList, ⟨1, none⟩⟩, torn⟩
    unban.AsksFor .unban "sshd".toList "2001:DB8::0:1".toList ∧ IsPlainName "sshd".toList ∧
    checkAddress "2001:DB8::0:1".toList = .ok address ∧
    after.daemon.2 = [] ∧ after.slot = torn ∧
    (Http.handle service none after unban now .succeeds).1 =
      .json 200 (.object [("status", .text "ok".toList), ("action", .text "unban".toList),
        ("jail", .text "sshd".toList), ("ip", .text "2001:db8::1".toList),
        ("message", .text "[DEMO] Would unban 2001:db8::1 from sshd".toList),
        ("demo", .bool true), ("logged", .bool false)]) := by
  intro daemon torn now get calls unban address
  have hAsks : unban.AsksFor .unban "sshd".toList "2001:DB8::0:1".toList :=
    ⟨rfl, "ss%68d".toList, "2001%3ADB8::0:1".toList, by decide, by decide, by decide, by decide,
      by decide +kernel, by decide +kernel⟩
  have hName : IsPlainName "sshd".toList := isJailName_iff_isPlainName.mp (by decide)
  have hAddress : checkAddress "2001:DB8::0:1".toList = .ok address := by decide +kernel
  obtain ⟨hHeard, hSlot, hAnswers⟩ :=
    demo_touchesNothing daemon () none .utc [] ⟨"log".toList, ⟨1, none⟩⟩ torn calls
  have hAnswer := hAnswers none unban .unban _ _ address now .succeeds hAsks hName hAddress
  have hWrite : address.write = "2001:db8::1".toList := by decide +kernel
  have hAction : Action.unban.toValue = .text "unban".toList := rfl
  have hMessage : demoMessage .unban "sshd".toList "2001:db8::1".toList =
      "[DEMO] Would unban 2001:db8::1 from sshd".toList := by decide +kernel
  rw [hWrite, hAction, hMessage] at hAnswer
  exact ⟨hAsks, hName, hAddress, hHeard, hSlot, hAnswer⟩

end BanBoard.Service
