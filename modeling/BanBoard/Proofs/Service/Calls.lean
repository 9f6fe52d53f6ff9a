import BanBoard.Proofs.Service.Actions

/-!
What may be asked of a service, directly or over HTTP. Over HTTP nothing can be done to the state that
cannot be done directly, so whatever holds of the few functions of the service holds of every session.
-/

namespace BanBoard.Service

open BanBoard.Client
open BanBoard.Log (WriteFate)
open BanBoard.Time (Instant)

variable {σ : Type}

/-- What may be asked of a service, directly or over HTTP. -/
inductive Call where
  | status (now : Instant)
  | jail (name : List Char) (now : Instant)
  | apply (action : Action) (name ip : List Char) (now : Instant) (fate : WriteFate)
  | health
  | http (site : Option Http.Site) (request : Http.Request) (now : Instant) (fate : WriteFate)

def Call.run (service : Service σ) (state : State σ) : Call → State σ
  | .status now => (service.statusAt state now).2
  | .jail name now => (service.jail state name now).2
  | .apply action name ip now fate => (service.apply state action name ip now fate).2
  | .health => (service.isReachable state).2
  | .http site request now fate => (Http.handle service site state request now fate).2

def runCalls (service : Service σ) (calls : List Call) (state : State σ) : State σ :=
  calls.foldl (Call.run service) state

/-- Whether a state comes after another by at most one function of the service. -/
inductive Step (service : Service σ) (state : State σ) : State σ → Prop
  | none : Step service state state
  | status (now : Instant) : Step service state (service.statusAt state now).2
  | jail (name : List Char) (now : Instant) : Step service state (service.jail state name now).2
  | apply (action : Action) (name ip : List Char) (now : Instant) (fate : WriteFate) :
      Step service state (service.apply state action name ip now fate).2
  | health : Step service state (service.isReachable state).2

theorem step_respondAction (service : Service σ) (state : State σ) (action : Action)
    (name ip : List Char) (now : Instant) (fate : WriteFate) :
    Step service state (Http.respondAction service state action name ip now fate).2 := by
  rw [(respondAction_eq rfl).2]
  exact .apply action name ip now fate

theorem step_answer (service : Service σ) (state : State σ) (route : Http.Route)
    (query : Option (List Char)) (now : Instant) (fate : WriteFate) :
    Step service state (Http.answer service state route query now fate).2 := by
  cases route with
  | status => exact .status now
  | jail name =>
      rw [Http.answer]
      split
      · exact .none
      · exact .jail _ now
  | action action name ip =>
      rw [Http.answer]
      split
      · exact .none
      · exact .none
      · exact step_respondAction service state action _ _ now fate
  | log => exact .none
  | mode => exact .none
  | health => exact .health

/-- Every request is a step, whether or not it is for a route. -/
theorem step_handle (service : Service σ) (site : Option Http.Site) (state : State σ)
    (request : Http.Request) (now : Instant) (fate : WriteFate) :
    Step service state (Http.handle service site state request now fate).2 := by
  rw [Http.handle]
  dsimp only
  split
  · exact .none
  · rename_i route _
    -- A method that fits reaches the route, also when its body is left out, and any other does nothing.
    have hAnswer := step_answer service state route (Http.splitTarget request.target).2 now fate
    split
    · split
      · exact hAnswer
      · exact .none
    · split
      · exact hAnswer
      · split
        · exact hAnswer
        · exact .none

theorem Call.step_run (service : Service σ) (state : State σ) (call : Call) :
    Step service state (call.run service state) := by
  cases call with
  | status now => exact .status now
  | jail name now => exact .jail name now
  | apply action name ip now fate => exact .apply action name ip now fate
  | health => exact .health
  | http site request now fate => exact step_handle service site state request now fate

/-- A daemon with somebody who writes down every command that its client is given. -/
def overheard (daemon : Daemon σ) : Daemon (σ × List Words) := fun (state, heard) words =>
  let (reply, state) := daemon state words
  (reply, (state, heard ++ [words]))

end BanBoard.Service
