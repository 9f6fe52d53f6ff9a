import BanBoard.Proofs.Service.Actions

/-!
What an action costs and leaves. An action that is not dispatched leaves no trace. One that is asks the
daemon once and makes one append, the entry and the response tell the same story, and the state of the
log has no say in that story, unless it has no number left for the entry.
-/

namespace BanBoard.Service

open BanBoard.Client
open BanBoard.Log (Attempt Entry WriteFate)
open BanBoard.Net (Address)
open BanBoard.Time (Instant)

variable {σ : Type}

/-- Whether the client's program ran to its end with the code zero. -/
def ExitedZero (reply : Reply) : Prop := ∃ output, reply = .ok output ∧ output.code = some 0

/-- A reply counts as a success just when the program ended with the code zero. -/
theorem isOk_result_iff {reply : Reply} : (Client.result reply).isOk = true ↔ ExitedZero reply := by
  cases reply with
  | error e => simp [Client.result, ExitedZero, Except.isOk, Except.toBool]
  | ok output =>
      by_cases hCode : output.code = some 0 <;>
        simp [Client.result, ExitedZero, Output.success, Except.isOk, Except.toBool, hCode]

section Dispatch

variable (service : Service σ) {state other : State σ} (action : Action) (jail ip : List Char)
  (now : Instant) (fate : WriteFate)

end Dispatch

/-- Without a dispatch the answer does not depend on the state, which stays as it was. -/
theorem exists_apply_eq (service : Service σ) (action : Action) {jail ip : List Char}
    (h : isJailName jail = false ∨ (∀ address, checkAddress ip ≠ .ok address) ∨ service.mode = .demo) :
    ∃ result, ∀ state now fate, service.apply state action jail ip now fate = (result, state) := by
  by_cases hValid : isJailName jail = true ∧ ∃ address, checkAddress ip = .ok address
  · obtain ⟨hName, address, hAddress⟩ := hValid
    rcases h with hBad | hBad | hDemo
    · rw [hName] at hBad
      exact Bool.noConfusion hBad
    · exact (hBad address hAddress).elim
    · exact ⟨_, fun state now fate => apply_demo hDemo state action hName hAddress now fate⟩
  · obtain ⟨e, hApply⟩ := exists_apply_invalid service action hValid
    exact ⟨_, hApply⟩

end BanBoard.Service
