import BanBoard.Http.Routes
import BanBoard.Proofs.Log.Query

/-!
The log as it is asked for. Whatever stands in the file, as long as it is a text, every question has an
answer, and asking changes neither the file nor anything else.
-/

namespace BanBoard.Http

open BanBoard.Log (Attempt Entry Query)
open BanBoard.Service (State)
open BanBoard.Text
open BanBoard.Time (Instant)

/-- Whether a request asks for the log, by whatever method and with whatever parameters. -/
def Request.IsForLog (request : Request) : Prop :=
  Route.ofPath? (splitTarget request.target).1 = some .log

theorem state_handle_of_isForLog {σ : Type} (service : Service σ) (site : Option Site) (state : State σ)
    {request : Request} (h : request.IsForLog) (now : Instant) (fate : Log.WriteFate) :
    (handle service site state request now fate).2 = state := by
  have hRoute : Route.ofPath? (splitTarget request.target).1 = some .log := h
  simp only [handle, hRoute, Route.isAction, answer, Bool.false_eq_true, if_false]
  split_ifs <;> rfl

/-- Entries may stand in a file in any order, between lines that are none, and may share numbers and
times. An answer is a window on those that the query selects, and a request for the log leaves
everything as it is. -/
theorem logAnswer_isWindow {σ : Type} {state : State σ} {text : List Char}
    (hFile : state.slot = .file (encodeUtf8 text)) :
    (∀ query : Query, ∃ answer, Service.actionLog state query = .ok answer ∧
      Query.IsWindow query.limit (query.selectedOn text) answer) ∧
    ∀ (service : Service σ) (site : Option Site) (request : Request) (now : Instant)
      (fate : Log.WriteFate), request.IsForLog →
      (handle service site state request now fate).2 = state := by
  constructor
  · intro query
    refine ⟨_, ?_, query.isWindow_answer text⟩
    rw [Service.actionLog, hFile, Log.Store.query_file]
    rfl
  · exact fun service site request now fate hLog =>
      state_handle_of_isForLog service site state hLog now fate

/-- The file is not in order, both of its entries have one number, and carriage returns, a line that is
no JSON and a blank one stand between them. -/
theorem logAnswer_isWindow_outOfOrder :
    let ban := Attempt.success .ban "sshd".toList "192.0.2.1".toList
    let late : Entry := ⟨7, ⟨1714525323, 0⟩, ban⟩
    let early : Entry := ⟨7, ⟨1714525200, 0⟩, ban⟩
    let lines := [late.encode ++ ['\r'], "not json".toList, " ".toList, early.encode]
    let text := ['\n'].intercalate lines
    let query : Query := ⟨none, some 1, some "sshd".toList, some .ban⟩
    let state : State Unit := ⟨(), [], ⟨[], ⟨1, none⟩⟩, .file (encodeUtf8 text)⟩
    query.selectedOn text = [late, early] ∧
    (∃ answer, Service.actionLog state query = .ok answer ∧
      Query.IsWindow (some 1) [late, early] answer) ∧
    ∀ (service : Service Unit) (now : Instant) (fate : Log.WriteFate),
      (handle service none state ⟨"GET", "/api/log?limit=1".toList⟩ now fate).2 = state := by
  intro ban late early lines text query state
  have hPlain : ∀ line ∈ lines, '\n' ∉ line := by
    simp [lines, (Log.isLine_encode late).1, (Log.isLine_encode early).1]
  have hLines : text.splitOn '\n' = lines :=
    List.splitOn_intercalate '\n' hPlain (List.cons_ne_nil _ _)
  have hEntries : lines.filterMap Entry.decode? = [late, early] := by
    have hJunk : Entry.decode? "not json".toList = none ∧ Entry.decode? " ".toList = none := by
      decide +kernel
    have hLate : Entry.decode? (late.encode ++ ['\r']) = some late := by
      rw [Entry.decode?_concat rfl, Entry.decode?_encode (by decide)]
    have hEarly : Entry.decode? early.encode = some early := Entry.decode?_encode (by decide)
    rw [List.filterMap_cons_some hLate, List.filterMap_cons_none hJunk.1,
      List.filterMap_cons_none hJunk.2, List.filterMap_cons_some hEarly, List.filterMap_nil]
  have hSelected : query.selectedOn text = [late, early] := by
    rw [Query.selectedOn, hLines, hEntries]
    decide
  have hFile : state.slot = .file (encodeUtf8 text) := rfl
  obtain ⟨hAnswer, hState⟩ := logAnswer_isWindow hFile
  exact ⟨hSelected, hSelected ▸ hAnswer query,
    fun service now fate => hState service none _ now fate (by unfold Request.IsForLog; decide)⟩

end BanBoard.Http
