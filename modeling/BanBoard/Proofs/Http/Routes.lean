import BanBoard.Http.Routes
import BanBoard.Proofs.Jail.Basic
import BanBoard.Proofs.Text.Decimal
import BanBoard.Proofs.Text.Split
import BanBoard.Proofs.Text.Utf8

/-!
The paths of jails and of actions. A jail name needs no escapes, so the path that ends with it asks for
that jail; the words of an action may be escaped and are taken as they are meant.
-/

namespace BanBoard.Http

open BanBoard.Service (State)
open BanBoard.Text
open BanBoard.Time (Instant)

/-- A text without percent signs has no escapes. -/
theorem unescape_of_notMem {s : List Char} (h : '%' ∉ s) : unescape s = encodeUtf8 s := by
  induction s with
  | nil => rfl
  | cons c s ih =>
      obtain ⟨hHead, hTail⟩ := List.ne_and_not_mem_of_not_mem_cons h
      rw [unescape, ih hTail]
      · exact (@List.flatMap_append _ _ [c] s _).symm
      · intro a b rest hPercent
        exact (hHead hPercent.symm).elim

/-- A target without marks is a path and has no query. -/
theorem splitTarget_of_notMem {target : List Char} (hFragment : '#' ∉ target)
    (hQuery : '?' ∉ target) : splitTarget target = (target, none) := by
  have hAll : ∀ c ∈ target, decide (c ≠ '#') = true := by
    intro c hMem
    exact decide_eq_true fun hEq => hFragment (hEq ▸ hMem)
  have hTake := takeWhile_append hAll (stopsBefore_nil _)
  rw [List.append_nil] at hTake
  simp only [splitTarget, hTake, splitOnce_eq_none hQuery]

theorem segments_slash {piece : List Char} (h : '/' ∉ piece) (rest : List Char) :
    segments ('/' :: (piece ++ '/' :: rest)) = piece :: segments ('/' :: rest) :=
  splitWhere_append_cons (fun _ hMem => decide_eq_false (ne_of_mem_of_not_mem hMem h)) (by decide) rest

theorem segments_last {piece : List Char} (h : '/' ∉ piece) : segments ('/' :: piece) = [piece] :=
  splitWhere_of_forall fun _ hMem => decide_eq_false (ne_of_mem_of_not_mem hMem h)

def jailPath (name : List Char) : List Char := "/api/jail/".toList ++ name

/-- The path of a jail has the two fixed segments in front. -/
theorem segments_jailPath (path : List Char) :
    segments (jailPath path) = "api".toList :: "jail".toList :: segments ('/' :: path) := by
  have hPath : jailPath path = '/' :: ("api".toList ++ '/' :: ("jail".toList ++ '/' :: path)) := rfl
  rw [hPath, segments_slash (by decide), segments_slash (by decide)]

theorem ofPath?_jailPath {name : List Char} (h : isJailName name = true) :
    Route.ofPath? (jailPath name) = some (.jail name) := by
  have hSegments : segments (jailPath name) = ["api".toList, "jail".toList, name] := by
    rw [segments_jailPath, segments_last (notMem_of_isJailName h (by decide))]
  have hSome : (String.ofList name).isEmpty = false := by
    simpa using ne_nil_of_isJailName h
  rw [Route.ofPath?, hSegments]
  simp [hSome]

/-- The path of an action on an address in a jail. Both may be escaped. -/
def actionPath (action : Action) (rawName rawIp : List Char) : List Char :=
  jailPath (rawName ++ '/' :: (action.word.toList ++ '/' :: rawIp))

/-- The path of an action leads to it, with its words as they stand. -/
theorem ofPath?_actionPath {rawName rawIp : List Char} (hName : '/' ∉ rawName) (hIp : '/' ∉ rawIp)
    (hSome : rawIp ≠ []) (action : Action) :
    Route.ofPath? (actionPath action rawName rawIp) = some (.action action rawName rawIp) := by
  have hWord : '/' ∉ action.word.toList := by cases action <;> decide
  have hSegments : segments (actionPath action rawName rawIp) =
      ["api".toList, "jail".toList, rawName, action.word.toList, rawIp] := by
    rw [actionPath, segments_jailPath, segments_slash hName, segments_slash hWord, segments_last hIp]
  have hIpSome : (String.ofList rawIp).isEmpty = false := by
    simpa using hSome
  rw [Route.ofPath?, hSegments]
  cases action <;> simp [hIpSome, Action.word]

/-- A request for a jail is answered by the service. -/
theorem handle_jail {σ : Type} (service : Service σ) (site : Option Site) (state : State σ)
    {name : List Char} (h : isJailName name = true) (now : Instant) (fate : Log.WriteFate) :
    handle service site state ⟨"GET", jailPath name⟩ now fate =
      (respond Jail.toValue (service.jail state name now).1, (service.jail state name now).2) := by
  have hPrefix {c : Char} (hChar : isJailNameChar c = false) (hPath : c ∉ "/api/jail/".toList) :
      c ∉ jailPath name :=
    fun hMem => (List.mem_append.mp hMem).elim hPath (notMem_of_isJailName h hChar)
  have hTarget : splitTarget (jailPath name) = (jailPath name, none) :=
    splitTarget_of_notMem (hPrefix (by decide) (by decide)) (hPrefix (by decide) (by decide))
  have hName : decodeUtf8? (unescape name) = some name := by
    rw [unescape_of_notMem (notMem_of_isJailName h (by decide)), decodeUtf8?_encodeUtf8]
  simp only [handle, hTarget, ofPath?_jailPath h, Route.isAction, answer, hName]
  rfl

/-- Whether a request asks for an action on an address in a jail, both escaped in whatever way. -/
structure Request.AsksFor (request : Request) (action : Action) (name ip : List Char) : Prop where
  method : request.method = "POST"
  path : ∃ rawName rawIp, (splitTarget request.target).1 = actionPath action rawName rawIp ∧
    '/' ∉ rawName ∧ '/' ∉ rawIp ∧ rawIp ≠ [] ∧
    decodeUtf8? (unescape rawName) = some name ∧ decodeUtf8? (unescape rawIp) = some ip

/-- A request for an action is carried out by the service. -/
theorem handle_action {σ : Type} (service : Service σ) (site : Option Site) (state : State σ)
    {request : Request} {action : Action} {name ip : List Char} (h : request.AsksFor action name ip)
    (now : Instant) (fate : Log.WriteFate) :
    handle service site state request now fate =
      respondAction service state action name ip now fate := by
  obtain ⟨rawName, rawIp, hPath, hRawName, hRawIp, hSome, hName, hIp⟩ := h.path
  have hRoute : Route.ofPath? (splitTarget request.target).1 = some (.action action rawName rawIp) := by
    rw [hPath, ofPath?_actionPath hRawName hRawIp hSome]
  simp only [handle, hRoute, Route.isAction, h.method, answer, hName, hIp]
  rfl

end BanBoard.Http
