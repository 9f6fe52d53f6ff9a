import BanBoard.Proofs.Http.Routes
import BanBoard.Proofs.Log.Order
import BanBoard.Proofs.Service.Actions
import BanBoard.Proofs.Service.Jails
import Mathlib.Data.List.Forall2

/-!
Whole sessions against a faithful daemon. Bans and unbans come with any words in any order, and the
answers, the jails that are shown and the log all agree with what the daemon did. A session so long that
the numbers of the log run out goes on without its log, and tells so.
-/

namespace BanBoard.Service

open BanBoard.Client
open BanBoard.Log (Entry entriesOf fileOf)
open BanBoard.Net (Address)
open BanBoard.Time (Instant Zone)

/-- A request for an action, with the reading of the clock at which it is logged. -/
structure ActionRequest where
  action : Action
  jail : List Char
  ip : List Char
  now : Instant

namespace ActionRequest

/-- Whether the words of a request are good. -/
def IsValid (request : ActionRequest) : Prop :=
  isJailName request.jail = true ∧ ∃ address, checkAddress request.ip = .ok address

/-- Whether a daemon with given jails carries a request out. -/
def IsGranted (jails : Jails) (request : ActionRequest) : Prop :=
  isJailName request.jail = true ∧ ∃ address, checkAddress request.ip = .ok address ∧
    ∃ ips, jails.ips? request.jail = some ips ∧ (request.action = .ban ∨ address.write ∈ ips)

end ActionRequest

/-- A request, the jails of the daemon when it came, and the status of its response. -/
structure Exchange where
  request : ActionRequest
  jails : Jails
  status : Nat

namespace Exchange

/-- The status says what became of the request. -/
def IsCorrect (exchange : Exchange) : Prop :=
  (exchange.status = 400 ↔ ¬exchange.request.IsValid) ∧
    (exchange.status = 200 ↔ exchange.request.IsGranted exchange.jails) ∧
    (exchange.status = 400 ∨ exchange.status = 200 ∨ exchange.status = 502)

/-- The request was good, but there was no number left to log it with. -/
def IsAbandoned (exchange : Exchange) : Prop :=
  exchange.request.IsValid ∧ exchange.status = 500

/-- Whether the log has an entry for an exchange. -/
def WasLogged (exchange : Exchange) : Prop := exchange.status = 200 ∨ exchange.status = 502

instance : DecidablePred WasLogged := fun _ => inferInstanceAs (Decidable (_ ∨ _))

/-- A correct exchange is logged unless the request was refused. -/
theorem IsCorrect.wasLogged_iff {exchange : Exchange} (h : exchange.IsCorrect) :
    exchange.WasLogged ↔ exchange.status ≠ 400 := by
  obtain ⟨-, -, hStatus⟩ := h
  rw [WasLogged]
  omega

/-- The entry records the request, its address in canonical text, and how it ended. -/
def IsLoggedAs (exchange : Exchange) (entry : Entry) : Prop :=
  entry.attempt.action = exchange.request.action ∧ entry.attempt.jail = exchange.request.jail ∧
    (∃ address, checkAddress exchange.request.ip = .ok address ∧
      entry.attempt.ip = address.write) ∧
    (entry.attempt.outcome = .success ↔ exchange.status = 200)

end Exchange

/-- Answer requests one after the other, while every write to the log succeeds. -/
def serve (service : Service Jails) (state : State Jails) :
    List ActionRequest → List Exchange × State Jails
  | [] => ([], state)
  | request :: requests =>
    let (response, next) := Http.respondAction service state request.action request.jail request.ip
      request.now .succeeds
    let (exchanges, last) := serve service next requests
    (⟨request, state.daemon, response.status⟩ :: exchanges, last)

/-- The invariant of a session that logged some entries. They are all that the file holds, they are
numbered from one on, and the daemon has kept its jails valid. -/
structure Sound (entries : List Entry) (state : State Jails) : Prop where
  valid : state.daemon.Valid
  slot_eq : state.slot = .file (fileOf entries)
  wellFormed : ∀ entry ∈ entries, entry.timestamp.WellFormed
  ids_eq : entries.map (fun entry => entry.id.toNat) = List.range' 1 entries.length
  nextId_eq : state.log.cursor.nextId.toNat = entries.length + 1
  lastTimestamp : ∀ last ∈ state.log.cursor.lastTimestamp, last.WellFormed

variable {seed : Option UInt64} {zone : Zone} {entries : List Entry} {state : State Jails}

/-- The file holds the entries of a sound state. -/
theorem Sound.holds (h : Sound entries state) : state.slot.Holds entries := by
  rw [h.slot_eq]
  exact Log.Slot.holds_fileOf entries

/-- An action on a canonical address keeps the invariant with its entry. -/
theorem Sound.after (h : Sound entries state) (action : Action) (jail : List Char) (address : Address)
    {now : Instant} (hNow : now.WellFormed) {spent : Log.Store}
    (hSpends : state.log.Spends
      ((faithfully seed zone).entryFor state action jail address.write now) spent) :
    Sound (entries ++ [(faithfully seed zone).entryFor state action jail address.write now])
      ((faithfully seed zone).after state action jail address.write now entries spent) := by
  have hTime : ((faithfully seed zone).entryFor state action jail address.write now).timestamp.WellFormed :=
    Log.Store.wellFormed_timestamp_stamp _ h.lastTimestamp hNow
  constructor
  · rw [Service.after, daemon_apply]
    exact h.valid.act action jail address
  · rfl
  · rw [List.forall_mem_append, List.forall_mem_singleton]
    exact ⟨h.wellFormed, hTime⟩
  · rw [List.length_append, List.length_singleton, List.range'_concat, List.map_append, h.ids_eq,
      List.map_singleton, Nat.one_mul, Nat.add_comm 1, ← h.nextId_eq]
    rfl
  · rw [List.length_append, List.length_singleton, ← h.nextId_eq]
    exact hSpends.nextId_eq.symm
  · intro last hLast
    rw [Service.after, Option.mem_def, hSpends.lastTimestamp_eq] at hLast
    obtain rfl := Option.some.inj hLast
    exact hTime

/-- With good words, a request is granted exactly if the daemon carries it out. -/
theorem ActionRequest.isGranted_iff {request : ActionRequest} (hName : isJailName request.jail = true)
    {address : Address} (hAddress : checkAddress request.ip = .ok address) (jails : Jails) :
    request.IsGranted jails ↔
      (Client.result (Faithful.act jails request.action request.jail address.write).1).isOk = true := by
  rw [isOk_result_act]
  constructor
  · rintro ⟨_, other, hOther, hListed⟩
    obtain rfl : address = other := Except.ok.inj (hAddress.symm.trans hOther)
    exact hListed
  · exact fun hListed => ⟨hName, address, hAddress, hListed⟩

/-- The invariant after some exchanges that started with given entries in the log. Every exchange is
correct, unless it was abandoned because the log was full of numbers, and the others that were not refused
have been logged in order. -/
def Continues (entries : List Entry) (exchanges : List Exchange) (state : State Jails) : Prop :=
  ∃ logged, Sound (entries ++ logged) state ∧
    (∀ exchange ∈ exchanges, exchange.IsCorrect ∨
      exchange.IsAbandoned ∧ 2 ^ 64 ≤ (entries ++ logged).length + 2) ∧
    List.Forall₂ Exchange.IsLoggedAs (exchanges.filter (·.WasLogged)) logged

section Respond

variable {request : ActionRequest} {response : Http.Response} {next : State Jails}

/-- A refused request leaves everything as it was. -/
theorem Sound.respond_invalid (h : Sound entries state) (hInvalid : ¬request.IsValid)
    (hNext : Http.respondAction (faithfully seed zone) state request.action request.jail request.ip
      request.now .succeeds = (response, next)) :
    Continues entries [⟨request, state.daemon, response.status⟩] next := by
  obtain ⟨hStatus, hState⟩ := respondAction_invalid (faithfully seed zone) state request.action
    request.now .succeeds hInvalid
  rw [hNext] at hStatus hState
  obtain rfl : next = state := hState
  have hStatus : response.status = 400 := hStatus
  have hCorrect : Exchange.IsCorrect ⟨request, next.daemon, response.status⟩ := by
    refine ⟨iff_of_true hStatus hInvalid, iff_of_false (by simp [hStatus]) ?_, Or.inl hStatus⟩
    rintro ⟨hName, address, hAddress, _⟩
    exact hInvalid ⟨hName, address, hAddress⟩
  refine ⟨[], by rwa [List.append_nil], List.forall_mem_singleton.mpr (.inl hCorrect), ?_⟩
  rw [List.filter_cons_of_neg (by simp [Exchange.WasLogged, hStatus]), List.filter_nil]
  exact List.Forall₂.nil

/-- A request for which there is no number left leaves the log as it was. -/
theorem Sound.respond_exhausted (h : Sound entries state) (hExhausted : state.log.IsExhausted)
    (hValid : request.IsValid)
    (hNext : Http.respondAction (faithfully seed zone) state request.action request.jail request.ip
      request.now .succeeds = (response, next)) :
    Continues entries [⟨request, state.daemon, response.status⟩] next := by
  obtain ⟨hName, address, hAddress⟩ := id hValid
  have hLive : (faithfully seed zone).mode = .live := rfl
  obtain ⟨hStatus, hAfter⟩ := respondAction_exhausted hLive hExhausted hName hAddress .succeeds
  rw [hNext] at hStatus hAfter
  rw [daemon_apply] at hAfter
  obtain rfl := hAfter
  have hStatus : response.status = 500 := hStatus
  have hFull : 2 ^ 64 ≤ (entries ++ []).length + 2 := by
    rw [Log.Store.IsExhausted, h.nextId_eq] at hExhausted
    rw [List.append_nil]
    exact Nat.le_of_eq hExhausted.symm
  refine ⟨[], ?_, List.forall_mem_singleton.mpr (.inr ⟨⟨hValid, hStatus⟩, hFull⟩), ?_⟩
  · rw [List.append_nil]
    exact { h with valid := h.valid.act request.action request.jail address }
  · rw [List.filter_cons_of_neg (by simp [Exchange.WasLogged, hStatus]), List.filter_nil]
    exact List.Forall₂.nil

/-- Any other request is answered as the daemon decides, and its entry says so. -/
theorem Sound.respond_valid (h : Sound entries state) (hRoom : ¬state.log.IsExhausted)
    (hNow : request.now.WellFormed) (hValid : request.IsValid)
    (hNext : Http.respondAction (faithfully seed zone) state request.action request.jail request.ip
      request.now .succeeds = (response, next)) :
    Continues entries [⟨request, state.daemon, response.status⟩] next := by
  obtain ⟨hName, address, hAddress⟩ := id hValid
  have hLive : (faithfully seed zone).mode = .live := rfl
  obtain ⟨spent, -, hSpends⟩ := Log.Store.exists_spends hRoom
    ((faithfully seed zone).entryFor state request.action request.jail address.write request.now)
  obtain ⟨hStatus, hState⟩ := respondAction_valid hLive h.holds hName hAddress hSpends
  rw [hNext, daemon_apply] at hStatus
  rw [hNext] at hState
  have hGranted := ActionRequest.isGranted_iff hName hAddress state.daemon
  have hSound := h.after request.action request.jail address hNow hSpends
  rw [← hState, entryFor, daemon_apply] at hSound
  -- The verdict of the daemon decides the status, the entry and whether the request was granted, and
  -- nothing else about the daemon matters from here on.
  generalize Client.result (Faithful.act state.daemon request.action request.jail address.write).1 =
    result at hStatus hGranted hSound
  have hStatus : response.status = if result.isOk then 200 else 502 := hStatus
  have hAccepted : response.status = 200 ↔ result.isOk = true := by
    rw [hStatus]
    cases result <;> simp [Except.isOk, Except.toBool]
  have hBad : response.status = 200 ∨ response.status = 502 := by
    rw [hStatus]
    cases result <;> simp [Except.isOk, Except.toBool]
  have hSent : response.status ≠ 400 := by omega
  have hLogged : Exchange.WasLogged ⟨request, state.daemon, response.status⟩ := hBad
  have hCorrect : Exchange.IsCorrect ⟨request, state.daemon, response.status⟩ :=
    ⟨iff_of_false hSent (not_not_intro hValid), hAccepted.trans hGranted.symm, Or.inr hBad⟩
  obtain ⟨hAction, hJail, hIp⟩ := attemptOf_words request.action request.jail address.write result
  refine ⟨_, hSound, List.forall_mem_singleton.mpr (.inl hCorrect), ?_⟩
  rw [List.filter_cons_of_pos (by simpa using hLogged), List.filter_nil]
  exact List.Forall₂.cons ⟨hAction, hJail, ⟨address, hAddress, hIp⟩,
    (attemptOf_outcome _ _ _ result).trans hAccepted.symm⟩ List.Forall₂.nil

end Respond

/-- Whole sessions keep the invariant. -/
theorem Sound.serve (h : Sound entries state) (seed : Option UInt64) (zone : Zone)
    {requests : List ActionRequest} (hNow : ∀ request ∈ requests, request.now.WellFormed) :
    Continues entries (serve (faithfully seed zone) state requests).1
      (serve (faithfully seed zone) state requests).2 := by
  induction requests generalizing entries state with
  | nil => exact ⟨[], by rwa [List.append_nil], List.forall_mem_nil _, List.Forall₂.nil⟩
  | cons request requests ih =>
      obtain ⟨hHead, hTail⟩ := List.forall_mem_cons.mp hNow
      cases hNext : Http.respondAction (faithfully seed zone) state request.action request.jail
          request.ip request.now .succeeds with
      | mk response next =>
          have hFirst : Continues entries [⟨request, state.daemon, response.status⟩] next := by
            by_cases hValid : request.IsValid
            · by_cases hExhausted : state.log.IsExhausted
              · exact h.respond_exhausted hExhausted hValid hNext
              · exact h.respond_valid hExhausted hHead hValid hNext
            · exact h.respond_invalid hValid hNext
          obtain ⟨logged, hSound, hCorrect, hLogged⟩ := hFirst
          obtain ⟨later, hLast, hRest, hLater⟩ := ih hSound hTail
          simp only [Service.serve, hNext]
          -- What the later requests log comes behind the entry of this one, if it has one.
          rw [List.append_assoc] at hLast hRest
          refine ⟨logged ++ later, hLast, List.forall_mem_cons.mpr ⟨?_, hRest⟩, ?_⟩
          · refine (List.forall_mem_singleton.mp hCorrect).imp_right fun ⟨hAbandoned, hFull⟩ => ?_
            refine ⟨hAbandoned, Nat.le_trans hFull ?_⟩
            simp only [List.length_append]
            omega
          · rw [← List.singleton_append, List.filter_append]
            exact List.rel_append hLogged hLater

theorem map_request_serve (service : Service Jails) (state : State Jails)
    (requests : List ActionRequest) :
    (serve service state requests).1.map Exchange.request = requests := by
  induction requests generalizing state with
  | nil => rfl
  | cons request requests ih => simp [serve, ih]

/-- A log that was just opened on an empty file is sound. -/
theorem sound_opened {jails : Jails} (h : jails.Valid) (path : List Char) :
    Sound [] ⟨jails, [], ⟨path, ⟨1, none⟩⟩, .file (fileOf [])⟩ where
  valid := h
  slot_eq := rfl
  wellFormed := List.forall_mem_nil _
  ids_eq := rfl
  nextId_eq := rfl
  lastTimestamp := fun _ hNone => nomatch hNone

/-- As long as there are not more requests than numbers, nothing is abandoned. -/
theorem Continues.isCorrect {exchanges : List Exchange} (h : Continues [] exchanges state)
    (hLength : exchanges.length < 2 ^ 64 - 1) : ∀ exchange ∈ exchanges, exchange.IsCorrect := by
  obtain ⟨logged, -, hCorrect, hLogged⟩ := h
  intro exchange hMem
  refine (hCorrect exchange hMem).resolve_right fun ⟨⟨_, hStatus⟩, hFull⟩ => ?_
  have hMissing : (exchanges.filter (·.WasLogged)).length < exchanges.length :=
    List.length_filter_lt_length_iff_exists.mpr
      ⟨exchange, hMem, by simp [Exchange.WasLogged, hStatus]⟩
  rw [hLogged.length_eq] at hMissing
  rw [List.nil_append] at hFull
  omega

/-- A session that starts with an empty log agrees with its daemon from end to end. Every request gets
the status that it deserves, every jail is shown with the daemon's addresses in the daemon's order, and
the log has one entry for each request that was not refused, numbered from one on. Only where there are more
requests than numbers, requests are abandoned, which are not logged. -/
theorem session_agrees {jails : Jails} (hJails : jails.Valid) {requests : List ActionRequest}
    (hNow : ∀ request ∈ requests, request.now.WellFormed) {path : List Char} {before slot : Log.Slot}
    {store : Log.Store} (hEmpty : before.Holds [])
    (hOpen : Log.Store.open_ path before = (.ok store, slot)) (seed : Option UInt64) (zone : Zone) :
    ∃ exchanges final,
      serve (faithfully seed zone) ⟨jails, [], store, slot⟩ requests = (exchanges, final) ∧
      exchanges.map Exchange.request = requests ∧
      (requests.length < 2 ^ 64 - 1 → ∀ exchange ∈ exchanges, exchange.IsCorrect) ∧
      (∀ exchange ∈ exchanges, exchange.IsCorrect ∨ exchange.IsAbandoned) ∧
      (∀ name ips, (name, ips) ∈ final.daemon → ∀ site now fate, ∃ (jail : Jail) (next : State Jails),
        Http.handle (faithfully seed zone) site final ⟨"GET", Http.jailPath name⟩ now fate =
          (.json 200 jail.toValue, next) ∧
        jail.name = name ∧ jail.ips = ips ∧ jail.currentlyBanned = ips.length) ∧
      (∃ text, final.slot.text = .ok text ∧
        (entriesOf text).map (fun entry => entry.id.toNat) = List.range' 1 (entriesOf text).length ∧
        (requests.length < 2 ^ 64 - 1 →
          List.Forall₂ Exchange.IsLoggedAs (exchanges.filter (·.status ≠ 400)) (entriesOf text)) ∧
        List.Forall₂ Exchange.IsLoggedAs (exchanges.filter (·.WasLogged)) (entriesOf text)) := by
  have hCursor : Log.Cursor.behind? [] = some ⟨1, none⟩ := rfl
  rw [Log.Store.open_eq hEmpty (List.forall_mem_nil _) hCursor] at hOpen
  obtain ⟨hStore, rfl⟩ := Prod.mk.inj hOpen
  obtain rfl := Except.ok.inj hStore
  have hServed := (sound_opened hJails path).serve seed zone hNow
  have hRequests := map_request_serve (faithfully seed zone)
    ⟨jails, [], ⟨path, ⟨1, none⟩⟩, .file (fileOf [])⟩ requests
  have hLength := congrArg List.length hRequests
  rw [List.length_map] at hLength
  have hAllCorrect (hFew : requests.length < 2 ^ 64 - 1) := hServed.isCorrect (hLength ▸ hFew)
  obtain ⟨logged, hSound, hCorrect, hLogged⟩ := hServed
  rw [List.nil_append] at hSound
  refine ⟨_, _, rfl, hRequests, hAllCorrect, fun exchange hMem => (hCorrect exchange hMem).imp_right And.left,
    ?_, ?_⟩
  · intro name ips hMem site now fate
    obtain ⟨jail, next, hJail, hName, hIps, _⟩ := jail_ok seed zone hSound.valid hMem now
    refine ⟨jail, next, ?_, hName, hIps, ?_⟩
    · rw [Http.handle_jail _ _ _ (hSound.valid.isJailName _ hMem), hJail]
      rfl
    · rw [← hIps, Jail.length_ips]
  · obtain ⟨text, hText, hEntries⟩ := Log.exists_text_fileOf hSound.wellFormed
    rw [← hEntries] at hSound hLogged
    refine ⟨text, ?_, hSound.ids_eq, fun hFew => ?_, hLogged⟩
    · rw [hSound.slot_eq, hEntries, hText]
    · have hSame : ∀ exchange ∈ (serve (faithfully seed zone)
          ⟨jails, [], ⟨path, ⟨1, none⟩⟩, .file (fileOf [])⟩ requests).1,
          decide exchange.WasLogged = decide (exchange.status ≠ 400) := fun exchange hMem =>
        decide_eq_decide.mpr (hAllCorrect hFew exchange hMem).wasLogged_iff
      rwa [List.filter_congr hSame] at hLogged

/-- One jail with one address. A second address is banned in another spelling, and then an address that
is not banned, an unknown jail and a word that is no address follow. -/
theorem session_agrees_otherSpelling :
    let jails : Jails := [("sshd".toList, ["192.0.2.7".toList])]
    let requests : List ActionRequest :=
      [⟨.ban, "sshd".toList, " 2001:0DB8::1".toList, ⟨1714525323, 0⟩⟩,
        ⟨.unban, "sshd".toList, "192.0.2.8".toList, ⟨1714525324, 0⟩⟩,
        ⟨.ban, "nginx".toList, "192.0.2.8".toList, ⟨1714525325, 0⟩⟩,
        ⟨.ban, "sshd".toList, "192.0.2.08".toList, ⟨1714525326, 0⟩⟩]
    let path := "actions.jsonl".toList
    let store : Log.Store := ⟨path, ⟨1, none⟩⟩
    let service := faithfully none .utc
    jails.Valid ∧ (∀ request ∈ requests, request.now.WellFormed) ∧
    Log.Slot.Holds [] .missing ∧
    Log.Store.open_ path .missing = (.ok store, .file (fileOf [])) ∧
    requests.length < 2 ^ 64 - 1 ∧
    ∃ exchanges final,
      serve service ⟨jails, [], store, .file (fileOf [])⟩ requests = (exchanges, final) ∧
      exchanges.map Exchange.request = requests ∧
      (∀ exchange ∈ exchanges, exchange.IsCorrect) := by
  intro jails requests path store service
  have hAddress : Address.write (.v4 192 0 2 7) = "192.0.2.7".toList := by decide
  have hJails : jails.Valid := by
    constructor
    · decide
    · decide
    · decide
    · simp only [jails, List.forall_mem_singleton]
      exact ⟨.v4 192 0 2 7, hAddress⟩
  have hNow : ∀ request ∈ requests, request.now.WellFormed := by decide
  have hFew : requests.length < 2 ^ 64 - 1 := by decide
  have hEmpty : Log.Slot.Holds [] .missing := rfl
  have hCursor : Log.Cursor.behind? [] = some store.cursor := rfl
  have hOpen := Log.Store.open_eq hEmpty (List.forall_mem_nil _) hCursor path
  obtain ⟨exchanges, final, hServe, hRequests, hCorrect, _⟩ :=
    session_agrees hJails hNow hEmpty hOpen none .utc
  exact ⟨hJails, hNow, hEmpty, hOpen, hFew, exchanges, final, hServe, hRequests, hCorrect hFew⟩

end BanBoard.Service
