import BanBoard.Proofs.Http.LogAnswers
import BanBoard.Proofs.Jail.Name
import BanBoard.Proofs.Text.DecimalDigit
import BanBoard.Proofs.Time.Strict

/-!
The window on the log that a request asks for. What a parameter may say is written down apart from the
code that reads it: a parameter is bad when it is there, is more than blanks, and says nothing of the
kind. A good request gets the newest of the entries that it asks for, and two requests that differ in one
parameter get answers that can be compared.
-/

namespace BanBoard.Http

open BanBoard.Log (Attempt Entry Query entriesOf)
open BanBoard.Service (State)
open BanBoard.Text
open BanBoard.Time (Instant Stamp bind_eq_ok_iff)

/-- A time of the calendar in the form of RFC 3339. -/
def IsTime (text : List Char) (t : Instant) : Prop :=
  ∃ stamp : Stamp, stamp.IsValid ∧ stamp.Spells text ∧ stamp.instant = t

/-- A whole number from one to a thousand. -/
def IsLimit (text : List Char) (n : Nat) : Prop := 1 ≤ n ∧ IsNumeral 1000 text n

def IsJailName (text name : List Char) : Prop := text = name ∧ IsPlainName name

/-- The word for an action in any case. -/
def IsActionWord (text : List Char) (action : Action) : Prop := lowerAscii text = action.word.toList

/-- Nothing was sent, or nothing but blanks. -/
def IsMissing (value : Option (List Char)) : Prop := ∀ raw ∈ value, isBlankText raw = true

section Value

variable {α : Type}

/-- What a value says to someone who ignores the blanks around it. A missing value says nothing. -/
inductive Says (means : List Char → α → Prop) : Option (List Char) → Option α → Prop where
  | nothing {value : Option (List Char)} (hMissing : IsMissing value) : Says means value none
  | something {raw : List Char} {x : α} (hSome : isBlankText raw = false) (hMeans : means (trim raw) x) :
      Says means (some raw) (some x)

/-- More than blanks was sent, and it means nothing. -/
def IsBad (means : List Char → α → Prop) (value : Option (List Char)) : Prop :=
  ∃ raw ∈ value, isBlankText raw = false ∧ ∀ x, ¬means (trim raw) x

variable {means : List Char → α → Prop}

/-- A parameter is not bad just when it says something, if only nothing. -/
theorem not_isBad_iff {value : Option (List Char)} : ¬IsBad means value ↔ ∃ x, Says means value x := by
  constructor
  · intro hGood
    cases value with
    | none => exact ⟨none, .nothing (by simp [IsMissing])⟩
    | some raw =>
        cases hBlank : isBlankText raw with
        | true => exact ⟨none, .nothing (by simpa [IsMissing] using hBlank)⟩
        | false =>
            have hMeaning : ∃ x, means (trim raw) x := by
              by_contra hNone
              exact hGood ⟨raw, rfl, hBlank, not_exists.mp hNone⟩
            obtain ⟨x, hMeans⟩ := hMeaning
            exact ⟨some x, .something hBlank hMeans⟩
  · rintro ⟨x, hSays⟩ ⟨raw, hSent, hSome, hNone⟩
    cases hSays with
    | nothing hMissing => simp [hMissing raw hSent] at hSome
    | something _ hMeans => exact hNone _ (Option.some.inj hSent ▸ hMeans)

variable {read : List Char → Except (List Char) α}

/-- A parameter is read as what it says, if its reader knows what texts mean. -/
theorem optionally_eq_ok_iff (hRead : ∀ raw x, read raw = .ok x ↔ means (trim raw) x)
    {value : Option (List Char)} {x : Option α} :
    optionally value read = .ok x ↔ Says means value x := by
  unfold optionally
  constructor
  · intro h
    split at h
    · rename_i hNone
      obtain rfl := Except.ok.inj h
      exact .nothing (by simpa [present?, Option.filter_eq_none_iff, IsMissing] using hNone)
    · rename_i raw hSome
      obtain ⟨rfl, hBlank⟩ := Option.filter_eq_some_iff.mp hSome
      cases hResult : read raw with
      | error message => simp [hResult] at h
      | ok y =>
          rw [hResult] at h
          obtain rfl := Except.ok.inj h
          exact .something (by simpa using hBlank) ((hRead raw y).mp hResult)
  · intro h
    cases h with
    | nothing hMissing =>
        have hNone : present? value = none := by
          simpa [present?, Option.filter_eq_none_iff, IsMissing] using hMissing
        rw [hNone]
    | @something raw x hSome hMeans =>
        have hPresent : present? (some raw) = some raw := by simp [present?, hSome]
        rw [hPresent]
        simp only [(hRead raw x).mpr hMeans]

/-- Two steps fail with the error of the first that fails. -/
theorem bind_eq_error_iff {ε β : Type} {x : Except ε α} {f : α → Except ε β} {e : ε} :
    (x >>= f) = .error e ↔ x = .error e ∨ ∃ a, x = .ok a ∧ f a = .error e := by
  cases x with
  | error e => simp [bind, Except.bind]
  | ok a => simp [bind, Except.bind]

/-- A parameter that cannot be read is a validation error. -/
theorem optionally_error {value : Option (List Char)} {e : Service.Error}
    (h : optionally value read = .error e) : ∃ message, e = .validation message := by
  unfold optionally at h
  split at h
  · cases h
  · split at h
    · cases h
    · exact ⟨_, (Except.error.inj h).symm⟩

/-- A value says one thing, if its reader knows what texts mean. -/
theorem Says.unique (hRead : ∀ raw x, read raw = .ok x ↔ means (trim raw) x) {value : Option (List Char)}
    {x y : Option α} (hx : Says means value x) (hy : Says means value y) : x = y :=
  Except.ok.inj (((optionally_eq_ok_iff hRead).mpr hx).symm.trans ((optionally_eq_ok_iff hRead).mpr hy))

end Value

/-- The first instant is any time in the strict form. -/
theorem readSince_eq_ok_iff (raw : List Char) (t : Instant) :
    readSince raw = .ok t ↔ IsTime (trim raw) t := by
  unfold readSince IsTime
  rw [← Instant.parse_eq_ok_iff]
  cases Instant.parse (trim raw) with
  | error e => simp
  | ok t => simp

/-- The limit is a number from one to a thousand. -/
theorem readLimit_eq_ok_iff (raw : List Char) (n : Nat) :
    readLimit raw = .ok n ↔ IsLimit (trim raw) n := by
  have hBound : IsLimit (trim raw) n ↔
      readUnsigned 10 maxWord64 (trim raw) = .ok n ∧ 1 ≤ n ∧ n ≤ 1000 := by
    rw [readUnsigned_eq_ok_iff]
    constructor
    · rintro ⟨hLeast, digits, hText, hSome, hDigits, hValue, hMost⟩
      exact ⟨⟨digits, hText, hSome, hDigits, hValue, Nat.le_trans hMost (by decide)⟩, hLeast, hMost⟩
    · rintro ⟨⟨digits, hText, hSome, hDigits, hValue, -⟩, hLeast, hMost⟩
      exact ⟨hLeast, digits, hText, hSome, hDigits, hValue, hMost⟩
  rw [hBound, readLimit]
  cases readUnsigned 10 maxWord64 (trim raw) with
  | error e => simp
  | ok m => simp [maxLogLimit]; grind

theorem readJailName_eq_ok_iff (raw name : List Char) :
    readJailName raw = .ok name ↔ IsJailName (trim raw) name := by
  unfold readJailName IsJailName
  constructor
  · intro h
    split at h
    · rename_i hCheck
      obtain rfl := Except.ok.inj h
      exact ⟨rfl, isJailName_iff_isPlainName.mp (isJailName_iff.mpr hCheck)⟩
    · cases h
  · rintro ⟨rfl, hPlain⟩
    rw [isJailName_iff.mp (isJailName_iff_isPlainName.mpr hPlain)]

theorem ofWord?_eq_some_iff {text : List Char} {action : Action} :
    Action.ofWord? text = some action ↔ text = action.word.toList := by
  have hWords : Action.ban.word.toList ≠ Action.unban.word.toList := by decide
  unfold Action.ofWord?
  cases action with
  | ban => split <;> simp_all
  | unban => split <;> simp_all

/-- The action is given by its word, in any case of letters. -/
theorem parse_action_eq_ok_iff (raw : List Char) (action : Action) :
    Action.parse raw = .ok action ↔ IsActionWord (trim raw) action := by
  rw [IsActionWord, ← ofWord?_eq_some_iff, Action.parse]
  cases hWord : Action.ofWord? (lowerAscii (trim raw)) with
  | none => simp only [reduceCtorEq]
  | some found => simp only [Except.ok.injEq, Option.some.injEq]

namespace LogParams

/-- The question that some parameters ask, each of them missing or good. -/
structure Asks (params : LogParams) (query : Query) : Prop where
  since : Says IsTime params.since query.since
  limit : ∃ limit, Says IsLimit params.limit limit ∧ query.limit = some (limit.getD 100)
  jail : Says IsJailName params.jail query.jail
  action : Says IsActionWord params.action query.action

/-- One of the parameters is bad. -/
def IsBad (params : LogParams) : Prop :=
  Http.IsBad IsTime params.since ∨ Http.IsBad IsLimit params.limit ∨
    Http.IsBad IsJailName params.jail ∨ Http.IsBad IsActionWord params.action

def withoutBlanks (params : LogParams) : LogParams :=
  ⟨present? params.since, present? params.limit, present? params.jail, present? params.action⟩

variable {params : LogParams} {query : Query}

/-- The parameters are accepted just with the question that they ask. -/
theorem toQuery_eq_ok_iff : params.toQuery = .ok query ↔ params.Asks query := by
  simp only [toQuery, bind_eq_ok_iff, optionally_eq_ok_iff readSince_eq_ok_iff,
    optionally_eq_ok_iff readLimit_eq_ok_iff, optionally_eq_ok_iff readJailName_eq_ok_iff,
    optionally_eq_ok_iff parse_action_eq_ok_iff]
  constructor
  · rintro ⟨since, hSince, limit, hLimit, jail, hJail, action, hAction, hQuery⟩
    obtain rfl := Except.ok.inj hQuery
    exact ⟨hSince, ⟨limit, hLimit, rfl⟩, hJail, hAction⟩
  · rintro ⟨hSince, ⟨limit, hLimit, hSame⟩, hJail, hAction⟩
    refine ⟨query.since, hSince, limit, hLimit, query.jail, hJail, query.action, hAction, ?_⟩
    change Except.ok (⟨query.since, some (limit.getD 100), query.jail, query.action⟩ : Query) = .ok query
    rw [← hSame]

theorem not_isBad_iff : ¬params.IsBad ↔ ∃ query, params.Asks query := by
  simp only [IsBad, not_or, Http.not_isBad_iff]
  constructor
  · rintro ⟨⟨since, hSince⟩, ⟨limit, hLimit⟩, ⟨jail, hJail⟩, ⟨action, hAction⟩⟩
    exact ⟨⟨since, some (limit.getD 100), jail, action⟩, hSince, ⟨limit, hLimit, rfl⟩, hJail, hAction⟩
  · rintro ⟨query, hSince, ⟨limit, hLimit, -⟩, hJail, hAction⟩
    exact ⟨⟨_, hSince⟩, ⟨_, hLimit⟩, ⟨_, hJail⟩, ⟨_, hAction⟩⟩

/-- Parameters that are refused are a validation error. -/
theorem toQuery_error {e : Service.Error} (h : params.toQuery = .error e) :
    ∃ message, e = .validation message := by
  simp only [toQuery, bind_eq_error_iff] at h
  rcases h with h | ⟨_, -, h | ⟨_, -, h | ⟨_, -, h | ⟨_, -, h⟩⟩⟩⟩
  · exact optionally_error h
  · exact optionally_error h
  · exact optionally_error h
  · exact optionally_error h
  · cases h

/-- A question is refused as invalid if and only if one of the parameters is bad. -/
theorem toQuery_error_iff :
    (∃ message, params.toQuery = .error (.validation message)) ↔ params.IsBad := by
  cases hQuery : params.toQuery with
  | ok query =>
      have hGood := not_isBad_iff.mpr ⟨query, toQuery_eq_ok_iff.mp hQuery⟩
      exact iff_of_false (by simp) hGood
  | error e =>
      obtain ⟨message, rfl⟩ := toQuery_error hQuery
      refine iff_of_true ⟨message, rfl⟩ ?_
      by_contra hGood
      obtain ⟨query, hAsks⟩ := not_isBad_iff.mp hGood
      exact nomatch hQuery.symm.trans (toQuery_eq_ok_iff.mpr hAsks)

theorem toQuery_withoutBlanks (params : LogParams) : params.withoutBlanks.toQuery = params.toQuery := by
  have hSame {α : Type} (value : Option (List Char)) (read : List Char → Except (List Char) α) :
      optionally (present? value) read = optionally value read := by
    have hTwice : present? (present? value) = present? value := by
      rw [present?, present?, Option.filter_filter]
      simp only [Bool.and_self]
    rw [optionally, hTwice, optionally]
  simp only [toQuery, withoutBlanks, hSame]

/-- Parameters of a narrower question: those that were sent stay, and filters are added. -/
structure Narrows (narrow params : LogParams) : Prop where
  since : IsMissing params.since ∨ narrow.since = params.since
  limit : narrow.limit = params.limit
  jail : IsMissing params.jail ∨ narrow.jail = params.jail
  action : IsMissing params.action ∨ narrow.action = params.action

/-- A filter that is missing or stays as it is holds wherever the narrower one holds. -/
theorem Says.holds_of_narrow {α : Type} {means : List Char → α → Prop}
    {read : List Char → Except (List Char) α} (hRead : ∀ raw x, read raw = .ok x ↔ means (trim raw) x)
    {value narrow : Option (List Char)} {x y : Option α} (hValue : Says means value x)
    (hNarrow : Says means narrow y) (hAdded : IsMissing value ∨ narrow = value) {holds : α → Prop}
    (h : ∀ z ∈ y, holds z) : ∀ z ∈ x, holds z := by
  rcases hAdded with hMissing | rfl
  · obtain rfl := hValue.unique hRead (.nothing hMissing)
    exact fun z hz => nomatch hz
  · obtain rfl := hValue.unique hRead hNarrow
    exact h

theorem Narrows.selects {narrow : LogParams} {narrower : Query} (h : narrow.Narrows params)
    (hAsks : params.Asks query) (hNarrow : narrow.Asks narrower) {entry : Entry}
    (hSelects : narrower.Selects entry) : query.Selects entry where
  since := Says.holds_of_narrow readSince_eq_ok_iff hAsks.since hNarrow.since h.since hSelects.since
  jail := Says.holds_of_narrow readJailName_eq_ok_iff hAsks.jail hNarrow.jail h.jail hSelects.jail
  action :=
    Says.holds_of_narrow parse_action_eq_ok_iff hAsks.action hNarrow.action h.action hSelects.action

end LogParams

/-- A request that reads the log with these parameters. -/
structure Request.ReadsLog (request : Request) (params : LogParams) : Prop where
  method : request.method = "GET"
  isForLog : request.IsForLog
  params : LogParams.ofQuery (splitTarget request.target).2 = .ok params

section Answer

variable {σ : Type} {state : State σ} {params : LogParams} {query : Query} {text : List Char}

/-- Whoever reads the log with some parameters is shown these entries, and nothing is changed. -/
def Shows (state : State σ) (params : LogParams) (entries : List Entry) : Prop :=
  ∀ (service : Service σ) (site : Option Site) (request : Request) (now : Instant)
    (fate : Log.WriteFate), request.ReadsLog params →
    handle service site state request now fate =
      (.json 200 (.array (entries.map Entry.toValue)), state)

/-- The answer is shown from the entries of the text. -/
theorem shows_answer (hFile : state.slot = .file (encodeUtf8 text)) (hAsks : params.Asks query) :
    Shows state params (query.answer (entriesOf text)) := by
  intro service site request now fate hReads
  have hRoute : Route.ofPath? (splitTarget request.target).1 = some .log := hReads.isForLog
  have hLog : Service.actionLog state query = .ok (query.answer (entriesOf text)) := by
    rw [Service.actionLog, hFile, Log.Store.query_file]
    rfl
  have hAnswer : respondLog state (splitTarget request.target).2 =
      .json 200 (.array ((query.answer (entriesOf text)).map Entry.toValue)) := by
    rw [respondLog, hReads.params]
    dsimp only
    rw [LogParams.toQuery_eq_ok_iff.mpr hAsks]
    dsimp only
    rw [hLog]
    rfl
  simp only [handle, hRoute, Route.isAction, Bool.false_eq_true, if_false, if_pos hReads.method, answer,
    hAnswer]

theorem selects_of_mem_answer {entries : List Entry} {entry : Entry} (h : entry ∈ query.answer entries) :
    query.Selects entry := by
  have hSorted := (Query.isNewest_newest query.limit _).1.mem h
  exact Query.admits_iff.mp (List.mem_filter.mp (List.mem_mergeSort.mp hSorted)).2

/-- No answer has more than a thousand entries. -/
theorem length_answer_le (hAsks : params.Asks query) (entries : List Entry) :
    (query.answer entries).length ≤ 1000 := by
  obtain ⟨limit, hLimit, hSame⟩ := hAsks.limit
  have hLength : (query.answer entries).length = query.limit.elim _ (min _) :=
    (Query.isNewest_newest query.limit _).2
  have hMost : limit.getD 100 ≤ 1000 := by
    cases limit with
    | none => decide
    | some n =>
        have hMeans : ∃ raw, IsLimit raw n := by
          generalize params.limit = value at hLimit
          cases hLimit with
          | something _ hMeans => exact ⟨_, hMeans⟩
        obtain ⟨raw, -, hNumeral⟩ := hMeans
        exact hNumeral.le_bound
  rw [hSame, Option.elim_some] at hLength
  exact hLength.trans_le ((Nat.min_le_right _ _).trans hMost)

/-- A greater limit lets more of the old entries in and leaves the others where they are. -/
theorem answer_of_limit_le {entries : List Entry} {wider : Query} {n m : Nat} (hLe : n ≤ m)
    (hQuery : query = { wider with limit := some n }) (hLimit : wider.limit = some m) :
    ∃ older, wider.answer entries = older ++ query.answer entries ∧
      ∀ early ∈ older, ∀ late ∈ query.answer entries, early.Precedes late := by
  subst hQuery
  have hSorted := Query.pairwise_mergeSort (entries.filter wider.admits)
  generalize hEntries : (entries.filter wider.admits).mergeSort Query.entryLe = sorted at hSorted
  have hWide : wider.answer entries = sorted.drop (sorted.length - m) := by
    rw [Query.answer, hEntries, hLimit, Query.newest]
  have hNarrow : ({ wider with limit := some n } : Query).answer entries =
      (sorted.drop (sorted.length - m)).drop (sorted.length - n - (sorted.length - m)) := by
    rw [List.drop_drop, Nat.add_sub_cancel' (Nat.sub_le_sub_left hLe _), ← hEntries]
    rfl
  rw [hWide, hNarrow]
  generalize sorted.length - n - (sorted.length - m) = count
  refine ⟨(sorted.drop (sorted.length - m)).take count, (List.take_append_drop _ _).symm, ?_⟩
  have hParts := hSorted.sublist (List.drop_sublist (sorted.length - m) sorted)
  rw [← List.take_append_drop count (sorted.drop (sorted.length - m))] at hParts
  exact (List.pairwise_append.mp hParts).2.2

/-- The answer to a question, from the entries on the lines of a text. -/
def answerOn (text : List Char) (query : Query) : List Entry := query.answer (entriesOf text)

/-- Parameters are refused as invalid if and only if one of them is bad, and blank ones count as missing.
Otherwise the log shows the newest of the entries that are asked for, at most a thousand. Another filter
leaves only entries that it selects, and a greater limit only adds older entries in front. -/
theorem log_showsWindow (hFile : state.slot = .file (encodeUtf8 text)) (params : LogParams) :
    ((∃ message, params.toQuery = .error (.validation message)) ↔ params.IsBad) ∧
    params.withoutBlanks.toQuery = params.toQuery ∧
    (¬params.IsBad → ∃ query, params.toQuery = .ok query ∧ params.Asks query ∧
      Shows state params (answerOn text query) ∧
      Query.IsWindow query.limit (query.selectedOn text) (answerOn text query) ∧
      (answerOn text query).length ≤ 1000 ∧
      (∀ (narrow : LogParams) (narrower : Query), narrow.Narrows params → narrow.Asks narrower →
        Shows state narrow (answerOn text narrower) ∧
        ∀ entry ∈ answerOn text narrower, narrower.Selects entry ∧ query.Selects entry) ∧
      ∀ (limit : Option (List Char)) (wider : Query), LogParams.Asks { params with limit } wider →
        (∀ n ∈ query.limit, ∀ m ∈ wider.limit, n ≤ m) →
        Shows state { params with limit } (answerOn text wider) ∧
        ∃ older, answerOn text wider = older ++ answerOn text query ∧
          ∀ early ∈ older, ∀ late ∈ answerOn text query, early.Precedes late) := by
  refine ⟨LogParams.toQuery_error_iff, params.toQuery_withoutBlanks, fun hGood => ?_⟩
  obtain ⟨query, hAsks⟩ := LogParams.not_isBad_iff.mp hGood
  refine ⟨query, LogParams.toQuery_eq_ok_iff.mpr hAsks, hAsks, shows_answer hFile hAsks,
    query.isWindow_answer text, length_answer_le hAsks _, ?_, ?_⟩
  · intro narrow narrower hNarrows hNarrow
    refine ⟨shows_answer hFile hNarrow, fun entry hMem => ?_⟩
    have hSelects := selects_of_mem_answer hMem
    exact ⟨hSelects, hNarrows.selects hAsks hNarrow hSelects⟩
  · intro limit wider hWider hLe
    refine ⟨shows_answer hFile hWider, ?_⟩
    obtain ⟨_, -, hLimit⟩ := hAsks.limit
    obtain ⟨_, -, hWide⟩ := hWider.limit
    have hSince := hAsks.since.unique readSince_eq_ok_iff hWider.since
    have hJail := hAsks.jail.unique readJailName_eq_ok_iff hWider.jail
    have hAction := hAsks.action.unique parse_action_eq_ok_iff hWider.action
    refine answer_of_limit_le (hLe _ hLimit _ hWide) ?_ hWide
    rw [← hSince, ← hJail, ← hAction, ← hLimit]

/-- A limit with a sign, a jail with a blank before it, and an action in another case. -/
theorem log_showsWindow_newestOfTwo :
    let ban := Attempt.success .ban "sshd".toList "192.0.2.1".toList
    let early : Entry := ⟨7, ⟨1714525200, 0⟩, ban⟩
    let late : Entry := ⟨8, ⟨1714525323, 0⟩, ban⟩
    let text := ['\n'].intercalate [early.encode, late.encode]
    let state : State Unit := ⟨(), [], ⟨[], ⟨1, none⟩⟩, .file (encodeUtf8 text)⟩
    let params : LogParams :=
      ⟨some "2024-05-01T00:00:00Z".toList, some "+1".toList, some " sshd".toList, some "Ban".toList⟩
    let target := "/api/log?since=2024-05-01T00:00:00Z&limit=%2B1&jail=+sshd&action=Ban".toList
    Request.ReadsLog ⟨"GET", target⟩ params ∧ ¬params.IsBad ∧
    ∃ query, params.toQuery = .ok query ∧ answerOn text query = [late] ∧ Shows state params [late] := by
  intro ban early late text state params target
  have hReads : Request.ReadsLog ⟨"GET", target⟩ params :=
    ⟨rfl, by unfold Request.IsForLog; decide, by decide +kernel⟩
  have hQuery : params.toQuery =
      .ok ⟨some ⟨1714521600, 0⟩, some 1, some "sshd".toList, some .ban⟩ := by decide
  have hGood := LogParams.not_isBad_iff.mpr ⟨_, LogParams.toQuery_eq_ok_iff.mp hQuery⟩
  have hPlain : ∀ line ∈ [early.encode, late.encode], '\n' ∉ line := by
    simp [(Log.isLine_encode early).1, (Log.isLine_encode late).1]
  have hEntries : entriesOf text = [early, late] := by
    rw [Log.entriesOf_eq, List.splitOn_intercalate '\n' hPlain (List.cons_ne_nil _ _),
      List.filterMap_cons_some (Entry.decode?_encode (by decide)),
      List.filterMap_cons_some (Entry.decode?_encode (by decide)), List.filterMap_nil]
  have hSorted : [early, late].Pairwise fun a b => Query.entryLe a b = true := by decide
  have hFile : state.slot = .file (encodeUtf8 text) := rfl
  obtain ⟨-, -, hAnswer⟩ := log_showsWindow hFile params
  obtain ⟨query, hOk, -, hShows, -⟩ := hAnswer hGood
  obtain rfl := Except.ok.inj (hOk.symm.trans hQuery)
  have hNewest :
      answerOn text ⟨some ⟨1714521600, 0⟩, some 1, some "sshd".toList, some .ban⟩ = [late] := by
    rw [answerOn, hEntries]
    change Query.newest (some 1) ([early, late].mergeSort Query.entryLe) = [late]
    rw [List.mergeSort_of_pairwise hSorted]
    rfl
  exact ⟨hReads, hGood, _, hQuery, hNewest, hNewest ▸ hShows⟩

end Answer

end BanBoard.Http
