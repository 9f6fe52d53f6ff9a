import BanBoard.Proofs.Log.History

/-!
A log read back by its own queries. While nothing but openings and successful appends happens to it, a
query answers with the entries that the appends returned, in their order, as far as it selects them.
-/

namespace BanBoard.Log

open BanBoard.Time (Instant)

namespace Query

/-- Whether an entry meets every restriction that a query sets. -/
structure Selects (query : Query) (entry : Entry) : Prop where
  since : ∀ since ∈ query.since, since.le entry.timestamp = true
  jail : ∀ jail ∈ query.jail, entry.attempt.jail = jail
  action : ∀ action ∈ query.action, entry.attempt.action = action

/-- The filters of a question decide what it selects. -/
theorem admits_iff {query : Query} {entry : Entry} :
    query.admits entry = true ↔ query.Selects entry := by
  simp only [admits, Bool.and_eq_true, Option.all_eq_true, decide_eq_true_eq]
  constructor
  · rintro ⟨⟨hSince, hJail⟩, hAction⟩
    exact ⟨hSince, hJail, hAction⟩
  · rintro ⟨hSince, hJail, hAction⟩
    exact ⟨⟨hSince, hJail⟩, hAction⟩

instance (query : Query) : DecidablePred query.Selects := fun entry =>
  decidable_of_iff (query.admits entry = true) admits_iff

theorem filter_admits (query : Query) (entries : List Entry) :
    entries.filter query.admits = entries.filter fun entry => query.Selects entry := by
  refine List.filter_congr fun entry _ => ?_
  rw [Bool.eq_iff_iff, admits_iff, decide_eq_true_iff]

/-- Whether a list is the last part of another, as long as a limit allows. -/
def IsNewest {α : Type} (limit : Option Nat) (part whole : List α) : Prop :=
  part <:+ whole ∧ part.length = limit.elim whole.length (min whole.length)

theorem isNewest_newest {α : Type} (limit : Option Nat) (xs : List α) :
    IsNewest limit (newest limit xs) xs := by
  cases limit with
  | none => exact ⟨List.suffix_refl xs, rfl⟩
  | some n =>
      refine ⟨List.drop_suffix _ _, ?_⟩
      rw [newest, List.length_drop, Option.elim_some]
      omega

/-- Entries in the order of a log are sorted already, also where times are equal. -/
theorem answer_of_inOrder {entries : List Entry} (h : InOrder entries) (query : Query) :
    query.answer entries = newest query.limit (entries.filter query.admits) := by
  have hSorted : (entries.filter query.admits).Pairwise fun a b => entryLe a b = true := by
    refine (List.Pairwise.filter _ h).imp fun {a b} ⟨hId, hTime⟩ => ?_
    unfold entryLe
    split
    · exact decide_eq_true (UInt64.le_of_lt hId)
    · exact hTime
  rw [answer, List.mergeSort_of_pairwise hSorted]

end Query

/-- A file with entries in order is answered from without moving any of them. -/
theorem Store.query_fileOf {entries : List Entry} (hOrder : InOrder entries)
    (hTimes : ∀ entry ∈ entries, entry.timestamp.WellFormed) (store : Store) (query : Query) :
    store.query (.file (fileOf entries)) query =
      .ok (Query.newest query.limit (entries.filter fun entry => query.Selects entry)) := by
  obtain ⟨text, hText, hEntries⟩ := exists_text_fileOf hTimes
  rw [← Query.filter_admits, ← Query.answer_of_inOrder hOrder]
  simp only [Store.query, hText, hEntries]

namespace Event

/-- Undisturbed use is made of openings and of appends whose writes succeed. -/
def IsPlain : Event → Prop
  | open_ => True
  | append _ now .succeeds => now.WellFormed
  | _ => False

instance : DecidablePred IsPlain
  | open_ => isTrue trivial
  | append _ now .succeeds => inferInstanceAs (Decidable now.WellFormed)
  | append _ _ (.fails _ _ _) => isFalse id
  | refuse _ _ => isFalse id
  | truncate _ => isFalse id
  | addRaw _ => isFalse id

/-- What an event wants to have logged. -/
def attempt? : Event → Option Attempt
  | append attempt _ _ => some attempt
  | _ => none

/-- The entry that an event hands back. Only an append has one, when it succeeds. -/
def returned? (state : State) : Event → Option Entry
  | append attempt now fate =>
    state.store.bind fun store => (store.append state.slot attempt now fate).1.toOption
  | _ => none

/-- When the numbers have run out, no append returns an entry. -/
theorem returned?_exhausted {store : Store} (h : store.IsExhausted) (event : Event) (slot : Slot) :
    event.returned? ⟨some store, slot⟩ = none := by
  cases event with
  | append attempt now fate =>
      rw [returned?, Option.bind_some, Store.append_exhausted h]
      rfl
  | refuse attempt now => rfl
  | open_ => rfl
  | truncate length => rfl
  | addRaw bytes => rfl

end Event

namespace State

/-- The entries that the appends among some events return, in order. -/
def returned (path : List Char) : List Event → State → List Entry
  | [], _ => []
  | event :: events, state =>
    (event.returned? state).toList ++ returned path events (event.apply path state).2

/-- The invariant of undisturbed use: the log is open, and its file holds the lines of some entries and
nothing else. -/
structure Intact (count : Nat) (entries : List Entry) (state : State) : Prop
    extends Consistent count entries state where
  isOpen : ∃ store, state = ⟨some store, .file (fileOf entries)⟩

variable {count : Nat} {entries : List Entry} {state : State}

/-- An open leaves the log and the file in step. -/
theorem Consistent.intact_open (h : Consistent count entries state) (hCount : count + 1 < 2 ^ 64)
    (path : List Char) : Intact count entries (Event.open_.apply path state).2 := by
  obtain ⟨cursor, hCursor, hBehind⟩ := h.exists_cursor hCount
  rw [h.open_eq hCursor]
  exact ⟨h.open_ hBehind, _, rfl⟩

/-- A plain event adds the entry that it returns, and keeps the log and the file in step. -/
theorem Intact.apply (h : Intact count entries state) (path : List Char) {event : Event}
    (hPlain : event.IsPlain) (hCount : count + event.appends + 1 < 2 ^ 64) :
    Intact (count + event.appends) (entries ++ (event.returned? state).toList)
      (event.apply path state).2 ∧
    (event.returned? state).map Entry.attempt = event.attempt? := by
  cases event with
  | open_ =>
      have hSame : entries ++ (Event.open_.returned? state).toList = entries := List.append_nil entries
      rw [hSame]
      exact ⟨h.intact_open hCount path, rfl⟩
  | append attempt now fate =>
      cases fate with
      | fails reached cause rollsBack => exact hPlain.elim
      | succeeds =>
          obtain ⟨store, rfl⟩ := h.isOpen
          obtain ⟨spent, hSpent, hSpends⟩ := h.exists_spends hCount (store.stamp attempt now)
          have hAppend := Store.append_succeeds h.holds hSpent
          have hReturned : (Event.append attempt now .succeeds).returned?
              ⟨some store, .file (fileOf entries)⟩ = some (store.stamp attempt now) := by
            simp [Event.returned?, hAppend, Except.toOption]
          have hApply : ((Event.append attempt now .succeeds).apply path
              ⟨some store, .file (fileOf entries)⟩).2 =
              ⟨some spent,
                .file (fileOf (entries ++ [store.stamp attempt now]))⟩ := by
            simp only [Event.apply, hAppend]
          rw [hReturned, hApply, Option.toList_some]
          exact ⟨⟨h.spend hSpends hPlain (List.prefix_refl _) (Slot.holds_fileOf _), _, rfl⟩, rfl⟩
  | refuse attempt now => exact hPlain.elim
  | truncate length => exact hPlain.elim
  | addRaw bytes => exact hPlain.elim

/-- After a run the file holds the old entries and those that were returned, one per attempt. -/
theorem Intact.run (h : Intact count entries state) (path : List Char) {events : List Event}
    (hPlain : ∀ event ∈ events, event.IsPlain)
    (hCount : count + (events.map Event.appends).sum + 1 < 2 ^ 64) :
    Intact (count + (events.map Event.appends).sum) (entries ++ state.returned path events)
      (state.run path events) ∧
    (state.returned path events).map Entry.attempt = events.filterMap Event.attempt? := by
  induction events generalizing count entries state with
  | nil =>
      rw [returned, List.append_nil]
      exact ⟨h, rfl⟩
  | cons event events ih =>
      obtain ⟨hHead, hTail⟩ := List.forall_mem_cons.mp hPlain
      rw [List.map_cons, List.sum_cons, ← Nat.add_assoc] at hCount ⊢
      obtain ⟨hNext, hFirst⟩ := h.apply path hHead (by omega)
      obtain ⟨hLast, hRest⟩ := ih hNext hTail hCount
      rw [returned, ← List.append_assoc]
      refine ⟨hLast, ?_⟩
      rw [List.map_append, hRest, List.filterMap_cons, ← hFirst]
      cases event.returned? state <;> rfl

/-- While log and file are in step, a question is answered from the entries as they were written. -/
theorem Intact.query_eq (h : Intact count entries state) (query : Query) :
    ∃ store, state.store = some store ∧ store.query state.slot query =
      .ok (Query.newest query.limit (entries.filter fun entry => query.Selects entry)) := by
  obtain ⟨store, rfl⟩ := h.isOpen
  exact ⟨store, rfl, store.query_fileOf h.inOrder h.wellFormed query⟩

end State

/-- A log that starts without a file answers every query with the entries that its appends returned, in
the order of the appends: those that the query selects, and of these the newest. Every append returned
an entry with what it was given. -/
theorem query_readsBack (path : List Char) {events : List Event}
    (hPlain : ∀ event ∈ events, event.IsPlain)
    (hAppends : (events.map Event.appends).sum < 2 ^ 64 - 1) (query : Query) :
    ((State.fresh.returned path (.open_ :: events)).map Entry.attempt =
      events.filterMap Event.attempt?) ∧
    ∃ store answer, (State.fresh.run path (.open_ :: events)).store = some store ∧
      store.query (State.fresh.run path (.open_ :: events)).slot query = .ok answer ∧
      Query.IsNewest query.limit answer
        ((State.fresh.returned path (.open_ :: events)).filter fun entry => query.Selects entry) := by
  have hOpen := State.consistent_fresh.intact_open (by decide) path
  obtain ⟨hLast, hAttempts⟩ := hOpen.run path hPlain (by omega)
  obtain ⟨store, hStore, hQuery⟩ := hLast.query_eq query
  exact ⟨hAttempts, store, _, hStore, hQuery, Query.isNewest_newest _ _⟩

/-- The log is reopened in between, and the clock stands still and goes back, so that times are equal. -/
theorem query_readsBack_reopened :
    let path := "actions.jsonl".toList
    let ban := Attempt.success .ban "sshd".toList "192.0.2.1".toList
    let unban := Attempt.failure .unban "nginx\n".toList "::1".toList "no \"answer\"".toList
    let events : List Event := [.append ban ⟨1714525323, 7⟩ .succeeds,
      .append unban ⟨1714525323, 7⟩ .succeeds, .open_, .append ban ⟨1714525200, 0⟩ .succeeds]
    let query : Query := ⟨some ⟨1714525323, 7⟩, some 1, none, some .ban⟩
    (∀ event ∈ events, event.IsPlain) ∧ (events.map Event.appends).sum < 2 ^ 64 - 1 ∧
    (State.fresh.returned path (.open_ :: events)).map Entry.attempt = [ban, unban, ban] ∧
    ∃ store answer, (State.fresh.run path (.open_ :: events)).store = some store ∧
      store.query (State.fresh.run path (.open_ :: events)).slot query = .ok answer ∧
      Query.IsNewest query.limit answer
        ((State.fresh.returned path (.open_ :: events)).filter fun entry => query.Selects entry) := by
  intro path ban unban events query
  have hPlain : ∀ event ∈ events, event.IsPlain := by decide
  have hAppends : (events.map Event.appends).sum < 2 ^ 64 - 1 := by decide
  exact ⟨hPlain, hAppends, query_readsBack path hPlain hAppends query⟩

end BanBoard.Log
