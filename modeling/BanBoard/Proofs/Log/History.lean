import BanBoard.Proofs.Log.File

/-!
Whole histories of a log. It is opened and reopened, written with any clock, hit by failing writes and
by crashes that cut its file anywhere, and strangers leave bytes at its end. The entries in its file
stay in order through all of this.
-/

namespace BanBoard.Log

open BanBoard.Time (Instant)

/-- What happens to a log. A refused append never reaches the file, as when it cannot be opened for
writing. It spends a number all the same, if there is one. -/
inductive Event where
  | open_
  | append (attempt : Attempt) (now : Instant) (fate : WriteFate)
  | refuse (attempt : Attempt) (now : Instant)
  | truncate (length : Nat)
  | addRaw (bytes : List UInt8)

/-- The open log, if there is one, and its file. -/
structure State where
  store : Option Store
  slot : Slot

namespace Event

/-- What can really happen: clocks show times of the calendar, and strangers write no newline. -/
def IsAllowed : Event → Prop
  | open_ => True
  | append _ now _ => now.WellFormed
  | refuse _ now => now.WellFormed
  | truncate _ => True
  | addRaw bytes => newline ∉ bytes

instance : DecidablePred IsAllowed
  | open_ => isTrue trivial
  | append _ now _ => inferInstanceAs (Decidable now.WellFormed)
  | refuse _ now => inferInstanceAs (Decidable now.WellFormed)
  | truncate _ => isTrue trivial
  | addRaw bytes => inferInstanceAs (Decidable (newline ∉ bytes))

/-- How many numbers an event may spend. -/
def appends : Event → Nat
  | append _ _ _ => 1
  | refuse _ _ => 1
  | _ => 0

/-- What an event makes of a log, and whether it was an opening or an append that succeeded. -/
def apply (path : List Char) (state : State) : Event → Bool × State
  | open_ =>
    match Store.open_ path state.slot with
    | (.ok store, slot) => (true, ⟨some store, slot⟩)
    | (.error _, slot) => (false, ⟨state.store, slot⟩)
  | append attempt now fate =>
    match state.store with
    | none => (false, state)
    | some store =>
      match store.append state.slot attempt now fate with
      | (.ok _, store, slot) => (true, ⟨some store, slot⟩)
      | (.error _, store, slot) => (false, ⟨some store, slot⟩)
  | refuse attempt now =>
    (false, ⟨state.store.map fun store => (store.spend? (store.stamp attempt now)).getD store, state.slot⟩)
  | truncate length => (false, ⟨state.store, state.slot.truncate length⟩)
  | addRaw bytes => (false, ⟨state.store, state.slot.addRaw bytes⟩)

end Event

/-- When the numbers have run out, an append changes nothing. -/
theorem Event.apply_exhausted {event : Event} (hAppends : event.appends = 1) (path : List Char)
    {state : State} {store : Store} (hStore : state.store = some store) (h : store.IsExhausted) :
    event.apply path state = (false, state) := by
  obtain ⟨_, slot⟩ := state
  obtain rfl := hStore
  cases event with
  | append attempt now fate => simp only [Event.apply, Store.append_exhausted h]
  | refuse attempt now =>
      rw [Event.apply, Option.map_some, Store.spend?_eq_none_iff.mpr h, Option.getD_none]
  | open_ => cases hAppends
  | truncate length => cases hAppends
  | addRaw bytes => cases hAppends

namespace State

/-- No log is open, and there is no file. -/
def fresh : State := ⟨none, .missing⟩

def run (path : List Char) (events : List Event) (state : State) : State :=
  events.foldl (fun state event => (event.apply path state).2) state

/-- The invariant of a log that spent at most `count` numbers. The file holds entries in order, and
the cursor of an open log lies past them and has not run further than that. -/
structure Consistent (count : Nat) (entries : List Entry) (state : State) : Prop where
  holds : state.slot.Holds entries
  inOrder : InOrder entries
  wellFormed : ∀ entry ∈ entries, entry.timestamp.WellFormed
  id_le : ∀ entry ∈ entries, entry.id.toNat ≤ count
  isPast : ∀ store ∈ state.store, store.cursor.IsPast entries
  nextId_le : ∀ store ∈ state.store, store.cursor.nextId.toNat ≤ count + 1
  lastTimestamp : ∀ store ∈ state.store, ∀ last ∈ store.cursor.lastTimestamp, last.WellFormed

theorem consistent_fresh : Consistent 0 [] fresh := by
  constructor <;> simp [fresh, Slot.Holds, InOrder]

variable {count : Nat} {entries kept : List Entry} {state : State} {path : List Char}

/-- Losing entries at the end of the file keeps the invariant. -/
theorem Consistent.of_isPrefix (h : Consistent count entries state) (hKept : kept <+: entries)
    {slot : Slot} (hHolds : slot.Holds kept) : Consistent count kept ⟨state.store, slot⟩ where
  holds := hHolds
  inOrder := h.inOrder.of_isPrefix hKept
  wellFormed := fun entry hMem => h.wellFormed entry (hKept.subset hMem)
  id_le := fun entry hMem => h.id_le entry (hKept.subset hMem)
  isPast := fun store hStore => (h.isPast store hStore).of_isPrefix hKept
  nextId_le := h.nextId_le
  lastTimestamp := h.lastTimestamp

/-- Below the limit on numbers, there is a cursor behind the entries. -/
theorem Consistent.exists_cursor (h : Consistent count entries state) (hCount : count + 1 < 2 ^ 64) :
    ∃ cursor, Cursor.behind? entries = some cursor ∧ cursor.IsBehind entries := by
  have hRoom : ∀ entry ∈ entries, entry.id.toNat + 1 < 2 ^ 64 := fun entry hMem =>
    Nat.lt_of_le_of_lt (Nat.succ_le_succ (h.id_le entry hMem)) hCount
  obtain ⟨cursor, hCursor⟩ := Cursor.exists_behind?_iff.mpr hRoom
  exact ⟨cursor, hCursor, Cursor.isBehind_of_behind? hCursor⟩

/-- Opening finds the entries and puts the cursor behind them. -/
theorem Consistent.open_eq (h : Consistent count entries state) {cursor : Cursor}
    (hCursor : Cursor.behind? entries = some cursor) :
    Event.open_.apply path state = (true, ⟨some ⟨path, cursor⟩, .file (fileOf entries)⟩) := by
  rw [Event.apply, Store.open_eq h.holds h.wellFormed hCursor]

/-- After an open the history goes on with the same entries. -/
theorem Consistent.open_ (h : Consistent count entries state) {cursor : Cursor}
    (hBehind : cursor.IsBehind entries) :
    Consistent count entries ⟨some ⟨path, cursor⟩, .file (fileOf entries)⟩ where
  holds := Slot.holds_fileOf entries
  inOrder := h.inOrder
  wellFormed := h.wellFormed
  id_le := h.id_le
  isPast := by
    rintro _ ⟨rfl⟩
    exact hBehind.isPast
  nextId_le := by
    rintro _ ⟨rfl⟩
    exact hBehind.toNat_nextId_le h.id_le
  lastTimestamp := by
    rintro _ ⟨rfl⟩
    exact hBehind.wellFormed h.wellFormed

/-- Appending to a log that is not open spends nothing, which is counted all the same. -/
theorem Consistent.succ_of_closed {slot : Slot} (h : Consistent count entries ⟨none, slot⟩) :
    Consistent (count + 1) entries ⟨none, slot⟩ :=
  { h with
    id_le := fun entry hMem => Nat.le_succ_of_le (h.id_le entry hMem)
    nextId_le := fun _ hNone => nomatch hNone }

/-- The numbers of an open log last for one append more. -/
theorem Consistent.exists_spends {store : Store} {slot : Slot}
    (h : Consistent count entries ⟨some store, slot⟩) (hCount : count + 2 < 2 ^ 64) (entry : Entry) :
    ∃ after, store.spend? entry = some after ∧ store.Spends entry after := by
  have hNext := h.nextId_le store rfl
  refine Store.exists_spends (fun hExhausted => ?_) entry
  rw [Store.IsExhausted] at hExhausted
  omega

/-- Spending a number keeps the invariant, whether its entry reaches the file or not. -/
theorem Consistent.spend {store spent : Store} {slot : Slot}
    (h : Consistent count entries ⟨some store, slot⟩) {attempt : Attempt} {now : Instant}
    (hSpends : store.Spends (store.stamp attempt now) spent) (hNow : now.WellFormed)
    (hKept : kept <+: entries ++ [store.stamp attempt now]) {after : Slot} (hHolds : after.Holds kept) :
    Consistent (count + 1) kept ⟨some spent, after⟩ := by
  have hPast := h.isPast store rfl
  have hNext := h.nextId_le store rfl
  have hWellFormed := Store.wellFormed_timestamp_stamp attempt (h.lastTimestamp store rfl) hNow
  have hAll : Consistent (count + 1) (entries ++ [store.stamp attempt now])
      ⟨some spent, .file (fileOf (entries ++ [store.stamp attempt now]))⟩ :=
    { holds := Slot.holds_fileOf _
      inOrder := Store.inOrder_concat_stamp h.inOrder hPast attempt now
      wellFormed := by
        rw [List.forall_mem_append, List.forall_mem_singleton]
        exact ⟨h.wellFormed, hWellFormed⟩
      id_le := by
        rw [List.forall_mem_append, List.forall_mem_singleton]
        exact ⟨fun entry hMem => Nat.le_succ_of_le (h.id_le entry hMem), hNext⟩
      isPast := by
        rintro _ ⟨rfl⟩
        exact hSpends.isPast hPast
      nextId_le := by
        rintro _ ⟨rfl⟩
        rw [← hSpends.nextId_eq]
        exact Nat.succ_le_succ hNext
      lastTimestamp := by
        rintro _ ⟨rfl⟩ last hLast
        rw [hSpends.lastTimestamp_eq] at hLast
        obtain rfl := Option.some.inj hLast
        exact hWellFormed }
  exact hAll.of_isPrefix hKept hHolds

/-- What an append does to a file of whole lines, however its write ends. -/
theorem append_eq {store spent : Store} {slot : Slot} {whole : List UInt8}
    (h : slot.repaired = .ok whole) {attempt : Attempt} {now : Instant}
    (hSpent : store.spend? (store.stamp attempt now) = some spent) (fate : WriteFate) :
    (Event.append attempt now fate).apply path ⟨some store, slot⟩ =
      ((Slot.write whole (Store.lineOf (store.stamp attempt now)) fate).1.isOk,
        ⟨some spent, (Slot.write whole (Store.lineOf (store.stamp attempt now)) fate).2⟩) := by
  simp only [Event.apply, Store.append, hSpent, h]
  cases Slot.write whole (Store.lineOf (store.stamp attempt now)) fate with
  | mk result after => cases result <;> rfl

/-- Every event keeps the invariant, and a successful one leaves an open log and whole lines. -/
theorem Consistent.apply (h : Consistent count entries state) (path : List Char) {event : Event}
    (hAllowed : event.IsAllowed) (hCount : count + event.appends + 1 < 2 ^ 64) :
    ∃ after, Consistent (count + event.appends) after (event.apply path state).2 ∧
      ((event.apply path state).1 = true →
        ∃ store, (event.apply path state).2 = ⟨some store, .file (fileOf after)⟩) := by
  obtain ⟨opened, slot⟩ := state
  -- Cuts and failing writes leave the first of the entries, and an append one more at most.
  cases event with
  | open_ =>
      obtain ⟨cursor, hCursor, hBehind⟩ := h.exists_cursor hCount
      rw [h.open_eq hCursor]
      exact ⟨entries, h.open_ hBehind, fun _ => ⟨_, rfl⟩⟩
  | append attempt now fate =>
      cases opened with
      | none =>
          exact ⟨entries, h.succ_of_closed, fun hDone => Bool.noConfusion hDone⟩
      | some store =>
          obtain ⟨spent, hSpent, hSpends⟩ := h.exists_spends hCount (store.stamp attempt now)
          obtain ⟨kept, hKept, hHolds, hDone⟩ :=
            Slot.exists_holds_write entries (store.stamp attempt now) fate
          rw [append_eq h.holds.repaired hSpent]
          exact ⟨kept, h.spend hSpends hAllowed hKept hHolds,
            fun hOk => ⟨_, congrArg (State.mk _) (hDone hOk)⟩⟩
  | refuse attempt now =>
      refine ⟨entries, ?_, fun hDone => Bool.noConfusion hDone⟩
      cases opened with
      | none => exact h.succ_of_closed
      | some store =>
          obtain ⟨spent, hSpent, hSpends⟩ := h.exists_spends hCount (store.stamp attempt now)
          rw [Event.apply, Option.map_some, hSpent, Option.getD_some]
          exact h.spend hSpends hAllowed (List.prefix_append _ _) h.holds
  | truncate length =>
      obtain ⟨kept, hKept, hHolds⟩ := h.holds.truncate length
      exact ⟨kept, h.of_isPrefix hKept hHolds, fun hDone => Bool.noConfusion hDone⟩
  | addRaw bytes =>
      exact ⟨entries, h.of_isPrefix (List.prefix_refl _) (h.holds.addRaw hAllowed),
        fun hDone => Bool.noConfusion hDone⟩

/-- Whatever happens, the invariant holds, with as many numbers spent as there were appends. -/
theorem Consistent.run (h : Consistent count entries state) (path : List Char) {events : List Event}
    (hAllowed : ∀ event ∈ events, event.IsAllowed)
    (hCount : count + (events.map Event.appends).sum + 1 < 2 ^ 64) :
    ∃ after, Consistent (count + (events.map Event.appends).sum) after (state.run path events) := by
  induction events generalizing count entries state with
  | nil => exact ⟨entries, h⟩
  | cons event events ih =>
      obtain ⟨hHead, hTail⟩ := List.forall_mem_cons.mp hAllowed
      rw [List.map_cons, List.sum_cons, ← Nat.add_assoc] at hCount ⊢
      obtain ⟨after, hAfter, _⟩ := h.apply path hHead (by omega)
      exact ih hAfter hTail hCount

/-- What the last event of a history makes of the log that the events before it left. -/
def outcome (path : List Char) (events : List Event) (event : Event) : Bool × State :=
  event.apply path (fresh.run path events)

end State

/-- After every successful opening and every successful append, the file is a text whose entries are
in order, and the cursor lies past all of them. An opening never fails, and an append to an open log
only fails when its write does. -/
theorem history_keepsOrder (path : List Char) {events : List Event} {event : Event}
    (hAllowed : ∀ earlier ∈ events ++ [event], earlier.IsAllowed)
    (hAppends : ((events ++ [event]).map Event.appends).sum < 2 ^ 64 - 1) :
    ((State.outcome path events event).1 = true →
      ∃ store text, (State.outcome path events event).2.store = some store ∧
        (State.outcome path events event).2.slot.text = .ok text ∧
        InOrder (entriesOf text) ∧ store.cursor.IsPast (entriesOf text)) ∧
    (event = .open_ → (State.outcome path events event).1 = true) ∧
    (∀ attempt now, event = .append attempt now .succeeds →
      (State.fresh.run path events).store.isSome → (State.outcome path events event).1 = true) := by
  rw [List.forall_mem_append, List.forall_mem_singleton] at hAllowed
  rw [List.map_append, List.sum_append, List.map_singleton, List.sum_singleton] at hAppends
  obtain ⟨entries, hState⟩ := State.consistent_fresh.run path hAllowed.1 (by omega)
  obtain ⟨after, hAfter, hDone⟩ := hState.apply path hAllowed.2 (by omega)
  refine ⟨?_, ?_, ?_⟩
  · intro hSuccess
    obtain ⟨store, hStore⟩ := hDone hSuccess
    obtain ⟨text, hText, hEntries⟩ := exists_text_fileOf hAfter.wellFormed
    refine ⟨store, text, congrArg State.store hStore, ?_, ?_, ?_⟩
    · rw [← hText]
      exact congrArg (fun state => state.slot.text) hStore
    · rw [hEntries]
      exact hAfter.inOrder
    · rw [hEntries]
      exact hAfter.isPast store (congrArg State.store hStore)
  · rintro rfl
    obtain ⟨cursor, hCursor, -⟩ := hState.exists_cursor (by omega)
    exact congrArg Prod.fst (hState.open_eq hCursor)
  · rintro attempt now rfl hOpen
    obtain ⟨store, hStore⟩ := Option.isSome_iff_exists.mp hOpen
    have hEta : State.fresh.run path events = ⟨some store, (State.fresh.run path events).slot⟩ :=
      congrArg (State.mk · (State.fresh.run path events).slot) hStore
    rw [hEta] at hState
    obtain ⟨spent, hSpent, -⟩ :=
      hState.exists_spends (by simp only [Event.appends] at hAppends; omega) (store.stamp attempt now)
    rw [State.outcome, hEta, State.append_eq hState.holds.repaired hSpent]
    rfl

/-- Failing writes, a line cut in the middle, foreign bytes behind it and a clock that runs backwards
leave the order intact. -/
theorem history_keepsOrder_tornLine :
    let path := "actions.jsonl".toList
    let ban := Attempt.success .ban "sshd".toList "192.0.2.1".toList
    let events : List Event := [.open_, .append ban ⟨1714525323, 0⟩ .succeeds,
      .append ban ⟨1714525500, 7⟩ (.fails 3 .isDirectory false), .refuse ban ⟨1714525600, 0⟩,
      .append ban ⟨1714525200, 0⟩ .succeeds, .truncate 130, .addRaw [0xFF, 0x7B]]
    (∀ earlier ∈ events ++ [Event.open_], earlier.IsAllowed) ∧
    ((events ++ [Event.open_]).map Event.appends).sum < 2 ^ 64 - 1 ∧
    ∃ store text, (State.outcome path events .open_).2.store = some store ∧
      (State.outcome path events .open_).2.slot.text = .ok text ∧
      InOrder (entriesOf text) ∧ store.cursor.IsPast (entriesOf text) := by
  intro path ban events
  have hAllowed : ∀ earlier ∈ events ++ [Event.open_], earlier.IsAllowed := by decide
  have hAppends : ((events ++ [Event.open_]).map Event.appends).sum < 2 ^ 64 - 1 := by decide
  obtain ⟨hOrder, hOpen, _⟩ := history_keepsOrder path hAllowed hAppends
  exact ⟨hAllowed, hAppends, hOrder (hOpen rfl)⟩

end BanBoard.Log
