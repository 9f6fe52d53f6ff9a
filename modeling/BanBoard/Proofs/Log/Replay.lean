import BanBoard.Proofs.Log.Damage
import BanBoard.Proofs.Log.ReadBack

/-!
The lines of a log that was not disturbed. They are the entries as they are written, however many openings
and appends there were, since an append for which there is no number left changes nothing. What a query
answers with, written out again, is the last of the lines that it selects.
-/

namespace BanBoard.Log

open BanBoard.Text

namespace State

/-- A log in undisturbed use, with numbers that are no greater than they have to be. -/
def IsUndisturbed (entries : List Entry) (state : State) : Prop :=
  ∃ count, count + 1 < 2 ^ 64 ∧ Intact count entries state

variable {entries : List Entry} {state : State}

/-- The numbers of an open log are counted by the next one. -/
theorem Intact.of_nextId {count : Nat} (h : Intact count entries state) {store : Store}
    (hStore : state.store = some store) :
    Intact (store.cursor.nextId.toNat - 1) entries state :=
  { h with
    id_le := fun entry hMem =>
      Nat.le_sub_one_of_lt (UInt64.lt_iff_toNat_lt.mp ((h.isPast store hStore).id_lt entry hMem))
    nextId_le := fun other hOther => by
      obtain rfl := Option.some.inj (hStore.symm.trans hOther)
      exact Nat.le_add_of_sub_le (Nat.le_refl _) }

theorem IsUndisturbed.apply (h : IsUndisturbed entries state) (path : List Char) {event : Event}
    (hPlain : event.IsPlain) :
    ∃ after, IsUndisturbed after (event.apply path state).2 := by
  obtain ⟨count, hCount, hIntact⟩ := h
  obtain ⟨store, hState⟩ := hIntact.isOpen
  have hStore : state.store = some store := congrArg State.store hState
  by_cases hAppends : event.appends = 1
  · by_cases hExhausted : store.IsExhausted
    · rw [Event.apply_exhausted hAppends path hStore hExhausted]
      exact ⟨entries, count, hCount, hIntact⟩
    · have hBound := store.cursor.nextId.toNat_lt
      have hRoom : store.cursor.nextId.toNat - 1 + event.appends + 1 < 2 ^ 64 := by
        rw [Store.IsExhausted] at hExhausted
        omega
      exact ⟨_, _, hRoom, ((hIntact.of_nextId hStore).apply path hPlain hRoom).1⟩
  · have hNone : event.appends = 0 := by cases event <;> simp_all [Event.appends]
    exact ⟨_, _, by omega, (hIntact.apply path hPlain (by omega)).1⟩

/-- A run of plain events leaves the log undisturbed. -/
theorem IsUndisturbed.run (h : IsUndisturbed entries state) (path : List Char) {events : List Event}
    (hPlain : ∀ event ∈ events, event.IsPlain) :
    ∃ after, IsUndisturbed after (state.run path events) := by
  induction events generalizing entries state with
  | nil => exact ⟨entries, h⟩
  | cons event events ih =>
      obtain ⟨hHead, hTail⟩ := List.forall_mem_cons.mp hPlain
      obtain ⟨after, hAfter⟩ := h.apply path hHead
      exact ih hAfter hTail

/-- The file of an undisturbed log is made of the lines of entries in order, and it can be opened again. -/
theorem exists_entries_run (path : List Char) {events : List Event}
    (hPlain : ∀ event ∈ events, event.IsPlain) {bytes : List UInt8}
    (hFile : (fresh.run path (.open_ :: events)).slot = .file bytes) :
    ∃ entries cursor, bytes = fileOf entries ∧ InOrder entries ∧
      (∀ entry ∈ entries, entry.timestamp.WellFormed) ∧ Cursor.behind? entries = some cursor := by
  have hFirst : IsUndisturbed [] (Event.open_.apply path fresh).2 :=
    ⟨0, by decide, consistent_fresh.intact_open (by decide) path⟩
  obtain ⟨entries, count, hCount, hIntact⟩ := hFirst.run path hPlain
  obtain ⟨store, hStore⟩ := hIntact.isOpen
  obtain ⟨cursor, hCursor, -⟩ := hIntact.exists_cursor hCount
  have hSlot := hFile.symm.trans (congrArg State.slot hStore)
  exact ⟨entries, cursor, Slot.file.inj hSlot, hIntact.inOrder, hIntact.wellFormed, hCursor⟩

end State

def Entry.line (entry : Entry) : List UInt8 := encodeUtf8 entry.encode

theorem flatMap_map_line (entries : List Entry) :
    (entries.map Entry.line).flatMap (· ++ [newline]) = fileOf entries := by
  rw [List.flatMap_map]
  rfl

/-- The ended lines of a file are the lines of its entries. -/
theorem endedLines_fileOf (entries : List Entry) :
    endedLines (fileOf entries) = entries.map Entry.line := by
  have hLines : (fileOf entries).splitOn newline = entries.map Entry.line ++ [[]] := by
    induction entries with
    | nil => rfl
    | cons entry entries ih =>
        rw [fileOf_cons, Store.lineOf, List.append_assoc, List.singleton_append,
          List.splitOn_append_cons_self_of_not_mem (newline_notMem_encode entry), ih]
        rfl
  rw [endedLines, hLines, List.dropLast_concat]

/-- A line is read as the entry that was written on it. -/
theorem entryOnBytes?_line {entry : Entry} (h : entry.timestamp.WellFormed) :
    entryOnBytes? entry.line = some entry := by
  rw [Entry.line, entryOnBytes?_encodeUtf8, Entry.decode?_encode h]

/-- Whether a line holds an entry of the jail that is asked for, if one is. -/
def IsOfJail (jail : Option (List Char)) (line : List UInt8) : Prop :=
  ∀ name ∈ jail, ∃ entry ∈ entryOnBytes? line, entry.attempt.jail = name

instance (jail : Option (List Char)) : DecidablePred (IsOfJail jail) := fun line =>
  inferInstanceAs (Decidable (∀ name ∈ jail, ∃ entry ∈ entryOnBytes? line, entry.attempt.jail = name))

/-- A line is of a jail just when a question about that jail selects its entry. -/
theorem isOfJail_line_iff {entry : Entry} (h : entry.timestamp.WellFormed) {limit : Option Nat}
    {jail : Option (List Char)} :
    IsOfJail jail entry.line ↔ Query.Selects ⟨none, limit, jail, none⟩ entry := by
  rw [IsOfJail, entryOnBytes?_line h]
  constructor
  · intro hJail
    refine ⟨nofun, fun name hName => ?_, nofun⟩
    obtain ⟨read, hRead, hSame⟩ := hJail name hName
    obtain rfl := Option.mem_some.mp hRead
    exact hSame
  · intro hSelects name hName
    exact ⟨entry, rfl, hSelects.jail name hName⟩

/-- Taking the newest commutes with a function on each element. -/
theorem Query.IsNewest.map {α β : Type} {limit : Option Nat} {part whole : List α}
    (h : IsNewest limit part whole) (f : α → β) : IsNewest limit (part.map f) (whole.map f) := by
  obtain ⟨hSuffix, hLength⟩ := h
  refine ⟨hSuffix.map f, ?_⟩
  rw [List.length_map, List.length_map, hLength]

/-- What a query for a jail answers with, written out again, is the last of the lines of that jail. -/
theorem Store.query_replays {entries : List Entry} (hOrder : InOrder entries)
    (hTimes : ∀ entry ∈ entries, entry.timestamp.WellFormed) (store : Store) (limit : Option Nat)
    (jail : Option (List Char)) :
    ∃ answer, store.query (.file (fileOf entries)) ⟨none, limit, jail, none⟩ = .ok answer ∧
      Query.IsNewest limit (answer.map Entry.line)
        ((endedLines (fileOf entries)).filter fun line => IsOfJail jail line) := by
  have hSelected : (endedLines (fileOf entries)).filter (fun line => IsOfJail jail line) =
      (entries.filter fun entry => Query.Selects ⟨none, limit, jail, none⟩ entry).map Entry.line := by
    rw [endedLines_fileOf, List.filter_map]
    refine congrArg (List.map Entry.line) (List.filter_congr fun entry hMem => ?_)
    exact decide_eq_decide.mpr (isOfJail_line_iff (hTimes entry hMem))
  refine ⟨_, store.query_fileOf hOrder hTimes _, ?_⟩
  rw [hSelected]
  exact (Query.isNewest_newest limit _).map Entry.line

end BanBoard.Log
