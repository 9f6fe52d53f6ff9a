import BanBoard.Proofs.Log.FreshIds
import BanBoard.Proofs.Log.ReadBack
import BanBoard.Proofs.Log.Recovery
import Mathlib.Data.List.Perm.Subperm

/-!
What a reader was shown once. A query also reads a last line that no newline ends, while openings and
appends cut such a line off. The entries on ended lines are part of every later answer, and the one on
the other line is the only one that can be missing there.
-/

namespace BanBoard.Log

open BanBoard.Text
open BanBoard.Time (Instant)
open scoped List

/-- A question for everything is answered with all entries, in some order. -/
theorem Query.perm_answer_all (entries : List Entry) : (Query.all.answer entries).Perm entries := by
  have hAll : entries.filter Query.all.admits = entries :=
    List.filter_eq_self.mpr fun _ _ => rfl
  rw [Query.answer, hAll]
  exact List.mergeSort_perm _ _

/-- Entries that are in order are answered as they stand. -/
theorem Query.answer_all_of_inOrder {entries : List Entry} (h : InOrder entries) :
    Query.all.answer entries = entries := by
  rw [Query.answer_of_inOrder h]
  exact List.filter_eq_self.mpr fun _ _ => rfl

/-- While the file is a text, the question is answered from the entries of the text. -/
theorem Store.query_all_of_text (store : Store) {slot : Slot} {text : List Char}
    (h : slot.text = .ok text) : store.query slot .all = .ok (Query.all.answer (entriesOf text)) := by
  rw [Store.query, h]

theorem Store.exists_text_of_query {store : Store} {slot : Slot} {shown : List Entry}
    (h : store.query slot .all = .ok shown) :
    ∃ text, slot.text = .ok text ∧ shown = Query.all.answer (entriesOf text) := by
  rw [Store.query] at h
  cases hText : slot.text with
  | error cause =>
      rw [hText] at h
      cases h
  | ok text =>
      rw [hText] at h
      exact ⟨text, rfl, (Except.ok.inj h).symm⟩

/-- Any text is whole lines and behind them a part without a newline. -/
theorem exists_isWholeLines_append (text : List Char) :
    ∃ whole part, text = whole ++ part ∧ IsWholeLines whole ∧ '\n' ∉ part := by
  induction text using List.reverseRecOn with
  | nil => exact ⟨[], [], rfl, isWholeLines_nil, List.not_mem_nil⟩
  | append_singleton text last ih =>
      by_cases hLast : last = '\n'
      · exact ⟨text ++ [last], [], (List.append_nil _).symm, Or.inr ⟨text, by rw [hLast]⟩,
          List.not_mem_nil⟩
      · obtain ⟨whole, part, rfl, hWhole, hPart⟩ := ih
        refine ⟨whole, part ++ [last], List.append_assoc _ _ _, hWhole, ?_⟩
        rw [List.mem_append, List.mem_singleton]
        exact fun hMem => hMem.elim hPart fun hEq => hLast hEq.symm

/-- The entry on a last line that no newline ends, if there is such a line and it holds one. -/
def Slot.unfinished? : Slot → Option Entry
  | .file bytes => (decodeUtf8? (bytes.drop (wholeLength bytes))).bind entryOn?
  | _ => none

section Unfinished

variable {slot : Slot} {whole part : List Char} (hText : slot.text = .ok (whole ++ part))
  (hWhole : IsWholeLines whole) (hPart : '\n' ∉ part)
include hText hWhole hPart

theorem Slot.repaired_of_text : slot.repaired = .ok (encodeUtf8 whole) := by
  cases slot with
  | missing =>
      obtain ⟨rfl, -⟩ := List.append_eq_nil_iff.mp (Except.ok.inj hText).symm
      rfl
  | file bytes =>
      obtain rfl := text_file_eq_ok_iff.mp hText
      rw [Slot.repaired, encodeUtf8_append,
        wholeLines_append (isWhole_encodeUtf8 hWhole) (newline_notMem_encodeUtf8 hPart)]
  | directory => cases hText

/-- The unfinished entry is what can be read from the line at the end. -/
theorem Slot.unfinished?_of_text : slot.unfinished? = entryOn? part := by
  cases slot with
  | missing =>
      obtain ⟨-, rfl⟩ := List.append_eq_nil_iff.mp (Except.ok.inj hText).symm
      rfl
  | file bytes =>
      obtain rfl := text_file_eq_ok_iff.mp hText
      have hCut := wholeLines_append (isWhole_encodeUtf8 hWhole) (newline_notMem_encodeUtf8 hPart)
      have hRest := List.take_append_drop (wholeLength (encodeUtf8 whole ++ encodeUtf8 part))
        (encodeUtf8 whole ++ encodeUtf8 part)
      rw [← wholeLines, hCut] at hRest
      rw [Slot.unfinished?, encodeUtf8_append, List.append_cancel_left hRest, decodeUtf8?_encodeUtf8,
        Option.bind_some]
  | directory => cases hText

end Unfinished

/-- A line without its newline is read, and cut off all the same. -/
theorem exists_text_unfinished {entries : List Entry} {last : Entry}
    (h : ∀ entry ∈ entries ++ [last], entry.timestamp.WellFormed) :
    ∃ text, (Slot.file (fileOf entries ++ encodeUtf8 last.encode)).text = .ok text ∧
      entriesOf text = entries ++ [last] := by
  rw [List.forall_mem_append, List.forall_mem_singleton] at h
  obtain ⟨hEntries, hLast⟩ := h
  have hWhole : IsWholeLines ((entries.map Entry.encode).flatMap (· ++ ['\n'])) :=
    isWholeLines_of_isWhole (fileOf_eq_encodeUtf8 entries ▸ isWhole_fileOf entries)
  refine ⟨(entries.map Entry.encode).flatMap (· ++ ['\n']) ++ last.encode, ?_, ?_⟩
  · rw [text_file_eq_ok_iff, encodeUtf8_append, fileOf_eq_encodeUtf8]
  · rw [entriesOf_append hWhole, entriesOf_lines hEntries, entriesOf_of_notMem (isLine_encode last).1,
      entryOn?_encode hLast, Option.toList_some]

namespace Event

/-- What the store does itself: it opens the log and appends to it, whether or not that succeeds. -/
def IsOwn : Event → Prop
  | open_ => True
  | append _ _ _ => True
  | refuse _ _ => True
  | truncate _ => False
  | addRaw _ => False

instance : DecidablePred IsOwn
  | open_ => isTrue trivial
  | append _ _ _ => isTrue trivial
  | refuse _ _ => isTrue trivial
  | truncate _ => isFalse id
  | addRaw _ => isFalse id

/-- As long as its whole lines are a text, the store leaves them so, and a file that it opened or wrote
to with success is a text as it stands. -/
theorem exists_repaired_apply (path : List Char) {state : State} {text : List Char}
    (h : state.slot.repaired = .ok (encodeUtf8 text)) {event : Event} (hOwn : event.IsOwn) :
    ∃ after, (event.apply path state).2.slot.repaired = .ok (encodeUtf8 after) ∧
      ((event.apply path state).1 = true →
        ∃ store, (event.apply path state).2 = ⟨some store, .file (encodeUtf8 after)⟩) := by
  obtain ⟨opened, slot⟩ := state
  have hWhole : IsWholeLines text := isWholeLines_of_isWhole (Slot.isWhole_of_repaired h)
  have hSame : (Slot.file (encodeUtf8 text)).repaired = .ok (encodeUtf8 text) := by
    rw [Slot.repaired, (isWhole_encodeUtf8 hWhole).wholeLines_eq]
  cases event with
  | open_ =>
      simp only [Event.apply, Store.open_, h, text_file_eq_ok_iff.mpr rfl]
      cases Cursor.behind? (entriesOf text) with
      | none => exact ⟨text, hSame, fun hDone => Bool.noConfusion hDone⟩
      | some cursor => exact ⟨text, hSame, fun _ => ⟨_, rfl⟩⟩
  | append attempt now fate =>
      cases opened with
      | none => exact ⟨text, h, fun hDone => Bool.noConfusion hDone⟩
      | some store =>
          by_cases hExhausted : store.IsExhausted
          · rw [Event.apply_exhausted rfl path rfl hExhausted]
            exact ⟨text, h, fun hDone => Bool.noConfusion hDone⟩
          obtain ⟨spent, hSpent, -⟩ := Store.exists_spends hExhausted (store.stamp attempt now)
          rw [State.append_eq h hSpent]
          obtain ⟨after, hAfter, _⟩ := exists_spells_write hWhole (store.stamp attempt now) fate
          cases fate with
          | succeeds =>
              obtain ⟨hLines, _⟩ := reads_line hWhole (store.stamp attempt now) rfl
              refine ⟨_, hLines.repaired, fun _ => ⟨_, congrArg (State.mk _) ?_⟩⟩
              rw [Slot.write, lineOf_eq_encodeUtf8, ← encodeUtf8_append]
          | fails reached cause rollsBack =>
              refine ⟨after, hAfter.repaired, fun hDone => ?_⟩
              cases rollsBack <;> exact Bool.noConfusion hDone
  | refuse attempt now => exact ⟨text, h, fun hDone => Bool.noConfusion hDone⟩
  | truncate length => exact hOwn.elim
  | addRaw bytes => exact hOwn.elim

end Event

/-- A run of the log itself leaves a text behind the repair. -/
theorem State.exists_repaired_run (path : List Char) {state : State} {text : List Char}
    (h : state.slot.repaired = .ok (encodeUtf8 text)) {events : List Event}
    (hOwn : ∀ event ∈ events, event.IsOwn) :
    ∃ after, (state.run path events).slot.repaired = .ok (encodeUtf8 after) := by
  induction events generalizing state text with
  | nil => exact ⟨text, h⟩
  | cons event events ih =>
      obtain ⟨hHead, hTail⟩ := List.forall_mem_cons.mp hOwn
      obtain ⟨after, hAfter, _⟩ := Event.exists_repaired_apply path h hHead
      exact ih hAfter hTail

/-- Whole lines of a text stand at the beginning of every text that the store makes of its file. -/
theorem State.exists_append_run (path : List Char) {store : Store} {slot : Slot}
    {whole part after : List Char} (hText : slot.text = .ok (whole ++ part)) (hWhole : IsWholeLines whole)
    {events : List Event} (hOwn : ∀ event ∈ events, event.IsOwn)
    (hAfter : (State.run path events ⟨some store, slot⟩).slot = .file (encodeUtf8 after)) :
    ∃ more, after = whole ++ more := by
  cases slot with
  | missing =>
      obtain ⟨rfl, -⟩ := List.append_eq_nil_iff.mp (Except.ok.inj hText).symm
      exact ⟨after, rfl⟩
  | file bytes =>
      obtain rfl := text_file_eq_ok_iff.mp hText
      have hKept : encodeUtf8 whole <+: encodeUtf8 (whole ++ part) := by
        rw [encodeUtf8_append]
        exact List.prefix_append _ _
      have hSlot : (State.mk (some store) (.file (encodeUtf8 (whole ++ part)))).slot =
          .file (encodeUtf8 (whole ++ part)) := rfl
      have hCut : ∀ length, Event.truncate length ∉ events := fun length hMem => hOwn _ hMem
      obtain ⟨bytes, hBytes, hStill⟩ :=
        State.run_keeps (isWhole_encodeUtf8 hWhole) path hSlot hKept hCut
      rw [hAfter] at hBytes
      obtain rfl := Slot.file.inj hBytes
      obtain ⟨more, rfl⟩ := isPrefix_of_encodeUtf8 hStill
      exact ⟨more, rfl⟩
  | directory => cases hText

/-- What a query shows of a file is shown again by every query after an opening or an append that
succeeded, whatever the store did in between and however that ended. Only the entry on a last line that
no newline ends may be missing then, so nothing is where there is no such entry. -/
theorem query_keepsShown {path : List Char} {store : Store} {slot : Slot} {shown : List Entry}
    {events : List Event} {event : Event} {final : State}
    (hShown : store.query slot .all = .ok shown) (hOwn : ∀ next ∈ events ++ [event], next.IsOwn)
    (hDone : event.apply path (State.run path events ⟨some store, slot⟩) = (true, final)) :
    ∃ current later, final.store = some current ∧ current.query final.slot .all = .ok later ∧
      shown.Subperm (slot.unfinished?.toList ++ later) := by
  obtain ⟨text, hText, rfl⟩ := Store.exists_text_of_query hShown
  obtain ⟨whole, part, rfl, hWhole, hPart⟩ := exists_isWholeLines_append text
  obtain ⟨hEvents, hEvent⟩ := List.forall_mem_append.mp hOwn
  have hStart : (State.mk (some store) slot).slot.repaired = .ok (encodeUtf8 whole) :=
    Slot.repaired_of_text hText hWhole hPart
  obtain ⟨before, hBefore⟩ := State.exists_repaired_run path hStart hEvents
  obtain ⟨after, -, hSuccess⟩ := Event.exists_repaired_apply path hBefore (hEvent event (by simp))
  rw [hDone] at hSuccess
  obtain ⟨current, rfl⟩ := hSuccess rfl
  -- The last event was a success, so its file is a text, which still starts with the whole lines.
  have hRun : (State.run path (events ++ [event]) ⟨some store, slot⟩).slot =
      .file (encodeUtf8 after) := by
    rw [State.run, List.foldl_append]
    exact congrArg (fun result => result.2.slot) hDone
  obtain ⟨more, rfl⟩ := State.exists_append_run path hText hWhole hOwn hRun
  refine ⟨current, _, rfl, current.query_all_of_text (text_file_eq_ok_iff.mpr rfl), ?_⟩
  rw [Slot.unfinished?_of_text hText hWhole hPart, entriesOf_append hWhole part,
    entriesOf_of_notMem hPart, entriesOf_append hWhole more]
  have hShownPerm := Query.perm_answer_all (entriesOf whole ++ (entryOn? part).toList)
  have hLaterPerm := Query.perm_answer_all (entriesOf whole ++ entriesOf more)
  have hKept : (entryOn? part).toList ++ entriesOf whole <+~
      (entryOn? part).toList ++ (entriesOf whole ++ entriesOf more) :=
    ((List.sublist_append_left _ _).append_left _).subperm
  exact ((hShownPerm.trans List.perm_append_comm).subperm.trans hKept).trans
    (hLaterPerm.symm.append_left _).subperm

/-- An unfinished line is shown. A write that breaks off and a reopening behind it keep what stood on
ended lines. -/
theorem query_keepsShown_unfinished :
    let path := "actions.jsonl".toList
    let ban := Attempt.success .ban "sshd".toList "192.0.2.1".toList
    let kept : Entry := ⟨1, ⟨1714525200, 0⟩, ban⟩
    let lost : Entry := ⟨7, ⟨1714525323, 0⟩, ban⟩
    let store : Store := ⟨path, ⟨2, some kept.timestamp⟩⟩
    let slot := Slot.file (fileOf [kept] ++ encodeUtf8 lost.encode)
    let events : List Event := [.append ban ⟨1714525380, 0⟩ (.fails 3 .isDirectory false)]
    let final : State := ⟨some store, .file (fileOf [kept])⟩
    store.query slot .all = .ok [kept, lost] ∧ (∀ next ∈ events ++ [Event.open_], next.IsOwn) ∧
    Event.open_.apply path (State.run path events ⟨some store, slot⟩) = (true, final) ∧
    ∃ current later, final.store = some current ∧ current.query final.slot .all = .ok later ∧
      [kept, lost].Subperm (slot.unfinished?.toList ++ later) := by
  intro path ban kept lost store slot events final
  obtain ⟨text, hText, hEntries⟩ := exists_text_unfinished
    (by decide : ∀ entry ∈ [kept] ++ [lost], entry.timestamp.WellFormed)
  have hShown : store.query slot .all = .ok [kept, lost] := by
    rw [store.query_all_of_text hText, hEntries]
    exact congrArg Except.ok (Query.answer_all_of_inOrder (by decide))
  have hHolds : slot.Holds [kept] := ⟨_, newline_notMem_encode lost, rfl⟩
  have hBroken : (State.run path events ⟨some store, slot⟩).slot =
      .file (fileOf [kept] ++ (Store.lineOf (store.stamp ban ⟨1714525380, 0⟩)).take 3) := by
    have hSpent : store.spend? (store.stamp ban ⟨1714525380, 0⟩) =
        some ⟨path, ⟨3, some ⟨1714525380, 0⟩⟩⟩ := by decide
    rw [State.run, List.foldl_cons, List.foldl_nil, State.append_eq hHolds.repaired hSpent]
    rfl
  have hStill : (State.run path events ⟨some store, slot⟩).slot.Holds [kept] := by
    rw [hBroken]
    exact ⟨_, by decide +kernel, rfl⟩
  have hDone : Event.open_.apply path (State.run path events ⟨some store, slot⟩) = (true, final) := by
    have hCursor : Cursor.behind? [kept] = some store.cursor := by decide
    rw [Event.apply, Store.open_eq hStill (by decide) hCursor]
  have hOwn : ∀ next ∈ events ++ [Event.open_], next.IsOwn := by decide
  exact ⟨hShown, hOwn, hDone, query_keepsShown hShown hOwn hDone⟩

/-- An entry that was shown on an unfinished line is gone after the next append. -/
theorem query_losesUnfinished :
    let path := "actions.jsonl".toList
    let ban := Attempt.success .ban "sshd".toList "192.0.2.1".toList
    let kept : Entry := ⟨1, ⟨1714525200, 0⟩, ban⟩
    let lost : Entry := ⟨7, ⟨1714525323, 0⟩, ban⟩
    let new : Entry := ⟨2, ⟨1714525380, 0⟩, ban⟩
    let events : List Event :=
      [.open_, .append ban kept.timestamp .succeeds, .addRaw (encodeUtf8 lost.encode)]
    ∃ store slot current after, State.run path events .fresh = ⟨some store, slot⟩ ∧
      store.query slot .all = .ok [kept, lost] ∧
      store.append slot ban new.timestamp .succeeds = (.ok new, current, after) ∧
      current.query after .all = .ok [kept, new] ∧ lost ∉ [kept, new] := by
  intro path ban kept lost new events
  let store : Store := ⟨path, ⟨2, some kept.timestamp⟩⟩
  have hNew : store.stamp ban new.timestamp = new := by decide
  have hFile : State.run path events .fresh =
      ⟨some store, .file (fileOf [kept] ++ encodeUtf8 lost.encode)⟩ := by
    let opened : Store := ⟨path, ⟨1, none⟩⟩
    have hCursor : Cursor.behind? [] = some opened.cursor := rfl
    have hOpen : Event.open_.apply path .fresh = (true, ⟨some opened, .file (fileOf [])⟩) :=
      State.consistent_fresh.open_eq hCursor
    have hSpent : opened.spend? (opened.stamp ban kept.timestamp) = some store := by decide
    have hFirst := Store.append_succeeds (Slot.holds_fileOf []) hSpent
    simp only [events, State.run, List.foldl_cons, List.foldl_nil, hOpen]
    simp only [Event.apply, hFirst]
    rfl
  have hHolds : (Slot.file (fileOf [kept] ++ encodeUtf8 lost.encode)).Holds [kept] :=
    ⟨_, newline_notMem_encode lost, rfl⟩
  obtain ⟨before, hBefore, hShown⟩ := exists_text_unfinished
    (by decide : ∀ entry ∈ [kept] ++ [lost], entry.timestamp.WellFormed)
  obtain ⟨after, hAfter, hLater⟩ := exists_text_fileOf
    (by decide : ∀ entry ∈ [kept] ++ [new], entry.timestamp.WellFormed)
  have hSpent : store.spend? (store.stamp ban new.timestamp) =
      some ⟨path, ⟨3, some new.timestamp⟩⟩ := by decide
  have hAppend := hNew ▸ Store.append_succeeds hHolds hSpent
  refine ⟨store, _, _, _, hFile, ?_, hAppend, ?_, by decide⟩
  · rw [Store.query_all_of_text _ hBefore, hShown]
    exact congrArg Except.ok (Query.answer_all_of_inOrder (by decide))
  · rw [Store.query_all_of_text _ hAfter, hLater]
    exact congrArg Except.ok (Query.answer_all_of_inOrder (by decide))

end BanBoard.Log
