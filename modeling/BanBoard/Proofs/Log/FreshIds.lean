import BanBoard.Proofs.Log.History
import BanBoard.Proofs.Log.TornEntry

/-!
Numbers that are new to a file. Whatever bytes a log was opened on, the number that is given out next is
greater than that of every entry that can be read from the file at that moment. When the numbers have run
out, nothing is given out any more.
-/

namespace BanBoard.Log

open BanBoard.Text
open BanBoard.Time (Instant)

/-- The entries that can be read from a file, with a torn line at its end or without it. -/
def Slot.Reads (slot : Slot) (entries : List Entry) : Prop :=
  ∃ bytes text, (slot = .file bytes ∨ slot.repaired = .ok bytes) ∧
    (Slot.file bytes).text = .ok text ∧ entriesOf text = entries

section Torn

variable {text : List Char} {torn : List UInt8}

/-- Behind whole lines, at most one entry is read from a torn line. -/
theorem Slot.Reads.eq_append (hWhole : IsWholeLines text) (hTorn : newline ∉ torn)
    {entries : List Entry} (h : (Slot.file (encodeUtf8 text ++ torn)).Reads entries) :
    ∃ part, encodeUtf8 part <+: torn ∧ entries = entriesOf text ++ (entryOn? part).toList := by
  obtain ⟨bytes, read, hBytes, hText, rfl⟩ := h
  obtain rfl := text_file_eq_ok_iff.mp hText
  rcases hBytes with hFile | hRepaired
  · obtain hBytes : encodeUtf8 text ++ torn = encodeUtf8 read := Slot.file.inj hFile
    obtain ⟨part, rfl⟩ := isPrefix_of_encodeUtf8 ⟨torn, hBytes⟩
    rw [encodeUtf8_append] at hBytes
    obtain rfl := List.append_cancel_left hBytes
    have hPart : '\n' ∉ part := fun hMem => hTorn (newline_mem_encodeUtf8 hMem)
    exact ⟨part, List.prefix_refl _, by rw [entriesOf_append hWhole, entriesOf_of_notMem hPart]⟩
  · rw [Slot.repaired, wholeLines_append (isWhole_encodeUtf8 hWhole) hTorn] at hRepaired
    obtain rfl := encodeUtf8_injective (Except.ok.inj hRepaired)
    exact ⟨[], List.nil_prefix, (List.append_nil _).symm⟩

/-- From whole lines, only their entries are read. -/
theorem Slot.Reads.eq_entriesOf (hWhole : IsWholeLines text) {entries : List Entry}
    (h : (Slot.file (encodeUtf8 text)).Reads entries) : entries = entriesOf text := by
  rw [← List.append_nil (encodeUtf8 text)] at h
  obtain ⟨part, hPart, rfl⟩ := h.eq_append hWhole List.not_mem_nil
  obtain rfl := List.prefix_nil.mp (isPrefix_of_encodeUtf8 (t := []) hPart)
  exact List.append_nil _

end Torn

/-- Entries with further ones behind them, whose numbers increase from `first` on and stay below
`next`. -/
def Extends (first next : Nat) (old entries : List Entry) : Prop :=
  ∃ written, entries = old ++ written ∧ written.Pairwise (fun a b => a.id < b.id) ∧
    ∀ new ∈ written, first ≤ new.id.toNat ∧ new.id.toNat < next

namespace Extends

variable {first next : Nat} {old entries : List Entry}

theorem refl (first next : Nat) (old : List Entry) : Extends first next old old :=
  ⟨[], (List.append_nil _).symm, List.Pairwise.nil, List.forall_mem_nil _⟩

/-- A number that is spent on nothing leaves the entries as they are. -/
theorem succ (h : Extends first next old entries) : Extends first (next + 1) old entries := by
  obtain ⟨written, hEntries, hOrder, hRange⟩ := h
  exact ⟨written, hEntries, hOrder, fun new hMem =>
    ⟨(hRange new hMem).1, Nat.lt_succ_of_lt (hRange new hMem).2⟩⟩

/-- An entry with the next number stands behind all others. -/
theorem concat (h : Extends first next old entries) (hFirst : first ≤ next) {entry : Entry}
    (hId : entry.id.toNat = next) : Extends first (next + 1) old (entries ++ [entry]) := by
  obtain ⟨written, rfl, hOrder, hRange⟩ := h
  refine ⟨written ++ [entry], List.append_assoc _ _ _, ?_, ?_⟩
  · refine List.pairwise_append.mpr ⟨hOrder, List.pairwise_singleton _ _, fun new hMem last hLast => ?_⟩
    rw [List.mem_singleton.mp hLast, UInt64.lt_iff_toNat_lt, hId]
    exact (hRange new hMem).2
  · rw [List.forall_mem_append, List.forall_mem_singleton, hId]
    exact ⟨fun new hMem => ⟨(hRange new hMem).1, Nat.lt_succ_of_lt (hRange new hMem).2⟩, hFirst,
      Nat.lt_succ_self next⟩

/-- What is read from the beginning of a line counts as the entry of that line. -/
theorem append_part (h : Extends first next old entries) (hFirst : first ≤ next) {entry : Entry}
    (hId : entry.id.toNat = next) {part : List Char} (hPart : part <+: entry.encode) :
    Extends first (next + 1) old (entries ++ (entryOn? part).toList) := by
  cases hRead : entryOn? part with
  | none =>
      rw [Option.toList_none, List.append_nil]
      exact h.succ
  | some read =>
      rw [Option.toList_some]
      exact h.concat hFirst ((congrArg UInt64.toNat (id_of_mem_entryOn? hPart hRead)).trans hId)

/-- All numbers, old and new, are below the next one. -/
theorem id_lt (h : Extends first next old entries) (hOld : ∀ entry ∈ old, entry.id.toNat < first)
    (hFirst : first ≤ next) : ∀ entry ∈ entries, entry.id.toNat < next := by
  obtain ⟨written, rfl, _, hRange⟩ := h
  exact List.forall_mem_append.mpr
    ⟨fun entry hMem => Nat.lt_of_lt_of_le (hOld entry hMem) hFirst, fun new hMem => (hRange new hMem).2⟩

end Extends

/-- A file of whole lines, with at most a torn line behind them. -/
def Slot.Spells (text : List Char) (slot : Slot) : Prop :=
  IsWholeLines text ∧ ∃ torn, newline ∉ torn ∧ slot = .file (encodeUtf8 text ++ torn)

/-- Repairing cuts the torn line and nothing else. -/
theorem Slot.Spells.repaired {text : List Char} {slot : Slot} (h : slot.Spells text) :
    slot.repaired = .ok (encodeUtf8 text) := by
  obtain ⟨hWhole, torn, hTorn, rfl⟩ := h
  rw [Slot.repaired, wholeLines_append (isWhole_encodeUtf8 hWhole) hTorn]

/-- The entries of the whole lines are read once the torn line is cut. -/
theorem Slot.Spells.reads {text : List Char} {slot : Slot} (h : slot.Spells text) :
    slot.Reads (entriesOf text) :=
  ⟨encodeUtf8 text, text, Or.inr h.repaired, text_file_eq_ok_iff.mpr rfl, rfl⟩

/-- A part of a line, written behind whole lines. -/
theorem reads_part {text : List Char} (hWhole : IsWholeLines text) {entry : Entry} {torn : List UInt8}
    (hTorn : torn <+: encodeUtf8 entry.encode) {slot : Slot}
    (hSlot : slot = .file (encodeUtf8 text ++ torn)) :
    slot.Spells text ∧ ∀ entries, slot.Reads entries →
      ∃ part, part <+: entry.encode ∧ entries = entriesOf text ++ (entryOn? part).toList := by
  subst hSlot
  have hNone : newline ∉ torn := fun hMem => newline_notMem_encode entry (hTorn.subset hMem)
  refine ⟨⟨hWhole, torn, hNone, rfl⟩, fun entries hReads => ?_⟩
  obtain ⟨part, hPart, hEntries⟩ := hReads.eq_append hWhole hNone
  exact ⟨part, isPrefix_of_encodeUtf8 (hPart.trans hTorn), hEntries⟩

/-- A whole line, written behind whole lines. -/
theorem reads_line {text : List Char} (hWhole : IsWholeLines text) (entry : Entry) {slot : Slot}
    (hSlot : slot = .file (encodeUtf8 text ++ Store.lineOf entry)) :
    slot.Spells (text ++ (entry.encode ++ ['\n'])) ∧ ∀ entries, slot.Reads entries →
      ∃ part, part <+: entry.encode ∧ entries = entriesOf text ++ (entryOn? part).toList := by
  have hLines := isWholeLines_append text entry.encode
  rw [lineOf_eq_encodeUtf8, ← encodeUtf8_append] at hSlot
  subst hSlot
  refine ⟨⟨hLines, [], List.not_mem_nil, by rw [List.append_nil]⟩, fun entries hReads => ?_⟩
  rw [hReads.eq_entriesOf hLines, entriesOf_append hWhole, entriesOf_line]
  exact ⟨_, List.prefix_refl _, rfl⟩

/-- However the write of a line ends, at most the entry of this line is read behind what stood before. -/
theorem exists_spells_write {text : List Char} (hWhole : IsWholeLines text) (entry : Entry)
    (fate : WriteFate) :
    ∃ after, (Slot.write (encodeUtf8 text) (Store.lineOf entry) fate).2.Spells after ∧
      ∀ entries, (Slot.write (encodeUtf8 text) (Store.lineOf entry) fate).2.Reads entries →
        ∃ part, part <+: entry.encode ∧ entries = entriesOf text ++ (entryOn? part).toList := by
  rcases fate with _ | ⟨reached, cause, _ | _⟩
  · exact ⟨_, reads_line hWhole entry rfl⟩
  · rcases List.prefix_concat_iff.mp (List.take_prefix reached (Store.lineOf entry)) with hAll | hPart
    · exact ⟨_, reads_line hWhole entry (congrArg (fun line => Slot.file (encodeUtf8 text ++ line)) hAll)⟩
    · exact ⟨text, reads_part hWhole hPart rfl⟩
  · exact ⟨text, reads_part hWhole List.nil_prefix (by rw [Slot.write, List.append_nil])⟩

namespace State

/-- An open log whose next number is `next`, on a file with the entries `old`. Those that can be read
behind them are numbered from `first` on and below the next number. -/
structure Ahead (first next : Nat) (old : List Entry) (state : State) : Prop where
  first_le : first ≤ next
  nextId : ∃ store, state.store = some store ∧ store.cursor.nextId.toNat = next
  spells : ∃ text, state.slot.Spells text
  reads : ∀ entries, state.slot.Reads entries → Extends first next old entries

variable {first next : Nat} {old : List Entry} {state : State}

/-- An append takes the next number, or it is abandoned because there is no number behind it. -/
theorem Ahead.apply (h : Ahead first next old state) (path : List Char) {event : Event}
    (hAppends : event.appends = 1) : ∃ later, Ahead first later old (event.apply path state).2 := by
  obtain ⟨opened, slot⟩ := state
  obtain ⟨hFirst, ⟨store, rfl, hId⟩, ⟨text, hSpells⟩, hReads⟩ := id h
  by_cases hExhausted : store.IsExhausted
  · rw [Event.apply_exhausted hAppends path rfl hExhausted]
    exact ⟨next, h⟩
  cases event with
  | append attempt now fate =>
      obtain ⟨spent, hSpent, hSpends⟩ := Store.exists_spends hExhausted (store.stamp attempt now)
      obtain ⟨after, hAfter, hParts⟩ := exists_spells_write hSpells.1 (store.stamp attempt now) fate
      rw [append_eq hSpells.repaired hSpent]
      refine ⟨next + 1, Nat.le_succ_of_le hFirst, ⟨_, rfl, hId ▸ hSpends.nextId_eq.symm⟩,
        ⟨after, hAfter⟩, fun entries hRead => ?_⟩
      -- A torn line from an earlier write is gone, so the entries before are those of the whole lines.
      obtain ⟨part, hPart, rfl⟩ := hParts entries hRead
      exact (hReads _ hSpells.reads).append_part hFirst hId hPart
  | refuse attempt now =>
      obtain ⟨spent, hSpent, hSpends⟩ := Store.exists_spends hExhausted (store.stamp attempt now)
      rw [Event.apply, Option.map_some, hSpent, Option.getD_some]
      exact ⟨next + 1, Nat.le_succ_of_le hFirst, ⟨_, rfl, hId ▸ hSpends.nextId_eq.symm⟩,
        ⟨text, hSpells⟩, fun entries hRead => (hReads entries hRead).succ⟩
  | open_ => cases hAppends
  | truncate length => cases hAppends
  | addRaw bytes => cases hAppends

/-- A run of appends stays ahead, with some next number at its end. -/
theorem Ahead.run (h : Ahead first next old state) (path : List Char) {events : List Event}
    (hAppends : ∀ event ∈ events, event.appends = 1) :
    ∃ later, Ahead first later old (state.run path events) := by
  induction events generalizing next state with
  | nil => exact ⟨next, h⟩
  | cons event events ih =>
      obtain ⟨hHead, hTail⟩ := List.forall_mem_cons.mp hAppends
      obtain ⟨middle, hMiddle⟩ := h.apply path hHead
      exact ih hMiddle hTail

end State

/-- What a repair leaves ends with a whole line. -/
theorem Slot.isWhole_of_repaired {slot : Slot} {whole : List UInt8} (h : slot.repaired = .ok whole) :
    IsWhole whole := by
  cases slot with
  | missing =>
      obtain rfl := Except.ok.inj h
      exact Or.inl rfl
  | file bytes =>
      obtain rfl := Except.ok.inj h
      exact (isWholePart_wholeLines bytes).isWhole
  | directory => cases h

/-- An opened log lies on whole lines, and its cursor behind their entries. -/
theorem Store.open_eq_ok {path : List Char} {before slot : Slot} {store : Store}
    (h : Store.open_ path before = (.ok store, slot)) :
    ∃ text, IsWholeLines text ∧ slot = .file (encodeUtf8 text) ∧ store.path = path ∧
      Cursor.behind? (entriesOf text) = some store.cursor := by
  rw [Store.open_] at h
  cases hRepaired : before.repaired with
  | error cause =>
      rw [hRepaired] at h
      cases h
  | ok whole =>
      rw [hRepaired] at h
      dsimp only at h
      cases hText : (Slot.file whole).text with
      | error cause =>
          rw [hText] at h
          cases h
      | ok text =>
          rw [hText] at h
          obtain rfl := text_file_eq_ok_iff.mp hText
          dsimp only at h
          cases hCursor : Cursor.behind? (entriesOf text) with
          | none =>
              rw [hCursor] at h
              cases h
          | some cursor =>
              rw [hCursor] at h
              obtain ⟨hStore, hSlot⟩ := Prod.mk.inj h
              obtain rfl := Except.ok.inj hStore
              exact ⟨text, isWholeLines_of_isWhole (Slot.isWhole_of_repaired hRepaired), hSlot.symm, rfl,
                hCursor⟩

/-- An opened log is ahead of the entries on which it was opened. -/
theorem State.ahead_open {path : List Char} {before slot : Slot} {store : Store} {old : List Entry}
    (hOpen : Store.open_ path before = (.ok store, slot)) (hOld : slot.Reads old) :
    ∃ next, State.Ahead next next old ⟨some store, slot⟩ ∧ ∀ entry ∈ old, entry.id.toNat < next := by
  obtain ⟨text, hWhole, rfl, -, hCursor⟩ := Store.open_eq_ok hOpen
  obtain rfl := hOld.eq_entriesOf hWhole
  have hBehind := Cursor.isBehind_of_behind? hCursor
  refine ⟨_, ⟨Nat.le_refl _, ⟨store, rfl, rfl⟩, ?_, fun entries hReads => ?_⟩, hBehind.id_lt⟩
  · exact ⟨text, hWhole, [], List.not_mem_nil, by rw [List.append_nil]⟩
  · rw [hReads.eq_entriesOf hWhole]
    exact Extends.refl _ _ _

/-- A log that was opened on any file gives each entry a number greater than that of every entry that can
be read at that moment, and what can be read in the end are the old entries and behind them new ones with
increasing numbers, each greater than every old one. This holds for any appends, failing ones included. An
append for which there is no number left fails and changes nothing. -/
theorem append_getsFreshId {path : List Char} {before slot : Slot} {store : Store} {old : List Entry}
    {events : List Event} (hOpen : Store.open_ path before = (.ok store, slot))
    (hOld : slot.Reads old) (hAppends : ∀ event ∈ events, event.appends = 1) :
    (∀ earlier event later, events = earlier ++ event :: later →
      ∃ current, (State.run path earlier ⟨some store, slot⟩).store = some current ∧
        (∀ entries, (State.run path earlier ⟨some store, slot⟩).slot.Reads entries →
          ∀ entry ∈ entries, ∀ attempt now, entry.id < (current.stamp attempt now).id) ∧
        (current.IsExhausted →
          event.apply path (State.run path earlier ⟨some store, slot⟩) =
            (false, State.run path earlier ⟨some store, slot⟩))) ∧
    ∀ entries, (State.run path events ⟨some store, slot⟩).slot.Reads entries →
      ∃ written, entries = old ++ written ∧ written.Pairwise (fun a b => a.id < b.id) ∧
        ∀ entry ∈ old, ∀ new ∈ written, entry.id < new.id := by
  obtain ⟨first, hAhead, hBelow⟩ := State.ahead_open hOpen hOld
  constructor
  · rintro earlier event later rfl
    rw [List.forall_mem_append, List.forall_mem_cons] at hAppends
    obtain ⟨next, hRun⟩ := hAhead.run path hAppends.1
    obtain ⟨current, hStore, hId⟩ := hRun.nextId
    refine ⟨current, hStore, fun entries hReads entry hMem attempt now => ?_, fun hExhausted => ?_⟩
    · rw [UInt64.lt_iff_toNat_lt, Store.stamp, hId]
      exact (hRun.reads entries hReads).id_lt hBelow hRun.first_le entry hMem
    · exact Event.apply_exhausted hAppends.2.1 path hStore hExhausted
  · intro entries hReads
    obtain ⟨next, hRun⟩ := hAhead.run path hAppends
    obtain ⟨written, hEntries, hOrder, hRange⟩ := hRun.reads entries hReads
    refine ⟨written, hEntries, hOrder, fun entry hMem new hNew => ?_⟩
    exact UInt64.lt_iff_toNat_lt.mpr (Nat.lt_of_lt_of_le (hBelow entry hMem) (hRange new hNew).1)

theorem Slot.reads_fileOf {entries : List Entry}
    (h : ∀ entry ∈ entries, entry.timestamp.WellFormed) : (Slot.file (fileOf entries)).Reads entries := by
  obtain ⟨text, hText, hEntries⟩ := exists_text_fileOf h
  exact ⟨fileOf entries, text, Or.inl rfl, hText, hEntries⟩

/-- Numbers in no order and with a repetition, a torn line behind them, and then appends of which one
fails, one takes the last number but one, and one finds none left. -/
theorem append_getsFreshId_tornLine :
    let path := "actions.jsonl".toList
    let ban := Attempt.success .ban "sshd".toList "192.0.2.1".toList
    let old : List Entry :=
      [⟨18446744073709551612, ⟨1714525323, 0⟩, ban⟩, ⟨4, ⟨1714525200, 0⟩, ban⟩,
        ⟨4, ⟨1714525200, 0⟩, ban⟩]
    let store : Store := ⟨path, ⟨18446744073709551613, some ⟨1714525323, 0⟩⟩⟩
    let slot := Slot.file (fileOf old)
    let torn : Event := .append ban ⟨1714525323, 0⟩ (.fails 60 .isDirectory false)
    let good : Event := .append ban ⟨1714525100, 0⟩ .succeeds
    let events := [torn, good, good]
    let runOf := fun events => State.run path events ⟨some store, slot⟩
    Store.open_ path (.file (fileOf old ++ [0x7B, 0xC3])) = (.ok store, slot) ∧ slot.Reads old ∧
    (∀ event ∈ events, event.appends = 1) ∧
    ((runOf [torn]).store.map fun current => current.cursor.nextId) = some 18446744073709551614 ∧
    (∀ entries, (runOf [torn]).slot.Reads entries →
      ∀ entry ∈ entries, entry.id < 18446744073709551614) ∧
    runOf events = runOf [torn, good] ∧
    ∀ entries, (runOf events).slot.Reads entries →
      ∃ written, entries = old ++ written ∧ written.Pairwise (fun a b => a.id < b.id) ∧
        ∀ entry ∈ old, ∀ new ∈ written, entry.id < new.id := by
  intro path ban old store slot torn good events runOf
  have hTimes : ∀ entry ∈ old, entry.timestamp.WellFormed := by decide
  have hHolds : (Slot.file (fileOf old ++ [0x7B, 0xC3])).Holds old := ⟨_, by decide, rfl⟩
  have hCursor : Cursor.behind? old = some store.cursor := by decide
  have hOpen := Store.open_eq hHolds hTimes hCursor path
  have hOld : slot.Reads old := Slot.reads_fileOf hTimes
  have hAppends : ∀ event ∈ events, event.appends = 1 := by decide
  obtain ⟨hSteps, hRead⟩ := append_getsFreshId hOpen hOld hAppends
  have hTorn : ((runOf [torn]).store.map fun current => current.cursor.nextId) =
      some 18446744073709551614 := by decide +kernel
  have hGood : ((runOf [torn, good]).store.map fun current => current.cursor.nextId) =
      some 18446744073709551615 := by decide +kernel
  obtain ⟨current, hCurrent, hFresh, -⟩ := hSteps [torn] good [good] rfl
  obtain ⟨last, hLast, -, hRefused⟩ := hSteps [torn, good] good [] rfl
  have hId : current.cursor.nextId = 18446744073709551614 :=
    Option.some.inj ((congrArg (Option.map _) hCurrent).symm.trans hTorn)
  have hLastId : last.cursor.nextId = 18446744073709551615 :=
    Option.some.inj ((congrArg (Option.map _) hLast).symm.trans hGood)
  have hExhausted : last.IsExhausted := by
    rw [Store.IsExhausted, hLastId]
    rfl
  have hSame := congrArg Prod.snd (hRefused hExhausted)
  refine ⟨hOpen, hOld, hAppends, hTorn, fun entries hReads entry hMem => ?_, hSame, hRead⟩
  exact hId ▸ hFresh entries hReads entry hMem ban ⟨0, 0⟩

end BanBoard.Log
