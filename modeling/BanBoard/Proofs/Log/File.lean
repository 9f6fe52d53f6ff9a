import BanBoard.Proofs.Log.Order
import BanBoard.Proofs.Log.WholeLines
import BanBoard.Proofs.StoredRecord
import BanBoard.Proofs.Text.Split
import BanBoard.Proofs.Text.Utf8

/-!
The bytes of a log file. They are the lines of some entries and behind them a part without a newline,
which only a torn write, a crash or a stranger leaves. Whatever is cut off at the end, what remains has
that form again, and the whole lines of it hold exactly those entries.
-/

namespace BanBoard.Log

open BanBoard.Files (Fault)
open BanBoard.Text
open BanBoard.Time (Instant)

def fileOf (entries : List Entry) : List UInt8 := entries.flatMap Store.lineOf

@[simp] theorem fileOf_nil : fileOf [] = [] := rfl

theorem fileOf_cons (entry : Entry) (entries : List Entry) :
    fileOf (entry :: entries) = Store.lineOf entry ++ fileOf entries :=
  List.flatMap_cons

/-- Files of entries are put together as the entries are. -/
theorem fileOf_append (entries later : List Entry) :
    fileOf (entries ++ later) = fileOf entries ++ fileOf later :=
  List.flatMap_append

theorem fileOf_singleton (entry : Entry) : fileOf [entry] = Store.lineOf entry :=
  List.flatMap_singleton _ _

theorem lineOf_eq_encodeUtf8 (entry : Entry) :
    Store.lineOf entry = encodeUtf8 (entry.encode ++ ['\n']) := by
  rw [encodeUtf8_append]
  rfl

theorem isLine_encode (entry : Entry) : IsLine entry.encode :=
  ⟨fun hMem => absurd (entry.isPrintable_encode _ hMem) (by decide),
    fun hMem => absurd (entry.isPrintable_encode _ hMem) (by decide)⟩

/-- A record has no newline of its own, because it is printable. -/
theorem newline_notMem_encode (entry : Entry) : newline ∉ encodeUtf8 entry.encode :=
  newline_notMem_encodeUtf8 (isLine_encode entry).1

theorem isWhole_lineOf (entry : Entry) : IsWhole (Store.lineOf entry) := isWhole_concat _

theorem isWhole_fileOf (entries : List Entry) : IsWhole (fileOf entries) := by
  induction entries with
  | nil => exact Or.inl rfl
  | cons entry entries ih => exact (isWhole_lineOf entry).append ih

/-- Whole lines, cut at any byte, are the first of these lines and a part of the next one without its
newline. -/
theorem exists_take_fileOf (entries : List Entry) (length : Nat) :
    ∃ kept torn, kept <+: entries ∧ newline ∉ torn ∧
      (fileOf entries).take length = fileOf kept ++ torn := by
  induction entries generalizing length with
  | nil => exact ⟨[], [], List.prefix_refl _, List.not_mem_nil, by simp⟩
  | cons entry entries ih =>
      rw [fileOf_cons, List.take_append]
      by_cases hLength : length < (Store.lineOf entry).length
      · have hText : length ≤ (encodeUtf8 entry.encode).length := by
          simpa [Store.lineOf, Nat.lt_succ_iff] using hLength
        refine ⟨[], (encodeUtf8 entry.encode).take length, List.nil_prefix, ?_, ?_⟩
        · exact fun hMem => newline_notMem_encode entry (List.mem_of_mem_take hMem)
        · rw [Nat.sub_eq_zero_of_le (Nat.le_of_lt hLength), Store.lineOf,
            List.take_append_of_le_length hText]
          simp
      · obtain ⟨kept, torn, hKept, hTorn, hTake⟩ := ih (length - (Store.lineOf entry).length)
        refine ⟨entry :: kept, torn, List.cons_prefix_cons.mpr ⟨rfl, hKept⟩, hTorn, ?_⟩
        rw [hTake, List.take_of_length_le (Nat.le_of_not_lt hLength), fileOf_cons, List.append_assoc]

/-- A file is a text just when its bytes are the encoding of one. -/
theorem text_file_eq_ok_iff {bytes : List UInt8} {text : List Char} :
    (Slot.file bytes).text = .ok text ↔ bytes = encodeUtf8 text := by
  rw [← decodeUtf8?_eq_some_iff, Slot.text]
  cases decodeUtf8? bytes <;> simp

/-- Whole lines of characters are whole lines of bytes. -/
theorem isWhole_encodeUtf8 {text : List Char} (h : IsWholeLines text) : IsWhole (encodeUtf8 text) := by
  rcases h with rfl | ⟨before, rfl⟩
  · exact Or.inl rfl
  · rw [encodeUtf8_append]
    exact isWhole_concat _

/-- The last byte of a text ends a line only where its last character does. -/
theorem isWholeLines_of_isWhole {text : List Char} (h : IsWhole (encodeUtf8 text)) :
    IsWholeLines text := by
  rcases List.eq_nil_or_concat text with rfl | ⟨before, c, rfl⟩
  · exact isWholeLines_nil
  · rw [List.concat_eq_append, encodeUtf8_append] at h
    have hSome : encodeUtf8 [c] ≠ [] := by
      rw [encodeUtf8_cons]
      exact List.append_ne_nil_of_left_ne_nil String.utf8EncodeChar_ne_nil _
    have hLast := h.resolve_left (List.append_ne_nil_of_right_ne_nil _ hSome)
    rw [List.getLast?_append, List.getLast?_eq_some_getLast hSome, Option.some_or,
      ← List.getLast?_eq_some_getLast hSome] at hLast
    have hNewline : c = '\n' := by
      by_contra hOther
      exact newline_notMem_encodeUtf8 (List.mem_singleton.not.mpr (Ne.symm hOther))
        (List.mem_of_getLast? hLast)
    exact Or.inr ⟨before, by rw [hNewline, List.concat_eq_append]⟩

/-- Whole lines keep their entries, whatever stands behind them. -/
theorem entriesOf_append {text : List Char} (h : IsWholeLines text) (rest : List Char) :
    entriesOf (text ++ rest) = entriesOf text ++ entriesOf rest := by
  rw [entriesOf, h.lines_append, List.filterMap_append]
  rfl

/-- A text without a newline holds at most one entry. -/
theorem entriesOf_of_notMem {part : List Char} (h : '\n' ∉ part) :
    entriesOf part = (entryOn? part).toList := by
  rw [entriesOf, lines_of_notMem h]
  cases part with
  | nil => rfl
  | cons c part => cases hEntry : entryOn? (c :: part) <;> simp [hEntry]

theorem entriesOf_line (entry : Entry) :
    entriesOf (entry.encode ++ ['\n']) = (entryOn? entry.encode).toList := by
  have hLines := lines_flatMap (List.forall_mem_singleton.mpr (isLine_encode entry))
  rw [List.flatMap_singleton] at hLines
  rw [entriesOf, hLines]
  cases hEntry : entryOn? entry.encode <;> simp [hEntry]

theorem fileOf_eq_encodeUtf8 (entries : List Entry) :
    fileOf entries = encodeUtf8 ((entries.map Entry.encode).flatMap (· ++ ['\n'])) := by
  induction entries with
  | nil => rfl
  | cons entry entries ih =>
      rw [fileOf_cons, ih, List.map_cons, List.flatMap_cons, encodeUtf8_append, encodeUtf8_append]
      rfl

/-- A line starts with a brace, so it is no blank line. -/
theorem entryOn?_encode {entry : Entry} (h : entry.timestamp.WellFormed) :
    entryOn? entry.encode = some entry := by
  have hBrace : entry.encode = '{' :: entry.encode.tail := rfl
  have hBlank : isBlankText entry.encode = false := by
    rw [hBrace, isBlankText, List.all_cons]
    rfl
  rw [entryOn?, hBlank]
  exact Entry.decode?_encode h

/-- The lines of some entries are read as those entries. -/
theorem entriesOf_lines {entries : List Entry}
    (h : ∀ entry ∈ entries, entry.timestamp.WellFormed) :
    entriesOf ((entries.map Entry.encode).flatMap (· ++ ['\n'])) = entries := by
  induction entries with
  | nil => rfl
  | cons entry entries ih =>
      obtain ⟨hHead, hTail⟩ := List.forall_mem_cons.mp h
      have hLine : IsWholeLines (entry.encode ++ ['\n']) := isWholeLines_append [] entry.encode
      rw [List.map_cons, List.flatMap_cons, entriesOf_append hLine, entriesOf_line,
        entryOn?_encode hHead, ih hTail, Option.toList_some, List.singleton_append]

/-- A file of whole lines is a text, and its entries are read back. -/
theorem exists_text_fileOf {entries : List Entry}
    (h : ∀ entry ∈ entries, entry.timestamp.WellFormed) :
    ∃ text, (Slot.file (fileOf entries)).text = .ok text ∧ entriesOf text = entries :=
  ⟨_, text_file_eq_ok_iff.mpr (fileOf_eq_encodeUtf8 entries), entriesOf_lines h⟩

namespace Slot

/-- Whether a file holds the lines of some entries and nothing else but a torn line behind them. -/
def Holds (entries : List Entry) : Slot → Prop
  | .missing => entries = []
  | .file bytes => ∃ torn, newline ∉ torn ∧ bytes = fileOf entries ++ torn
  | .directory => False

theorem holds_fileOf (entries : List Entry) : (Slot.file (fileOf entries)).Holds entries :=
  ⟨[], List.not_mem_nil, (List.append_nil _).symm⟩

variable {slot : Slot} {entries : List Entry}

/-- Repair leaves the whole lines. -/
theorem Holds.repaired (h : slot.Holds entries) : slot.repaired = .ok (fileOf entries) := by
  cases slot with
  | missing =>
      subst h
      rfl
  | file bytes =>
      obtain ⟨torn, hTorn, rfl⟩ := h
      rw [Slot.repaired, wholeLines_append (isWhole_fileOf entries) hTorn]
  | directory => exact h.elim

/-- A truncation keeps the entries of the lines that are still whole. -/
theorem Holds.truncate (h : slot.Holds entries) (length : Nat) :
    ∃ kept, kept <+: entries ∧ (slot.truncate length).Holds kept := by
  cases slot with
  | missing => exact ⟨entries, List.prefix_refl _, h⟩
  | file bytes =>
      obtain ⟨torn, hTorn, rfl⟩ := h
      rw [Slot.truncate, List.take_append]
      by_cases hLength : length ≤ (fileOf entries).length
      · obtain ⟨kept, part, hKept, hPart, hTake⟩ := exists_take_fileOf entries length
        refine ⟨kept, hKept, part, hPart, ?_⟩
        rw [Nat.sub_eq_zero_of_le hLength, hTake, List.take_zero, List.append_nil]
      · refine ⟨entries, List.prefix_refl _, torn.take (length - (fileOf entries).length), ?_, ?_⟩
        · exact fun hMem => hTorn (List.mem_of_mem_take hMem)
        · rw [List.take_of_length_le (Nat.le_of_not_le hLength)]
  | directory => exact h.elim

/-- Bytes behind the last line without a newline are a torn line. -/
theorem Holds.addRaw (h : slot.Holds entries) {bytes : List UInt8} (hBytes : newline ∉ bytes) :
    (slot.addRaw bytes).Holds entries := by
  cases slot with
  | missing =>
      subst h
      exact ⟨bytes, hBytes, rfl⟩
  | file before =>
      obtain ⟨torn, hTorn, rfl⟩ := h
      refine ⟨torn ++ bytes, fun hMem => ?_, List.append_assoc _ _ _⟩
      exact (List.mem_append.mp hMem).elim hTorn hBytes
  | directory => exact h.elim

/-- However a write ends, the entries before it stay, and the new entry is there or it is not. A
write that succeeded leaves whole lines alone. -/
theorem exists_holds_write (entries : List Entry) (entry : Entry) (fate : WriteFate) :
    ∃ kept, kept <+: entries ++ [entry] ∧
      (Slot.write (fileOf entries) (Store.lineOf entry) fate).2.Holds kept ∧
      ((Slot.write (fileOf entries) (Store.lineOf entry) fate).1.isOk = true →
        (Slot.write (fileOf entries) (Store.lineOf entry) fate).2 = .file (fileOf kept)) := by
  rcases fate with _ | ⟨reached, cause, _ | _⟩
  · refine ⟨entries ++ [entry], List.prefix_refl _, ?_⟩
    rw [Slot.write, ← fileOf_singleton, ← fileOf_append]
    exact ⟨holds_fileOf _, fun _ => rfl⟩
  · obtain ⟨kept, torn, hKept, hTorn, hTake⟩ := exists_take_fileOf [entry] reached
    refine ⟨entries ++ kept, (List.prefix_append_right_inj entries).mpr hKept, ?_, ?_⟩
    · refine ⟨torn, hTorn, ?_⟩
      rw [← fileOf_singleton, hTake, fileOf_append, List.append_assoc]
    · exact fun hOk => Bool.noConfusion hOk
  · exact ⟨entries, List.prefix_append _ _, holds_fileOf entries, fun hOk => Bool.noConfusion hOk⟩

end Slot

/-- Opening succeeds and reads the cursor off the whole lines, if there is a number behind theirs. -/
theorem Store.open_eq {slot : Slot} {entries : List Entry} (h : slot.Holds entries)
    (hTimes : ∀ entry ∈ entries, entry.timestamp.WellFormed) {cursor : Cursor}
    (hCursor : Cursor.behind? entries = some cursor) (path : List Char) :
    Store.open_ path slot = (.ok ⟨path, cursor⟩, .file (fileOf entries)) := by
  obtain ⟨text, hText, hEntries⟩ := exists_text_fileOf hTimes
  simp only [Store.open_, h.repaired, hText, hEntries, hCursor]

/-- An append whose write succeeds puts its entry behind the others. -/
theorem Store.append_succeeds {slot : Slot} {entries : List Entry} (h : slot.Holds entries)
    {store after : Store} {attempt : Attempt} {now : Instant}
    (hSpent : store.spend? (store.stamp attempt now) = some after) :
    store.append slot attempt now .succeeds =
      (.ok (store.stamp attempt now), after,
        .file (fileOf (entries ++ [store.stamp attempt now]))) := by
  simp only [Store.append, hSpent, h.repaired, Slot.write, fileOf_append, fileOf_singleton]

/-- When the numbers have run out, an append fails before it does anything. -/
theorem Store.append_exhausted {store : Store} (h : store.IsExhausted) (slot : Slot) (attempt : Attempt)
    (now : Instant) (fate : WriteFate) :
    store.append slot attempt now fate = (.error .overflow, store, slot) := by
  simp only [Store.append, Store.spend?_eq_none_iff.mpr h]

/-- As long as there are numbers, an append is never abandoned. -/
theorem Store.append_ne_overflow {store : Store} (h : ¬store.IsExhausted) (slot : Slot)
    (attempt : Attempt) (now : Instant) (fate : WriteFate) :
    (store.append slot attempt now fate).1 ≠ .error .overflow := by
  obtain ⟨after, hSpent, -⟩ := Store.exists_spends h (store.stamp attempt now)
  simp only [Store.append, hSpent]
  cases slot.repaired with
  | error cause => exact nofun
  | ok whole =>
      rcases fate with _ | ⟨reached, cause, _ | _⟩
      · exact nofun
      · exact nofun
      · exact nofun

end BanBoard.Log
