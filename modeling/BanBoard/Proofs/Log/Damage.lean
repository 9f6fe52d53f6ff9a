import BanBoard.Proofs.Json.Trailing
import BanBoard.Proofs.Log.Recovery
import BanBoard.Proofs.Log.Visibility
import Mathlib.Data.Set.List

/-!
Damaged lines. The lines of a file are the bytes between its newlines. A line that is a text but no
entry is passed over, and the entries on the other lines are found. A line that is no text at all keeps
every query from answering, and if a newline ends it, it keeps the log from opening as well.
-/

namespace BanBoard.Log

open BanBoard.Files (Fault)
open BanBoard.Json
open BanBoard.Text
open BanBoard.Time (Instant)

/-- A space behind a record does not matter, so neither does a carriage return. -/
theorem Entry.decode?_concat {c : Char} (hSpace : isSpace c = true) (s : List Char) :
    Entry.decode? (s ++ [c]) = Entry.decode? s := by
  rw [Entry.decode?, Entry.decode?, recordFields_concat _ hSpace]

theorem recordFields_of_isBlankText (names : List String) {s : List Char} (h : isBlankText s = true) :
    recordFields names s = none := by
  have hSome {c : Char} {rest : List Char} (hs : skipSpace s = c :: rest) : isBlank c = true := by
    have hMem : c ∈ skipSpace s := hs ▸ List.mem_cons_self
    exact List.all_eq_true.mp h c ((List.dropWhile_suffix isSpace).subset hMem)
  cases hs : skipSpace s with
  | nil => simp [recordFields, readMembers, readMark, hs]
  | cons c rest =>
      have hArray : c ≠ '[' := by
        rintro rfl
        exact absurd (hSome hs) (by decide)
      have hObject : c ≠ '\x7b' := by
        rintro rfl
        exact absurd (hSome hs) (by decide)
      simp [recordFields, readMembers, readMark, hs, hArray, hObject]

/-- A blank line holds no entry anyway. -/
theorem entryOn?_eq (line : List Char) : entryOn? line = Entry.decode? line := by
  rw [entryOn?]
  split
  · rename_i hBlank
    rw [Entry.decode?, recordFields_of_isBlankText _ hBlank]
    rfl
  · rfl

/-- The entries of a text are those of the pieces between its newlines. -/
theorem entriesOf_eq (text : List Char) :
    entriesOf text = (text.splitOn '\n').filterMap Entry.decode? := by
  rw [entriesOf, funext entryOn?_eq]
  exact filterMap_lines (Entry.decode?_concat rfl) rfl text

/-- Whether the bytes of a line are those of a text. -/
def IsText (line : List UInt8) : Prop := ∃ text, encodeUtf8 text = line

/-- A line is a text just when it can be decoded. -/
theorem isText_iff {line : List UInt8} : IsText line ↔ (decodeUtf8? line).isSome = true := by
  simp only [IsText, Option.isSome_iff_exists, decodeUtf8?_eq_some_iff, @eq_comm _ line]

instance : DecidablePred IsText := fun _ => decidable_of_iff _ isText_iff.symm

def entryOnBytes? (line : List UInt8) : Option Entry := (decodeUtf8? line).bind Entry.decode?

/-- The lines of a file that are ended by a newline. What stands behind the last newline is none of
them. -/
def endedLines (bytes : List UInt8) : List (List UInt8) := (bytes.splitOn newline).dropLast

/-- An answer to a query without restrictions, which is made of the entries on some lines. -/
structure IsAnswer (lines : List (List UInt8)) (answer : List Entry) : Prop where
  perm : answer.Perm (lines.filterMap entryOnBytes?)
  sorted : answer.Pairwise fun a b =>
    a.timestamp.le b.timestamp = true ∧ (a.timestamp = b.timestamp → a.id ≤ b.id)

/-- All lines are texts just when the bytes are one text. -/
theorem forall_isText_iff {bytes : List UInt8} :
    (∀ line ∈ bytes.splitOn newline, IsText line) ↔ ∃ text, bytes = encodeUtf8 text := by
  constructor
  · intro h
    have hLines : bytes.splitOn newline ∈ Set.range (List.map encodeUtf8) := by
      rw [Set.range_list_map]
      exact h
    obtain ⟨texts, hTexts⟩ := hLines
    refine ⟨['\n'].intercalate texts, ?_⟩
    rw [encodeUtf8_intercalate, hTexts]
    exact (List.intercalate_splitOn newline).symm
  · rintro ⟨text, rfl⟩ line hLine
    rw [newline, splitOn_encodeUtf8] at hLine
    obtain ⟨piece, -, rfl⟩ := List.mem_map.mp hLine
    exact ⟨piece, rfl⟩

/-- The part behind the last newline is cut off, and an empty one is left. -/
theorem splitOn_wholeLines (bytes : List UInt8) :
    (wholeLines bytes).splitOn newline = endedLines bytes ++ [[]] := by
  obtain ⟨whole, torn, rfl, hWhole, hTorn⟩ := exists_isWhole_append bytes
  have hSingle : torn.splitOn newline = [torn] := List.splitOn_eq_singleton hTorn
  rw [wholeLines_append hWhole hTorn, endedLines]
  by_cases hNone : whole = []
  · rw [hNone, List.nil_append, hSingle]
    rfl
  · obtain ⟨before, rfl⟩ := hWhole.eq_concat hNone
    rw [List.append_assoc, List.singleton_append, List.splitOn_append_cons_self,
      List.splitOn_append_cons_self, hSingle, List.dropLast_concat, List.splitOn_nil]

theorem entryOnBytes?_encodeUtf8 (line : List Char) :
    entryOnBytes? (encodeUtf8 line) = Entry.decode? line := by
  rw [entryOnBytes?, decodeUtf8?_encodeUtf8, Option.bind_some]

theorem filterMap_map_encodeUtf8 (texts : List (List Char)) :
    (texts.map encodeUtf8).filterMap entryOnBytes? = texts.filterMap Entry.decode? := by
  rw [List.filterMap_map]
  exact List.filterMap_congr fun line _ => entryOnBytes?_encodeUtf8 line

/-- Line by line, the bytes of a text have the entries of the text. -/
theorem filterMap_entryOnBytes? (text : List Char) :
    ((encodeUtf8 text).splitOn newline).filterMap entryOnBytes? = entriesOf text := by
  rw [entriesOf_eq, newline, splitOn_encodeUtf8, filterMap_map_encodeUtf8]

/-- The ended lines are texts just when the whole lines are one text. -/
theorem endedLines_areText_iff {bytes : List UInt8} :
    (∀ line ∈ endedLines bytes, IsText line) ↔ ∃ text, wholeLines bytes = encodeUtf8 text := by
  have hEmpty : IsText [] := ⟨[], rfl⟩
  rw [← forall_isText_iff, splitOn_wholeLines, List.forall_mem_append]
  simp [hEmpty]

/-- The empty piece behind the last newline has no entry. -/
theorem filterMap_endedLines (bytes : List UInt8) :
    ((wholeLines bytes).splitOn newline).filterMap entryOnBytes? =
      (endedLines bytes).filterMap entryOnBytes? := by
  have hEmpty : entryOnBytes? [] = none := by decide +kernel
  rw [splitOn_wholeLines, List.filterMap_append, List.filterMap_cons, hEmpty, List.filterMap_nil,
    List.append_nil]

namespace Store

/-- A question is answered just when all of the file is a text. -/
theorem isOk_query_all_iff (store : Store) (bytes : List UInt8) :
    (store.query (.file bytes) .all).isOk = true ↔ ∃ text, bytes = encodeUtf8 text := by
  simp only [← text_file_eq_ok_iff, Store.query]
  cases (Slot.file bytes).text <;> simp [Except.isOk, Except.toBool]

/-- The answer has the entries of the lines, in order of time. -/
theorem isAnswer_of_query {store : Store} {bytes : List UInt8} {answer : List Entry}
    (h : store.query (.file bytes) .all = .ok answer) : IsAnswer (bytes.splitOn newline) answer := by
  obtain ⟨text, hText, rfl⟩ := Store.exists_text_of_query h
  rw [text_file_eq_ok_iff.mp hText]
  exact ⟨by rw [filterMap_entryOnBytes?]; exact Query.perm_answer_all _, Query.pairwise_answer_all _⟩

/-- Whole lines that are no text cannot be opened, and stay as they are. -/
theorem open_of_isWhole (path : List Char) {bytes : List UInt8} (hWhole : IsWhole bytes) {cause : Fault}
    (hText : (Slot.file bytes).text = .error cause) :
    Store.open_ path (.file bytes) = (.error (.io path cause), .file bytes) := by
  simp only [Store.open_, Slot.repaired, hWhole.wholeLines_eq, hText]

end Store

/-- A log opens if every line that a newline ends is a text and none of them holds an entry with the last
number of all, and then its answer is made of the entries on these lines, whatever they hold besides and
whatever stands behind the last newline. A query of the file as it stands succeeds if the part behind the
last newline is a text as well. -/
theorem textDamage_isContained (path : List Char) (bytes : List UInt8) :
    ((Store.open_ path (.file bytes)).1.isOk = true ↔
      (∀ line ∈ endedLines bytes, IsText line) ∧
        ∀ entry ∈ (endedLines bytes).filterMap entryOnBytes?, entry.id.toNat + 1 < 2 ^ 64) ∧
    (∀ store slot, Store.open_ path (.file bytes) = (.ok store, slot) →
      ∃ answer, store.query slot .all = .ok answer ∧ IsAnswer (endedLines bytes) answer) ∧
    ∀ store : Store,
      ((store.query (.file bytes) .all).isOk = true ↔
        ∀ line ∈ bytes.splitOn newline, IsText line) ∧
      ∀ answer, store.query (.file bytes) .all = .ok answer →
        IsAnswer (bytes.splitOn newline) answer := by
  have hOpens := Store.isOk_open_iff path bytes
  simp only [decodeUtf8?_eq_some_iff] at hOpens
  refine ⟨?_, ?_, fun store => ⟨?_, fun answer => Store.isAnswer_of_query⟩⟩
  · rw [hOpens, endedLines_areText_iff, ← filterMap_endedLines]
    constructor
    · rintro ⟨text, hText, hIds⟩
      rw [hText, filterMap_entryOnBytes?]
      exact ⟨⟨text, rfl⟩, hIds⟩
    · rintro ⟨⟨text, hText⟩, hIds⟩
      rw [hText, filterMap_entryOnBytes?] at hIds
      exact ⟨text, hText, hIds⟩
  · intro store slot hOpen
    have hSlot : slot = .file (wholeLines bytes) := by
      rw [← Store.slot_open path bytes, hOpen]
    rw [hOpen] at hOpens
    obtain ⟨text, hText, -⟩ := hOpens.mp rfl
    have hQuery := store.query_all_of_text (text_file_eq_ok_iff.mpr hText)
    have hAnswer := Store.isAnswer_of_query hQuery
    refine ⟨_, hSlot ▸ hQuery, ⟨?_, hAnswer.sorted⟩⟩
    rw [← filterMap_endedLines]
    exact hAnswer.perm
  · rw [Store.isOk_query_all_iff, forall_isText_iff]

/-- A line that is no JSON and a blank one stand before the entry, whose line has a carriage return, and
a fragment that is cut inside a character stands behind it. Only an opening removes the fragment. -/
theorem textDamage_isContained_cutCharacter :
    let path := "actions.jsonl".toList
    let entry : Entry := ⟨7, ⟨1714525323, 0⟩, .success .ban "sshd".toList "192.0.2.1".toList⟩
    let texts := ["not json".toList, " ".toList, entry.encode ++ ['\r']]
    let bytes := [newline].intercalate (texts.map encodeUtf8 ++ [[0xE2, 0x82]])
    (∃ store slot, Store.open_ path (.file bytes) = (.ok store, slot) ∧
      store.query slot .all = .ok [entry]) ∧
    ∀ store : Store, (store.query (.file bytes) .all).isOk = false := by
  intro path entry texts bytes
  have hReturn : '\n' ∉ entry.encode ++ ['\r'] := by simp [(isLine_encode entry).1]
  have hPlain : ∀ line ∈ texts.map encodeUtf8 ++ [[0xE2, 0x82]], newline ∉ line := by
    simp only [texts, List.map_cons, List.map_nil, List.cons_append, List.nil_append,
      List.forall_mem_cons]
    exact ⟨by decide, by decide, newline_notMem_encodeUtf8 hReturn, by decide, List.forall_mem_nil _⟩
  have hLines : bytes.splitOn newline = texts.map encodeUtf8 ++ [[0xE2, 0x82]] :=
    List.splitOn_intercalate newline hPlain (List.cons_ne_nil _ _)
  have hEnded : endedLines bytes = texts.map encodeUtf8 := by
    rw [endedLines, hLines, List.dropLast_concat]
  have hFound : (endedLines bytes).filterMap entryOnBytes? = [entry] := by
    have hJunk : Entry.decode? "not json".toList = none ∧ Entry.decode? " ".toList = none := by
      decide +kernel
    have hEntry : Entry.decode? (entry.encode ++ ['\r']) = some entry := by
      rw [Entry.decode?_concat rfl, Entry.decode?_encode (by decide)]
    rw [hEnded, filterMap_map_encodeUtf8, List.filterMap_cons_none hJunk.1,
      List.filterMap_cons_none hJunk.2, List.filterMap_cons_some hEntry, List.filterMap_nil]
  have hCut : ¬ IsText [0xE2, 0x82] := by decide +kernel
  obtain ⟨hOpens, hOpened, hStands⟩ := textDamage_isContained path bytes
  constructor
  · have hTexts : ∀ line ∈ endedLines bytes, IsText line := by simp [hEnded, IsText]
    have hOk := hOpens.mpr ⟨hTexts, hFound.symm ▸ by simp [entry]⟩
    rcases hOpen : Store.open_ path (.file bytes) with ⟨_ | store, slot⟩
    · rw [hOpen] at hOk
      cases hOk
    · obtain ⟨answer, hQuery, hAnswer⟩ := hOpened store slot hOpen
      obtain rfl := List.perm_singleton.mp (hFound ▸ hAnswer.perm)
      exact ⟨store, slot, rfl, hQuery⟩
  · intro store
    rw [← Bool.not_eq_true, (hStands store).1, hLines]
    exact fun hTexts => hCut (hTexts _ (by simp))

/-- A line that is no text hides the entry before it and keeps the log closed. -/
theorem damagedLine_closesLog :
    let path := "actions.jsonl".toList
    let entry : Entry := ⟨1, ⟨1714525200, 0⟩, .success .ban "sshd".toList "192.0.2.1".toList⟩
    let bytes := Store.lineOf entry ++ [0xFF, newline]
    (bytes.splitOn newline).filterMap entryOnBytes? = [entry] ∧
    Store.open_ path (.file bytes) = (.error (.io path .notText), .file bytes) ∧
    ∀ store : Store, store.query (.file bytes) .all = .error (.io store.path .notText) := by
  intro path entry bytes
  have hLines : bytes.splitOn newline = [encodeUtf8 entry.encode, [0xFF], []] := by
    have hBytes : bytes = encodeUtf8 entry.encode ++ newline :: [0xFF, newline] :=
      List.append_assoc _ _ _
    have hRest : [0xFF, newline].splitOn newline = [[0xFF], []] := by decide
    rw [hBytes, List.splitOn_append_cons_self_of_not_mem (newline_notMem_encode entry), hRest]
  have hEntry : entryOnBytes? (encodeUtf8 entry.encode) = some entry := by
    rw [entryOnBytes?_encodeUtf8, Entry.decode?_encode (by decide)]
  have hFragments : [[0xFF], []].filterMap entryOnBytes? = [] := by decide +kernel
  have hDamaged : ¬ ∃ text, bytes = encodeUtf8 text := by
    have hLine : ¬ IsText [0xFF] := by decide +kernel
    rw [← forall_isText_iff, hLines]
    exact fun hTexts => hLine (hTexts _ (by simp))
  have hText : (Slot.file bytes).text = .error .notText := by
    simp only [← decodeUtf8?_eq_some_iff, ← Option.isSome_iff_exists, Option.not_isSome_iff_eq_none]
      at hDamaged
    rw [Slot.text, hDamaged]
  have hWhole : IsWhole bytes := by
    have hEnds := isWhole_concat (Store.lineOf entry ++ [0xFF])
    rwa [List.append_assoc] at hEnds
  refine ⟨?_, Store.open_of_isWhole path hWhole hText, fun store => by rw [Store.query, hText]⟩
  rw [hLines, List.filterMap_cons_some hEntry, hFragments]

end BanBoard.Log
