import BanBoard.Log.Store
import BanBoard.Proofs.Json.Record

/-!
A line that was cut off. The number of an entry stands first in its line, so whatever part of the line
is left, it is read under this number or not at all.
-/

namespace BanBoard.Log

open BanBoard.Json
open BanBoard.Text

/-- The text of a line up to its number. -/
def lineStart : List Char := '\x7b' :: (writeText "id".toList ++ [':'])

theorem lineStart_append (s : List Char) :
    lineStart ++ s = '\x7b' :: (writeText "id".toList ++ ':' :: s) := by
  rw [lineStart, List.cons_append, List.append_assoc, List.singleton_append]

namespace Entry

/-- Every line begins with the number of its entry. -/
theorem encode_eq (entry : Entry) :
    ∃ tail, entry.encode = lineStart ++ (decimal entry.id.toNat ++ ',' :: tail) :=
  ⟨_, by simp [Entry.encode, Entry.toValue, Value.write, Value.writeMembers, lineStart]; rfl⟩

/-- No entry is read from less than the beginning of a line. -/
theorem decode?_of_isPrefix_lineStart {part : List Char} (h : part <+: lineStart) :
    Entry.decode? part = none := by
  have hAll : ∀ length ≤ lineStart.length, Entry.decode? (lineStart.take length) = none := by
    decide +kernel
  rw [List.prefix_iff_eq_take.mp h]
  exact hAll part.length h.length_le

theorem recordFields_lineStart (names : List String) (s : List Char) :
    recordFields names (lineStart ++ s) =
      ((readMembers (lineStart ++ s)).bind endOfText).bind fun members =>
        names.mapM fun name => memberNamed name.toList members :=
  rfl

/-- No entry is read from a line that was cut within its number or right behind it. -/
theorem decode?_numeral {digits : List Char} (h : ∀ c ∈ digits, isDigit c = true) :
    Entry.decode? (lineStart ++ digits) = none := by
  rw [Entry.decode?, recordFields_lineStart, lineStart_append, readMembers_numeral h]
  rfl

/-- Behind a whole number anything may follow. -/
theorem id_of_decode?_lineStart {entry read : Entry} {rest : List Char}
    (h : Entry.decode? (lineStart ++ (decimal entry.id.toNat ++ ',' :: rest)) = some read) :
    read.id = entry.id := by
  have hWrite : decimal entry.id.toNat = (Value.nat entry.id.toNat).write := rfl
  have hBound : entry.id.toNat ≤ maxWord64 := Nat.le_of_lt_succ entry.id.toNat_lt
  rw [Entry.decode?, recordFields_lineStart, lineStart_append, hWrite] at h
  obtain ⟨fields, hFields, h⟩ := Option.bind_eq_some_iff.mp h
  obtain ⟨members, hMembers, hFields⟩ := Option.bind_eq_some_iff.mp hFields
  obtain ⟨⟨found, after⟩, hRead, hEnd⟩ := Option.bind_eq_some_iff.mp hMembers
  obtain ⟨others, rfl⟩ := readMembers_first "id".toList (v := .nat entry.id.toNat) trivial hRead
  obtain rfl := eq_fst_of_endOfText hEnd
  rw [List.mapM_cons] at hFields
  simp only [Option.bind_eq_bind, Option.bind_eq_some_iff] at hFields
  obtain ⟨field, hId, fields', _, hFields⟩ := hFields
  obtain rfl := memberNamed_cons_self hId
  obtain rfl := Option.some.inj hFields
  split at h
  · rename_i hEq
    obtain ⟨hRaw, -⟩ := List.cons.inj hEq
    simp only [Option.bind_eq_bind, Option.bind_eq_some_iff] at h
    obtain ⟨id, hWord, _, _, _, _, _, _, _, _, _, _, _, _, h⟩ := h
    rw [← Option.some.inj hRaw, decodeWord64?_write hBound] at hWord
    rw [← Option.some.inj h, ← Option.some.inj hWord]
    exact UInt64.ofNat_toNat
  · cases h

/-- A line that was cut off anywhere is read under its number, if it is read at all. -/
theorem id_of_decode?_isPrefix {entry read : Entry} {part : List Char} (hPart : part <+: entry.encode)
    (h : Entry.decode? part = some read) : read.id = entry.id := by
  obtain ⟨tail, hTail⟩ := entry.encode_eq
  rw [hTail] at hPart
  -- The cut falls before the number, in it or behind it.
  rcases List.prefix_or_prefix_of_prefix hPart (List.prefix_append lineStart _) with
    hStart | ⟨rest, rfl⟩
  · rw [decode?_of_isPrefix_lineStart hStart] at h
    cases h
  · rw [List.prefix_append_right_inj] at hPart
    rcases List.prefix_or_prefix_of_prefix hPart
        (List.prefix_append (decimal entry.id.toNat) _) with hDigits | ⟨rest, rfl⟩
    · rw [decode?_numeral fun c hMem => isDigit_of_mem_decimal (hDigits.subset hMem)] at h
      cases h
    · rw [List.prefix_append_right_inj] at hPart
      cases rest with
      | nil =>
          rw [List.append_nil, decode?_numeral fun _ => isDigit_of_mem_decimal] at h
          cases h
      | cons c rest =>
          obtain ⟨rfl, -⟩ := List.cons_prefix_cons.mp hPart
          exact id_of_decode?_lineStart h

end Entry

/-- An entry that is read from a part of a line has the number of that line. -/
theorem id_of_mem_entryOn? {entry read : Entry} {part : List Char} (hPart : part <+: entry.encode)
    (h : read ∈ entryOn? part) : read.id = entry.id := by
  rw [Option.mem_def, entryOn?] at h
  split at h
  · cases h
  · exact Entry.id_of_decode?_isPrefix hPart h

end BanBoard.Log
