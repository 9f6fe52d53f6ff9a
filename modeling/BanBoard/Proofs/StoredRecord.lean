import BanBoard.Jail.Basic
import BanBoard.Log.Entry
import BanBoard.Proofs.Json.Record
import BanBoard.Proofs.Json.Value
import BanBoard.Proofs.Time.Rfc3339

/-!
Stored records survive being written and read. Log entries and banned addresses come back unchanged
from one line of JSON, whatever texts and times they hold, and nothing that can be read at all changes
once it has been written.
-/

namespace BanBoard

open BanBoard.Json
open BanBoard.Text
open BanBoard.Time (Instant)

theorem decodeInstant?_write {t : Instant} (h : t.WellFormed) :
    decodeInstant? (Value.text t.write).write = some t := by
  rw [decodeInstant?, decodeText?_write]
  exact Instant.parseLenient?_write h

/-- A time that was read is one that a stamp can give. -/
theorem wellFormed_of_decodeInstant? {s : List Char} {t : Instant}
    (h : decodeInstant? s = some t) : t.WellFormed := by
  obtain ⟨_, _, hParse⟩ := Option.bind_eq_some_iff.mp h
  exact Instant.wellFormed_of_parseLenient? hParse

theorem Action.decode?_write (action : Action) :
    Action.decode? (Value.text action.word.toList).write = some action :=
  decodeWord?_write (by cases action <;> rfl)

theorem Outcome.decode?_write (outcome : Outcome) :
    Outcome.decode? (Value.text outcome.word.toList).write = some outcome :=
  decodeWord?_write (by cases outcome <;> rfl)

namespace Log.Entry

/-- The fields of an entry as they stand in its line. -/
theorem recordFields_encode (entry : Entry) :
    recordFields ["id", "timestamp", "action", "jail", "ip", "outcome", "error"] entry.encode =
      some [some (Value.nat entry.id.toNat).write, some (Value.text entry.timestamp.write).write,
        some entry.attempt.action.toValue.write, some (Value.text entry.attempt.jail).write,
        some (Value.text entry.attempt.ip).write, some entry.attempt.outcome.toValue.write,
        entry.attempt.error.map fun error => (Value.text error).write] := by
  rw [Entry.encode, Entry.toValue, recordFields_write (by simp)]
  · cases entry.attempt.error with
    | none => rfl
    | some error => rfl
  · cases entry.attempt.error <;>
      simp [Value.optional, Value.IsPlain, Action.toValue, Outcome.toValue]

/-- An entry is read back from its line. -/
theorem decode?_encode {entry : Entry} (h : entry.timestamp.WellFormed) :
    Entry.decode? entry.encode = some entry := by
  have hError := decodeOptional?_write decodeText?_write entry.attempt.error
  have hId : entry.id.toNat ≤ maxWord64 := Nat.le_of_lt_succ entry.id.toNat_lt
  rw [Entry.decode?, recordFields_encode]
  simp [decodeWord64?_write hId, decodeInstant?_write h, Action.toValue, Action.decode?_write,
    decodeText?_write, Outcome.toValue, Outcome.decode?_write, hError]

/-- The line of an entry has no control characters. -/
theorem isPrintable_encode (entry : Entry) : IsPrintable entry.encode :=
  entry.toValue.isPrintable_write

/-- Only times of the calendar are read. -/
theorem wellFormed_of_decode? {s : List Char} {entry : Entry} (h : Entry.decode? s = some entry) :
    entry.timestamp.WellFormed := by
  obtain ⟨fields, _, h⟩ := Option.bind_eq_some_iff.mp h
  split at h
  · simp only [Option.bind_eq_bind, Option.bind_eq_some_iff] at h
    obtain ⟨_, _, t, hTime, _, _, _, _, _, _, _, _, _, _, h⟩ := h
    rw [← Option.some.inj h]
    exact wellFormed_of_decodeInstant? hTime
  · simp at h

end Log.Entry

namespace BannedAddress

/-- The fields of a banned address as they stand in its JSON. -/
theorem recordFields_write (address : BannedAddress) :
    recordFields ["ip", "jail", "bannedAt", "country"] address.toValue.write =
      some [some (Value.text address.ip).write, some (Value.text address.jail).write,
        address.bannedAt.map fun t => (Value.text t.write).write,
        address.country.map fun country => (Value.text country).write] := by
  rw [BannedAddress.toValue, Json.recordFields_write (by simp)]
  · cases address.bannedAt <;> cases address.country <;> rfl
  · cases address.bannedAt <;> cases address.country <;> simp [Value.optional, Value.IsPlain]

/-- A banned address is read back from its JSON. -/
theorem decode?_write {address : BannedAddress} (h : ∀ t ∈ address.bannedAt, t.WellFormed) :
    BannedAddress.decode? address.toValue.write = some address := by
  have hCountry := decodeOptional?_write decodeText?_write address.country
  have hTime : decodeOptional? decodeInstant?
      (address.bannedAt.map fun t => (Value.text t.write).write) = some address.bannedAt := by
    cases hAt : address.bannedAt with
    | none => rfl
    | some t =>
        have hDecode := decodeInstant?_write (h t hAt)
        simp [decodeOptional?, decodeNull?_write_text, hDecode]
  rw [BannedAddress.decode?, recordFields_write]
  simp [decodeText?_write, hTime, hCountry]

theorem isPrintable_write (address : BannedAddress) : IsPrintable address.toValue.write :=
  address.toValue.isPrintable_write

/-- Only times of the calendar are read. -/
theorem wellFormed_of_decode? {s : List Char} {address : BannedAddress}
    (h : BannedAddress.decode? s = some address) : ∀ t ∈ address.bannedAt, t.WellFormed := by
  obtain ⟨fields, _, h⟩ := Option.bind_eq_some_iff.mp h
  split at h
  · simp only [Option.bind_eq_bind, Option.bind_eq_some_iff] at h
    obtain ⟨_, _, _, _, bannedAt, hTime, _, _, h⟩ := h
    rw [← Option.some.inj h]
    rintro t hAt
    obtain ⟨_, hDecode⟩ := exists_of_decodeOptional? (hTime.trans (congrArg some hAt))
    exact wellFormed_of_decodeInstant? hDecode
  · simp at h

end BannedAddress

/-- Log entries and banned addresses are written on one line and read back unchanged, and what has
been read once is written in a form that reading and writing no longer change. -/
theorem storedRecord_roundTrip :
    (∀ entry : Log.Entry, entry.timestamp.WellFormed →
      '\n' ∉ entry.encode ∧ Log.Entry.decode? entry.encode = some entry) ∧
    (∀ address : BannedAddress, (∀ t ∈ address.bannedAt, t.WellFormed) →
      '\n' ∉ address.toValue.write ∧
        BannedAddress.decode? address.toValue.write = some address) ∧
    (∀ text written, (Log.Entry.decode? text).map Log.Entry.encode = some written →
      (Log.Entry.decode? written).map Log.Entry.encode = some written) ∧
    (∀ text written,
      (BannedAddress.decode? text).map (fun address => address.toValue.write) = some written →
      (BannedAddress.decode? written).map (fun address => address.toValue.write) = some written) := by
  refine ⟨fun entry h => ⟨?_, Log.Entry.decode?_encode h⟩,
    fun address h => ⟨?_, BannedAddress.decode?_write h⟩, ?_, ?_⟩
  · intro hNewline
    exact absurd (entry.isPrintable_encode _ hNewline) (by decide)
  · intro hNewline
    exact absurd (address.isPrintable_write _ hNewline) (by decide)
  · intro text written h
    obtain ⟨entry, hDecode, rfl⟩ := Option.map_eq_some_iff.mp h
    rw [Log.Entry.decode?_encode (Log.Entry.wellFormed_of_decode? hDecode)]
    rfl
  · intro text written h
    obtain ⟨address, hDecode, rfl⟩ := Option.map_eq_some_iff.mp h
    rw [BannedAddress.decode?_write (BannedAddress.wellFormed_of_decode? hDecode)]
    rfl

set_option maxRecDepth 4000 in
/-- A leap second before the year zero and texts with quotes and line breaks survive, and records in
liberal spellings are written in the usual one. -/
theorem storedRecord_roundTrip_leapSecond :
    let entry : Log.Entry := ⟨18446744073709551615, ⟨-62200000021, 1999999999⟩, .unban,
      ['s', '\n', '"'], ['\u2028'], .failure, some ['\x00', '\\']⟩
    let address : BannedAddress := ⟨['a', '\n'], [], some ⟨253402300800, 1⟩, none⟩
    let record := "[7,\"2024-5-1 1:2:3 utc\",\"ban\",\"\",\"::1\",\x7b\"success\":null\x7d]".toList
    let ban := "[\"::1\",\"\",\"+10000-01-01t00:00:00.50z\"]".toList
    (entry.timestamp.WellFormed ∧
      '\n' ∉ entry.encode ∧ Log.Entry.decode? entry.encode = some entry) ∧
    ((∀ t ∈ address.bannedAt, t.WellFormed) ∧ '\n' ∉ address.toValue.write ∧
      BannedAddress.decode? address.toValue.write = some address) ∧
    (∃ written, (Log.Entry.decode? record).map Log.Entry.encode = some written ∧
      (Log.Entry.decode? written).map Log.Entry.encode = some written) ∧
    (∃ written,
      (BannedAddress.decode? ban).map (fun address => address.toValue.write) = some written ∧
      (BannedAddress.decode? written).map (fun address => address.toValue.write) = some written) := by
  obtain ⟨hEntry, hAddress, hRecord, hBan⟩ := storedRecord_roundTrip
  have hRead : Log.Entry.decode?
      "[7,\"2024-5-1 1:2:3 utc\",\"ban\",\"\",\"::1\",\x7b\"success\":null\x7d]".toList =
        some ⟨7, ⟨1714525323, 0⟩, .ban, [], "::1".toList, .success, none⟩ := by decide +kernel
  have hReadBan : BannedAddress.decode? "[\"::1\",\"\",\"+10000-01-01t00:00:00.50z\"]".toList =
      some ⟨"::1".toList, [], some ⟨253402300800, 500000000⟩, none⟩ := by decide +kernel
  have hLeap : (⟨-62200000021, 1999999999⟩ : Instant).WellFormed := by decide
  have hLate : ∀ t ∈ some (⟨253402300800, 1⟩ : Instant), t.WellFormed := by
    rintro t ⟨rfl⟩
    decide
  have hWritten := congrArg (Option.map Log.Entry.encode) hRead
  have hWrittenBan := congrArg (Option.map fun address => address.toValue.write) hReadBan
  exact ⟨⟨hLeap, hEntry _ hLeap⟩, ⟨hLate, hAddress _ hLate⟩,
    ⟨_, hWritten, hRecord _ _ hWritten⟩, ⟨_, hWrittenBan, hBan _ _ hWrittenBan⟩⟩

end BanBoard
