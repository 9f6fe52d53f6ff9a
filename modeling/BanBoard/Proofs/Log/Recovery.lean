import BanBoard.Proofs.Log.History

/-!
Torn lines. Whatever bytes stand in the file of a log, opening it leaves their whole lines, and an
append puts a line of its own behind them. No whole line ever changes unless the file is cut from
outside.
-/

namespace BanBoard.Log

open BanBoard.Text
open BanBoard.Time (Instant)

namespace Store

/-- An open cuts the torn line, whether or not it goes on to read the file. -/
theorem slot_open (path : List Char) (bytes : List UInt8) :
    (Store.open_ path (.file bytes)).2 = .file (wholeLines bytes) := by
  simp only [Store.open_, Slot.repaired]
  cases (Slot.file (wholeLines bytes)).text with
  | error cause => rfl
  | ok text => cases hCursor : Cursor.behind? (entriesOf text) <;> simp only [hCursor]

/-- The torn line plays no part in what an open finds. -/
theorem open_wholeLines (path : List Char) (bytes : List UInt8) :
    Store.open_ path (.file (wholeLines bytes)) = Store.open_ path (.file bytes) := by
  have hWhole : IsWhole (wholeLines bytes) := (isWholePart_wholeLines bytes).isWhole
  simp only [Store.open_, Slot.repaired, hWhole.wholeLines_eq]

/-- What is left of the file must be a text, and none of its entries may have the last number of all. -/
theorem isOk_open_iff (path : List Char) (bytes : List UInt8) :
    (Store.open_ path (.file bytes)).1.isOk = true ↔
      ∃ text, decodeUtf8? (wholeLines bytes) = some text ∧
        ∀ entry ∈ entriesOf text, entry.id.toNat + 1 < 2 ^ 64 := by
  simp only [← Cursor.exists_behind?_iff, Store.open_, Slot.repaired, Slot.text]
  cases decodeUtf8? (wholeLines bytes) with
  | none => simp [Except.isOk, Except.toBool]
  | some text =>
      cases hCursor : Cursor.behind? (entriesOf text) <;> simp [hCursor, Except.isOk, Except.toBool]

/-- An append succeeds just when its write does and the numbers have not run out. -/
theorem isOk_append_iff (store : Store) (bytes : List UInt8) (attempt : Attempt) (now : Instant)
    (fate : WriteFate) :
    (store.append (.file bytes) attempt now fate).1.isOk = true ↔
      fate = .succeeds ∧ ¬store.IsExhausted := by
  have hNone : store.spend? (store.stamp attempt now) = none ↔ store.IsExhausted := spend?_eq_none_iff
  rw [← hNone]
  cases hSpent : store.spend? (store.stamp attempt now) with
  | none => simp [append, hSpent, Except.isOk, Except.toBool]
  | some after =>
      rcases fate with _ | ⟨reached, cause, _ | _⟩ <;>
        simp [append, hSpent, Slot.repaired, Slot.write, Except.isOk, Except.toBool]

/-- A successful append writes its line behind the whole lines. -/
theorem append_file {store after : Store} {attempt : Attempt} {now : Instant}
    (hSpent : store.spend? (store.stamp attempt now) = some after) (bytes : List UInt8) :
    store.append (.file bytes) attempt now .succeeds =
      (.ok (store.stamp attempt now), after,
        .file (wholeLines bytes ++ (encodeUtf8 (store.stamp attempt now).encode ++ [newline]))) := by
  simp only [append, hSpent]
  rfl

/-- However an append ends, the whole lines stand before what it left. -/
theorem exists_slot_append (store : Store) (bytes : List UInt8) (attempt : Attempt) (now : Instant)
    (fate : WriteFate) :
    ∃ added, (store.append (.file bytes) attempt now fate).2.2 = .file (wholeLines bytes ++ added) := by
  cases hSpent : store.spend? (store.stamp attempt now) with
  | none =>
      -- The torn line is not even cut.
      obtain ⟨torn, hTorn⟩ := (isWholePart_wholeLines bytes).isPrefix
      refine ⟨torn, ?_⟩
      rw [append_exhausted (spend?_eq_none_iff.mp hSpent), hTorn]
  | some after =>
      simp only [append, hSpent]
      rcases fate with _ | ⟨reached, cause, _ | _⟩
      · exact ⟨_, rfl⟩
      · exact ⟨_, rfl⟩
      · exact ⟨[], congrArg Slot.file (List.append_nil _).symm⟩

end Store

theorem Event.slot_apply_open (path : List Char) (state : State) :
    (Event.open_.apply path state).2.slot = (Store.open_ path state.slot).2 := by
  rw [Event.apply]
  split <;> simp only [*]

theorem Event.slot_apply_append (path : List Char) (store : Store) (slot : Slot) (attempt : Attempt)
    (now : Instant) (fate : WriteFate) :
    ((Event.append attempt now fate).apply path ⟨some store, slot⟩).2.slot =
      (store.append slot attempt now fate).2.2 := by
  dsimp only [Event.apply]
  split <;> simp only [*]

variable {whole : List UInt8}

/-- No event but a truncation takes whole lines away. -/
theorem Event.apply_keeps (hWhole : IsWhole whole) (path : List Char) {state : State}
    {bytes : List UInt8} (hSlot : state.slot = .file bytes) (hKept : whole <+: bytes) {event : Event}
    (hCut : ∀ length, event ≠ .truncate length) :
    ∃ after, (event.apply path state).2.slot = .file after ∧ whole <+: after := by
  obtain ⟨opened, slot⟩ := state
  obtain rfl : slot = .file bytes := hSlot
  have hLines : whole <+: wholeLines bytes :=
    (isWholePart_wholeLines bytes).longest whole hKept hWhole
  cases event with
  | open_ =>
      refine ⟨wholeLines bytes, ?_, hLines⟩
      rw [Event.slot_apply_open, Store.slot_open]
  | append attempt now fate =>
      cases opened with
      | none => exact ⟨bytes, rfl, hKept⟩
      | some store =>
          obtain ⟨added, hAdded⟩ := store.exists_slot_append bytes attempt now fate
          refine ⟨wholeLines bytes ++ added, ?_, hLines.trans (List.prefix_append _ _)⟩
          rw [Event.slot_apply_append, hAdded]
  | refuse attempt now => exact ⟨bytes, rfl, hKept⟩
  | truncate length => exact (hCut length rfl).elim
  | addRaw added => exact ⟨bytes ++ added, rfl, hKept.trans (List.prefix_append _ _)⟩

/-- Whole lines survive every run without a truncation. -/
theorem State.run_keeps (hWhole : IsWhole whole) (path : List Char) {state : State}
    {bytes : List UInt8} (hSlot : state.slot = .file bytes) (hKept : whole <+: bytes)
    {events : List Event} (hCut : ∀ length, Event.truncate length ∉ events) :
    ∃ after, (state.run path events).slot = .file after ∧ whole <+: after := by
  induction events generalizing state bytes with
  | nil => exact ⟨bytes, hSlot, hKept⟩
  | cons event events ih =>
      have hHead : ∀ length, event ≠ .truncate length := by
        rintro length rfl
        exact hCut length List.mem_cons_self
      obtain ⟨next, hNext, hStill⟩ := Event.apply_keeps hWhole path hSlot hKept hHead
      exact ih hNext hStill fun length hMem => hCut length (List.mem_cons_of_mem _ hMem)

/-- Whatever the file of a log holds, its longest beginning of whole lines is what an opening leaves and
what an append writes its line behind, as long as there is a number left for it. Opening it a second time
changes nothing, and these lines stay as they are through every history that does not cut the file. -/
theorem tornLine_isCut (path : List Char) (bytes : List UInt8) :
    IsWholePart (wholeLines bytes) bytes ∧
    (Store.open_ path (.file bytes)).2 = .file (wholeLines bytes) ∧
    Store.open_ path (.file (wholeLines bytes)) = Store.open_ path (.file bytes) ∧
    ((Store.open_ path (.file bytes)).1.isOk = true ↔
      ∃ text, decodeUtf8? (wholeLines bytes) = some text ∧
        ∀ entry ∈ entriesOf text, entry.id.toNat + 1 < 2 ^ 64) ∧
    (∀ (store : Store) (attempt : Attempt) (now : Instant),
      (¬store.IsExhausted → ∃ after, store.Spends (store.stamp attempt now) after ∧
        store.append (.file bytes) attempt now .succeeds =
          (.ok (store.stamp attempt now), after,
            .file (wholeLines bytes ++ (encodeUtf8 (store.stamp attempt now).encode ++ [newline])))) ∧
      newline ∉ encodeUtf8 (store.stamp attempt now).encode) ∧
    (∀ (store : Store) (attempt : Attempt) (now : Instant) (fate : WriteFate),
      (store.append (.file bytes) attempt now fate).1.isOk = true ↔
        fate = .succeeds ∧ ¬store.IsExhausted) ∧
    (∀ (opened : Option Store) (events : List Event), (∀ length, Event.truncate length ∉ events) →
      ∃ after, (State.run path events ⟨opened, .file bytes⟩).slot = .file after ∧
        wholeLines bytes <+: after) := by
  have hPart := isWholePart_wholeLines bytes
  refine ⟨hPart, Store.slot_open path bytes, Store.open_wholeLines path bytes,
    Store.isOk_open_iff path bytes, ?_, ?_, ?_⟩
  · intro store attempt now
    refine ⟨fun hRoom => ?_, newline_notMem_encode _⟩
    obtain ⟨after, hSpent, hSpends⟩ := Store.exists_spends hRoom (store.stamp attempt now)
    exact ⟨after, hSpends, Store.append_file hSpent bytes⟩
  · intro store attempt now fate
    exact store.isOk_append_iff bytes attempt now fate
  · intro opened events hCut
    exact State.run_keeps hPart.isWhole path rfl hPart.isPrefix hCut

/-- A file that was cut inside a character, and then a write that breaks off and foreign bytes. -/
theorem tornLine_isCut_insideCharacter :
    let bytes : List UInt8 := [0x61, 0x0A, 0x62, 0xC3]
    let ban := Attempt.success .ban "sshd".toList "192.0.2.1".toList
    let store : Store := ⟨[], ⟨1, none⟩⟩
    let events : List Event :=
      [.open_, .append ban ⟨1714525323, 0⟩ (.fails 3 .noAccess false), .addRaw [0x0A], .open_]
    (∀ length, Event.truncate length ∉ events) ∧ ¬store.IsExhausted ∧
    (Store.open_ [] (.file bytes)).2 = .file [0x61, 0x0A] ∧
    (store.append (.file bytes) ban ⟨1714525323, 0⟩ .succeeds).2.2 =
      .file ([0x61, 0x0A] ++ Store.lineOf (store.stamp ban ⟨1714525323, 0⟩)) ∧
    ∃ after, (State.run [] events ⟨none, .file bytes⟩).slot = .file after ∧ [0x61, 0x0A] <+: after := by
  intro bytes ban store events
  have hCut : ∀ length, Event.truncate length ∉ events := by simp [events]
  have hRoom : ¬store.IsExhausted := by decide
  have hLines : wholeLines bytes = [0x61, 0x0A] := by decide
  obtain ⟨_, hOpen, _, _, hAppend, _, hKeeps⟩ := tornLine_isCut [] bytes
  obtain ⟨after, -, hLine⟩ := (hAppend store ban ⟨1714525323, 0⟩).1 hRoom
  rw [hLines] at hOpen hKeeps hLine
  exact ⟨hCut, hRoom, hOpen, congrArg (·.2.2) hLine, hKeeps none events hCut⟩

end BanBoard.Log
