import BanBoard.Proofs.Log.ReadBack
import BanBoard.Proofs.Log.Visibility

/-!
Writes that fail. A file is cut back to the length that it had without a torn line at its end, so of the
new line nothing is left, however much of it had reached the file. Where this cut fails as well, the part
that is left is a torn line itself, which the next opening or append removes. So a part of a line can only
ever stand at the end of a file.
-/

namespace BanBoard.Log

open BanBoard.Files (Fault)
open BanBoard.Text
open BanBoard.Time (Instant)

/-- A change of the bytes of a file. -/
inductive Change where
  | setLength (length : Nat)
  | add (bytes : List UInt8)

/-- A new length cuts bytes off at the end, or has zeros filled in there. -/
def Change.apply (bytes : List UInt8) : Change → List UInt8
  | setLength length => bytes.take length ++ List.replicate (length - bytes.length) 0
  | add more => bytes ++ more

/-- What a write does that breaks off after a part of its line. A torn line is cut off before, and the
length that is left by this is the one to which the file is cut back. -/
def brokenOff (bytes line : List UInt8) (reached : Nat) (rollsBack : Bool) : List Change :=
  (if 0 < bytes.length && !endsLine bytes then [.setLength (behindNewline bytes)] else []) ++
    .add (line.take reached) :: if rollsBack then [.setLength (wholeLength bytes)] else []

theorem Change.apply_setLength {bytes : List UInt8} {length : Nat} (h : length ≤ bytes.length) :
    (Change.setLength length).apply bytes = bytes.take length := by
  rw [Change.apply, Nat.sub_eq_zero_of_le h, List.replicate_zero, List.append_nil]

theorem wholeLength_le (bytes : List UInt8) : wholeLength bytes ≤ bytes.length := by
  rw [← length_wholeLines]
  exact (isWholePart_wholeLines bytes).isPrefix.length_le

/-- The whole lines are there before anything is added, whether a torn line was cut off or not. -/
theorem foldl_repair (bytes : List UInt8) :
    (if 0 < bytes.length && !endsLine bytes then [Change.setLength (behindNewline bytes)] else []).foldl
      Change.apply bytes = wholeLines bytes := by
  have hLength := wholeLength_le bytes
  rw [wholeLines]
  rw [wholeLength] at hLength ⊢
  split at hLength
  · rename_i hTorn
    rw [if_pos hTorn, if_pos hTorn, List.foldl_cons, List.foldl_nil, Change.apply_setLength hLength]
  · rename_i hWhole
    rw [if_neg hWhole, if_neg hWhole, List.foldl_nil, List.take_length]

/-- A write that breaks off leaves a part of its line, unless it is rolled back. -/
theorem foldl_brokenOff (bytes line : List UInt8) (reached : Nat) (rollsBack : Bool) :
    (brokenOff bytes line reached rollsBack).foldl Change.apply bytes =
      if rollsBack then wholeLines bytes else wholeLines bytes ++ line.take reached := by
  rw [brokenOff, List.foldl_append, foldl_repair, List.foldl_cons, Change.apply]
  cases rollsBack with
  | false => rfl
  | true =>
      have hMeasured : wholeLength bytes ≤ (wholeLines bytes ++ line.take reached).length := by
        rw [List.length_append, length_wholeLines]
        exact Nat.le_add_right _ _
      rw [if_pos rfl, if_pos rfl, List.foldl_cons, List.foldl_nil, Change.apply_setLength hMeasured,
        ← length_wholeLines, List.take_left]

/-- An append whose write fails leaves what the single changes of the write leave. -/
theorem Store.append_fails {store spent : Store} {attempt : Attempt} {now : Instant}
    (hSpends : store.Spends (store.stamp attempt now) spent) (bytes : List UInt8) (reached : Nat)
    (cause : Fault) (rollsBack : Bool) :
    store.append (.file bytes) attempt now (.fails reached cause rollsBack) =
      (.error (.io store.path cause), spent,
        .file ((brokenOff bytes (Store.lineOf (store.stamp attempt now)) reached rollsBack).foldl
          Change.apply bytes)) := by
  rw [foldl_brokenOff, ← hSpends.path_eq]
  simp only [append, spend?_eq_some_iff.mpr hSpends]
  cases rollsBack <;> rfl

/-- The entry whose whole line a write leaves in the file. A write that fails leaves one when the whole
line had reached the file and the cut failed as well. -/
def WriteFate.kept? (entry : Entry) : WriteFate → Option Entry
  | succeeds => some entry
  | fails _ _ true => none
  | fails reached _ false => if (Store.lineOf entry).length ≤ reached then some entry else none

namespace Event

/-- The entry whose whole line an event leaves in the file. -/
def kept? (state : State) : Event → Option Entry
  | append attempt now fate =>
    state.store.bind fun store =>
      if store.IsExhausted then none else fate.kept? (store.stamp attempt now)
  | _ => none

/-- Whether an event leaves no whole line in the file when it fails: if its write is not undone, then only
a part of the line had reached the file. -/
def IsUnfinished (state : State) : Event → Prop
  | append attempt now (.fails reached _ false) =>
    ∀ store ∈ state.store, reached < (Store.lineOf (store.stamp attempt now)).length
  | _ => True

end Event

/-- A part of a line that is not all of it holds no newline. -/
theorem newline_notMem_take_lineOf {entry : Entry} {reached : Nat}
    (h : reached < (Store.lineOf entry).length) : newline ∉ (Store.lineOf entry).take reached := by
  have hText : reached ≤ (encodeUtf8 entry.encode).length := by
    simpa [Store.lineOf, Nat.lt_succ_iff] using h
  rw [Store.lineOf, List.take_append_of_le_length hText]
  exact fun hMem => newline_notMem_encode entry (List.mem_of_mem_take hMem)

/-- However a write ends, there is a whole line behind the others or there is none, and behind that at
most a part of one. A write that succeeds leaves no such part. -/
theorem Slot.exists_torn_write (whole : List UInt8) (entry : Entry) (fate : WriteFate) :
    ∃ torn, newline ∉ torn ∧
      (Slot.write whole (Store.lineOf entry) fate).2 =
        .file (whole ++ fileOf (fate.kept? entry).toList ++ torn) ∧
      ((Slot.write whole (Store.lineOf entry) fate).1.isOk = true → torn = []) := by
  have hKept : whole ++ fileOf (some entry).toList ++ [] = whole ++ Store.lineOf entry := by
    rw [Option.toList_some, fileOf_singleton, List.append_nil]
  have hLost (torn : List UInt8) : whole ++ fileOf (none : Option Entry).toList ++ torn = whole ++ torn := by
    rw [Option.toList_none, fileOf_nil, List.append_nil]
  rcases fate with _ | ⟨reached, cause, _ | _⟩
  · refine ⟨[], List.not_mem_nil, ?_, fun _ => rfl⟩
    rw [WriteFate.kept?, hKept, Slot.write]
  · by_cases hAll : (Store.lineOf entry).length ≤ reached
    · refine ⟨[], List.not_mem_nil, ?_, fun _ => rfl⟩
      rw [WriteFate.kept?, if_pos hAll, hKept, Slot.write, List.take_of_length_le hAll]
    · refine ⟨_, newline_notMem_take_lineOf (Nat.lt_of_not_le hAll), ?_, fun hOk => Bool.noConfusion hOk⟩
      rw [WriteFate.kept?, if_neg hAll, hLost, Slot.write]
  · refine ⟨[], List.not_mem_nil, ?_, fun _ => rfl⟩
    rw [WriteFate.kept?, hLost, List.append_nil, Slot.write]

namespace State

/-- The entries whose whole lines some events leave in the file, in order. -/
def kept (path : List Char) : List Event → State → List Entry
  | [], _ => []
  | event :: events, state =>
    (event.kept? state).toList ++ kept path events (event.apply path state).2

/-- Whether no event among some leaves a whole line when it fails. -/
def AreUnfinished (path : List Char) : List Event → State → Prop
  | [], _ => True
  | event :: events, state =>
    event.IsUnfinished state ∧ AreUnfinished path events (event.apply path state).2

/-- The entries that are kept are collected event by event. -/
theorem kept_concat (path : List Char) (events : List Event) (event : Event) (state : State) :
    state.kept path (events ++ [event]) =
      state.kept path events ++ (event.kept? (state.run path events)).toList := by
  induction events generalizing state with
  | nil => simp [kept, run]
  | cons first events ih => rw [List.cons_append, kept, kept, ih, List.append_assoc]; rfl

/-- A file that starts with given whole lines and has at most a torn line behind them. -/
def EndsWith (whole : List UInt8) (state : State) : Prop :=
  ∃ torn, newline ∉ torn ∧ state.slot = .file (whole ++ torn)

variable {whole : List UInt8} {state : State}

/-- One event of the log keeps the end of the file, with the entry that it kept. -/
theorem EndsWith.apply (hWhole : IsWhole whole) (h : state.EndsWith whole) (path : List Char)
    {event : Event} (hOwn : event.IsOwn) :
    EndsWith (whole ++ fileOf (event.kept? state).toList) (event.apply path state).2 ∧
      ((event.apply path state).1 = true →
        (event.apply path state).2.slot = .file (whole ++ fileOf (event.kept? state).toList)) := by
  obtain ⟨opened, slot⟩ := state
  obtain ⟨torn, hTorn, rfl⟩ := h
  have hSame : whole ++ fileOf (none : Option Entry).toList = whole := List.append_nil whole
  cases event with
  | open_ =>
      have hSlot : (Event.open_.apply path ⟨opened, .file (whole ++ torn)⟩).2.slot = .file whole := by
        rw [Event.slot_apply_open, Store.slot_open, wholeLines_append hWhole hTorn]
      have hNone : Event.open_.kept? ⟨opened, .file (whole ++ torn)⟩ = none := rfl
      rw [hNone, hSame]
      exact ⟨⟨[], List.not_mem_nil, by rw [hSlot, List.append_nil]⟩, fun _ => hSlot⟩
  | append attempt now fate =>
      cases opened with
      | none =>
          rw [Event.kept?, Option.bind_none, hSame]
          exact ⟨⟨torn, hTorn, rfl⟩, fun hDone => Bool.noConfusion hDone⟩
      | some store =>
          by_cases hExhausted : store.IsExhausted
          · rw [Event.apply_exhausted rfl path rfl hExhausted, Event.kept?, Option.bind_some,
              if_pos hExhausted, hSame]
            exact ⟨⟨torn, hTorn, rfl⟩, fun hDone => Bool.noConfusion hDone⟩
          have hRepaired : (Slot.file (whole ++ torn)).repaired = .ok whole := by
            rw [Slot.repaired, wholeLines_append hWhole hTorn]
          obtain ⟨spent, hSpent, -⟩ := Store.exists_spends hExhausted (store.stamp attempt now)
          obtain ⟨left, hLeft, hSlot, hDone⟩ :=
            Slot.exists_torn_write whole (store.stamp attempt now) fate
          rw [append_eq hRepaired hSpent, Event.kept?, Option.bind_some, if_neg hExhausted]
          refine ⟨⟨left, hLeft, hSlot⟩, fun hOk => ?_⟩
          rw [hDone hOk, List.append_nil] at hSlot
          exact hSlot
  | refuse attempt now =>
      have hNone : (Event.refuse attempt now).kept? ⟨opened, .file (whole ++ torn)⟩ = none := rfl
      rw [hNone, hSame]
      exact ⟨⟨torn, hTorn, rfl⟩, fun hDone => Bool.noConfusion hDone⟩
  | truncate length => exact hOwn.elim
  | addRaw bytes => exact hOwn.elim

/-- After a run the file ends with all entries that were kept, in order. -/
theorem EndsWith.run (hWhole : IsWhole whole) (h : state.EndsWith whole) (path : List Char)
    {events : List Event} (hOwn : ∀ event ∈ events, event.IsOwn) :
    EndsWith (whole ++ fileOf (state.kept path events)) (state.run path events) := by
  induction events generalizing whole state with
  | nil =>
      rw [kept, fileOf_nil, List.append_nil]
      exact h
  | cons event events ih =>
      obtain ⟨hHead, hTail⟩ := List.forall_mem_cons.mp hOwn
      rw [kept, fileOf_append, ← List.append_assoc]
      exact ih (hWhole.append (isWhole_fileOf _)) (h.apply hWhole path hHead).1 hTail

/-- The entry that stays is the one that is handed back, unless a failing write leaves a whole line. -/
theorem EndsWith.kept?_eq (h : state.EndsWith whole) {event : Event} (hUnfinished : event.IsUnfinished state) :
    event.kept? state = event.returned? state := by
  obtain ⟨opened, slot⟩ := state
  obtain ⟨torn, -, rfl⟩ := h
  cases event with
  | append attempt now fate =>
      cases opened with
      | none => rfl
      | some store =>
          rw [Event.kept?, Option.bind_some]
          by_cases hExhausted : store.IsExhausted
          · rw [Event.returned?_exhausted hExhausted, if_pos hExhausted]
          obtain ⟨spent, hSpent, -⟩ := Store.exists_spends hExhausted (store.stamp attempt now)
          rw [if_neg hExhausted, Event.returned?, Option.bind_some]
          simp only [Store.append, hSpent]
          rcases fate with _ | ⟨reached, cause, _ | _⟩
          · rfl
          · have hLess : reached < (Store.lineOf (store.stamp attempt now)).length := hUnfinished store rfl
            rw [WriteFate.kept?, if_neg (Nat.not_le_of_lt hLess)]
            rfl
          · rfl
  | open_ => rfl
  | refuse attempt now => rfl
  | truncate length => rfl
  | addRaw bytes => rfl

/-- If every write that broke off was unfinished, what is kept is what was returned. -/
theorem EndsWith.kept_eq (hWhole : IsWhole whole) (h : state.EndsWith whole) (path : List Char)
    {events : List Event} (hOwn : ∀ event ∈ events, event.IsOwn)
    (hUnfinished : state.AreUnfinished path events) :
    state.kept path events = state.returned path events := by
  induction events generalizing whole state with
  | nil => rfl
  | cons event events ih =>
      obtain ⟨hHead, hTail⟩ := List.forall_mem_cons.mp hOwn
      obtain ⟨hFirst, hRest⟩ := hUnfinished
      have hNext := (h.apply hWhole path hHead).1
      rw [kept, returned, h.kept?_eq hFirst, ih (hWhole.append (isWhole_fileOf _)) hNext hTail hRest]

end State

/-- An append whose write fails tells the cause, and the write comes down to single changes of the file.
With the cut behind it, the whole lines from before are left of any file, whatever part of the line had
reached it. Without the cut, a part of the line is left as well, which the next opening and the next append
remove. When the numbers have run out, nothing is written. Over any events the file is made of the old
whole lines, of the lines of entries, and of at most a part of a line behind them. No such part is left by
an opening or an append that succeeds, and the entries are those that were handed back, as long as failing
writes leave no whole line. -/
theorem failedWrite_isUndone (path : List Char) (bytes : List UInt8) :
    IsWholePart (wholeLines bytes) bytes ∧
    (∀ (store : Store) (attempt : Attempt) (now : Instant) (reached : Nat) (cause : Fault)
      (rollsBack : Bool),
      (¬store.IsExhausted → ∃ spent, store.Spends (store.stamp attempt now) spent ∧
        store.append (.file bytes) attempt now (.fails reached cause rollsBack) =
          (.error (.io store.path cause), spent,
            .file ((brokenOff bytes (Store.lineOf (store.stamp attempt now)) reached rollsBack).foldl
              Change.apply bytes))) ∧
      (store.IsExhausted → store.append (.file bytes) attempt now (.fails reached cause rollsBack) =
        (.error .overflow, store, .file bytes))) ∧
    (∀ (line : List UInt8) (reached : Nat),
      (brokenOff bytes line reached true).foldl Change.apply bytes = wholeLines bytes) ∧
    (∀ (entry : Entry) (reached : Nat), reached < (Store.lineOf entry).length →
      ∃ left, (brokenOff bytes (Store.lineOf entry) reached false).foldl Change.apply bytes = left ∧
        left = wholeLines bytes ++ (Store.lineOf entry).take reached ∧
        (Store.open_ path (.file left)).2 = .file (wholeLines bytes) ∧
        ∀ (store : Store) (attempt : Attempt) (now : Instant), ¬store.IsExhausted →
          ∃ spent, store.Spends (store.stamp attempt now) spent ∧
            store.append (.file left) attempt now .succeeds =
              (.ok (store.stamp attempt now), spent,
                .file (wholeLines bytes ++ Store.lineOf (store.stamp attempt now)))) ∧
    (∀ (opened : Option Store) (events : List Event), (∀ event ∈ events, event.IsOwn) →
      let start : State := ⟨opened, .file bytes⟩
      (∃ torn, newline ∉ torn ∧ (start.run path events).slot =
        .file (wholeLines bytes ++ fileOf (start.kept path events) ++ torn)) ∧
      (∀ (event : Event) (final : State), event.IsOwn →
        event.apply path (start.run path events) = (true, final) →
        final.slot = .file (wholeLines bytes ++ fileOf (start.kept path (events ++ [event])))) ∧
      (start.AreUnfinished path events →
        start.kept path events = start.returned path events)) := by
  have hPart := isWholePart_wholeLines bytes
  refine ⟨hPart, ?_, ?_, ?_, ?_⟩
  · intro store attempt now reached cause rollsBack
    refine ⟨fun hRoom => ?_, fun hExhausted => Store.append_exhausted hExhausted _ _ _ _⟩
    obtain ⟨spent, -, hSpends⟩ := Store.exists_spends hRoom (store.stamp attempt now)
    exact ⟨spent, hSpends, Store.append_fails hSpends bytes reached cause rollsBack⟩
  · intro line reached
    rw [foldl_brokenOff, if_pos rfl]
  · intro entry reached hLess
    have hCut := wholeLines_append hPart.isWhole (newline_notMem_take_lineOf hLess)
    refine ⟨_, rfl, ?_⟩
    rw [foldl_brokenOff, if_neg Bool.false_ne_true]
    refine ⟨rfl, ?_, fun store attempt now hRoom => ?_⟩
    · rw [Store.slot_open, hCut]
    · obtain ⟨spent, hSpent, hSpends⟩ := Store.exists_spends hRoom (store.stamp attempt now)
      refine ⟨spent, hSpends, ?_⟩
      rw [Store.append_file hSpent, hCut, Store.lineOf]
  · intro opened events hOwn start
    have hTorn : start.EndsWith (wholeLines bytes) := by
      obtain ⟨whole, torn, rfl, hWhole, hNone⟩ := exists_isWhole_append bytes
      exact ⟨torn, hNone, by rw [wholeLines_append hWhole hNone]⟩
    have hRun := hTorn.run hPart.isWhole path hOwn
    refine ⟨hRun, fun event final hLast hDone => ?_, hTorn.kept_eq hPart.isWhole path hOwn⟩
    have hFinal := (hRun.apply (hPart.isWhole.append (isWhole_fileOf _)) path hLast).2
    rw [hDone] at hFinal
    rw [State.kept_concat, fileOf_append, ← List.append_assoc]
    exact hFinal rfl

/-- A file that ends inside a character, a write that breaks off and is not undone, and then one that is
undone before an append succeeds. -/
theorem failedWrite_isUndone_insideCharacter :
    let path := "actions.jsonl".toList
    let ban := Attempt.success .ban "sshd".toList "192.0.2.1".toList
    let now : Instant := ⟨1714525323, 0⟩
    let bytes : List UInt8 := [0x61, 0x0A, 0x62, 0xC3]
    let store : Store := ⟨path, ⟨1, none⟩⟩
    let start : State := ⟨some store, .file bytes⟩
    let broken : Event := .append ban now (.fails 5 .noAccess false)
    let undone : Event := .append ban now (.fails 70 .noAccess true)
    let last : Event := .append ban now .succeeds
    ¬store.IsExhausted ∧ 5 < (Store.lineOf (store.stamp ban now)).length ∧
    (∀ event ∈ [broken, undone], event.IsOwn) ∧ last.IsOwn ∧
    start.AreUnfinished path [broken, undone] ∧
    (store.append (.file bytes) ban now (.fails 70 .noAccess true)).2.2 = .file [0x61, 0x0A] ∧
    ∃ final, last.apply path (start.run path [broken, undone]) = (true, final) ∧
      final.slot = .file ([0x61, 0x0A] ++ Store.lineOf ⟨3, now, ban⟩) ∧
      start.kept path [broken, undone] = start.returned path [broken, undone] := by
  intro path ban now bytes store start broken undone last
  have hRoom : ¬store.IsExhausted := by decide
  have hLess : 5 < (Store.lineOf (store.stamp ban now)).length := by decide +kernel
  have hOwn : ∀ event ∈ [broken, undone], event.IsOwn := by simp [broken, undone, Event.IsOwn]
  have hUnfinished : start.AreUnfinished path [broken, undone] := by
    refine ⟨?_, trivial, trivial⟩
    rintro _ ⟨rfl⟩
    exact hLess
  have hLines : wholeLines bytes = [0x61, 0x0A] := by decide
  have hStays : start.kept path ([broken, undone] ++ [last]) = [⟨3, now, ban⟩] := by decide +kernel
  obtain ⟨-, hFails, hUndone, -, hRuns⟩ := failedWrite_isUndone path bytes
  obtain ⟨-, hFinal, hKept⟩ := hRuns (some store) [broken, undone] hOwn
  have hSlot := hFinal last _ trivial rfl
  rw [hLines, hStays, fileOf_singleton] at hSlot
  obtain ⟨spent, -, hBroken⟩ := (hFails store ban now 70 .noAccess true).1 hRoom
  refine ⟨hRoom, hLess, hOwn, trivial, hUnfinished, ?_, _, rfl, hSlot, hKept hUnfinished⟩
  rw [hBroken, hUndone, hLines]

end BanBoard.Log
