import BanBoard.Proofs.Log.FreshIds
import BanBoard.Proofs.Log.ReadBack
import BanBoard.Proofs.Log.Recovery

/-!
The readings of a clock that the times of a log come from. An entry gets the latest of its own reading,
the times of the entries before it and the readings of the appends before it that failed. So a failed
append does not only cost a number. It also raises the times of the entries behind it to its own reading,
if that reading is later than theirs.
-/

namespace BanBoard.Log

open BanBoard.Time (Instant)

/-- Whether a time is one of some times, and none of them is later. -/
structure IsLatestOf (times : List Instant) (t : Instant) : Prop where
  mem : t ∈ times
  le : ∀ other ∈ times, other.le t = true

instance (times : List Instant) (t : Instant) : Decidable (IsLatestOf times t) :=
  decidable_of_iff (t ∈ times ∧ ∀ other ∈ times, other.le t = true)
    ⟨fun ⟨hMem, hLe⟩ => ⟨hMem, hLe⟩, fun ⟨hMem, hLe⟩ => ⟨hMem, hLe⟩⟩

variable {times others lost : List Instant} {t : Instant}

theorem IsLatestOf.of_subset (h : IsLatestOf times t) (hMem : t ∈ others) (hSubset : others ⊆ times) :
    IsLatestOf others t :=
  ⟨hMem, fun other hOther => h.le other (hSubset hOther)⟩

/-- One reading more moves the latest time to the later of both. -/
theorem IsLatestOf.cons (h : IsLatestOf times t) (now : Instant) :
    IsLatestOf (now :: times) (t.latest now) := by
  constructor
  · rcases t.latest_eq_or now with hEq | hEq
    · rw [hEq]
      exact List.mem_cons_of_mem _ h.mem
    · rw [hEq]
      exact List.mem_cons_self
  · rw [List.forall_mem_cons]
    exact ⟨t.le_latest_right now, fun other hOther =>
      Instant.le_trans (h.le other hOther) (t.le_latest_left now)⟩

/-- Of two lists of times, the second one has no say as long as none of its times is later than all
those of the first. -/
theorem IsLatestOf.of_append_iff (h : IsLatestOf (times ++ lost) t) :
    IsLatestOf times t ↔ ∀ u ∈ lost, ∃ v ∈ times, u.le v = true := by
  constructor
  · intro hFirst u hLost
    exact ⟨t, hFirst.mem, h.le u (List.mem_append_right _ hLost)⟩
  · intro hLost
    refine h.of_subset ?_ (List.subset_append_left _ _)
    rcases List.mem_append.mp h.mem with hMem | hMem
    · exact hMem
    · obtain ⟨v, hv, hLe⟩ := hLost t hMem
      rwa [Instant.le_antisymm hLe (h.le v (List.mem_append_left _ hv))]

/-- Whether the last time of a cursor is the latest of some times. There is no last time while there
are no times. -/
def Cursor.IsAt (cursor : Cursor) (times : List Instant) : Prop :=
  match cursor.lastTimestamp with
  | none => times = []
  | some last => IsLatestOf times last

/-- A cursor behind some entries is at their latest time. -/
theorem Cursor.IsBehind.isAt {cursor : Cursor} {entries : List Entry} (h : cursor.IsBehind entries) :
    cursor.IsAt (entries.map Entry.timestamp) := by
  rw [Cursor.IsAt, h.lastTimestamp_eq]
  cases entries with
  | nil => rfl
  | cons entry entries =>
      obtain ⟨last, hLast, hMem, hLe⟩ :=
        latestTime_cons entry.timestamp (entries.map Entry.timestamp)
      rw [List.map_cons, hLast]
      exact ⟨hMem, hLe⟩

/-- A stamp is the latest of the reading and everything that the cursor has seen. -/
theorem Store.isLatestOf_stamp {store : Store} (h : store.cursor.IsAt times) (attempt : Attempt)
    (now : Instant) : IsLatestOf (now :: times) (store.stamp attempt now).timestamp := by
  rw [Cursor.IsAt] at h
  rw [Store.stamp]
  cases hLast : store.cursor.lastTimestamp with
  | none =>
      rw [hLast] at h
      dsimp only at h
      subst h
      exact ⟨List.mem_cons_self, List.forall_mem_singleton.mpr now.le_refl⟩
  | some last =>
      rw [hLast] at h
      exact h.cons now

namespace Event

/-- The reading that an append is given, whether it succeeds or not. -/
def reading? : Event → Option Instant
  | append _ now _ => some now
  | refuse _ now => some now
  | _ => none

/-- The reading of an append that fails. -/
def lostReading? (state : State) (event : Event) : Option Instant :=
  if (event.returned? state).isSome then none else event.reading?

/-- An append to an open log spends the entry that it stamps, if there is a number left. It hands this
entry back or it hands back none, and which of the two does not depend on the log. -/
theorem exists_stamp {event : Event} (h : event.appends = 1) (path : List Char) :
    ∃ attempt now, ∃ isWritten : Bool, event.reading? = some now ∧
      ∀ {store spent : Store} (bytes : List UInt8),
        store.spend? (store.stamp attempt now) = some spent →
          event.returned? ⟨some store, .file bytes⟩ =
            (if isWritten then some (store.stamp attempt now) else none) ∧
          ∃ after, (event.apply path ⟨some store, .file bytes⟩).2 = ⟨some spent, .file after⟩ := by
  cases event with
  | append attempt now fate =>
      cases fate with
      | succeeds =>
          refine ⟨attempt, now, true, rfl, fun {store spent} bytes hSpent => ?_⟩
          rw [returned?, Option.bind_some, apply]
          simp only [Store.append_file hSpent]
          exact ⟨rfl, _, rfl⟩
      | fails reached cause rollsBack =>
          refine ⟨attempt, now, false, rfl, fun {store spent} bytes hSpent => ?_⟩
          rw [returned?, Option.bind_some, State.append_eq rfl hSpent]
          simp only [Store.append, hSpent]
          cases rollsBack <;> exact ⟨rfl, _, rfl⟩
  | refuse attempt now =>
      refine ⟨attempt, now, false, rfl, fun {store spent} bytes hSpent => ⟨rfl, bytes, ?_⟩⟩
      rw [apply, Option.map_some, hSpent, Option.getD_some]
  | open_ => cases h
  | truncate length => cases h
  | addRaw bytes => cases h

end Event

namespace State

/-- The readings of the appends among some events that fail, in order. -/
def lostReadings (path : List Char) : List Event → State → List Instant
  | [], _ => []
  | event :: events, state =>
    (event.lostReading? state).toList ++ lostReadings path events (event.apply path state).2

/-- An open log whose last time is the latest of those of some entries and of some lost readings, as long
as its numbers last. -/
def Remembers (written : List Entry) (lost : List Instant) (state : State) : Prop :=
  ∃ store bytes, state = ⟨some store, .file bytes⟩ ∧
    (¬store.IsExhausted → store.cursor.IsAt (written.map Entry.timestamp ++ lost))

variable {written : List Entry} {state : State}

/-- An entry that is returned has the latest of all times so far, lost readings among them. -/
theorem Remembers.isLatestOf (h : Remembers written lost state) {event : Event}
    (hAppends : event.appends = 1) {now : Instant} (hNow : event.reading? = some now) {entry : Entry}
    (hEntry : event.returned? state = some entry) :
    IsLatestOf (now :: written.map Entry.timestamp ++ lost) entry.timestamp := by
  obtain ⟨store, bytes, rfl, hCursor⟩ := h
  obtain ⟨attempt, reading, isWritten, hReading, hSpends⟩ := Event.exists_stamp hAppends []
  obtain rfl := Option.some.inj (hReading.symm.trans hNow)
  have hRoom : ¬store.IsExhausted := fun hExhausted => by
    rw [Event.returned?_exhausted hExhausted] at hEntry
    cases hEntry
  obtain ⟨spent, hSpent, -⟩ := Store.exists_spends hRoom (store.stamp attempt reading)
  rw [(hSpends bytes hSpent).1, Option.ite_none_right_eq_some] at hEntry
  obtain ⟨-, hStamp⟩ := hEntry
  obtain rfl := Option.some.inj hStamp
  exact Store.isLatestOf_stamp (hCursor hRoom) attempt reading

/-- An append that succeeds is remembered by the time of its entry, and one that fails by its
reading. -/
theorem Remembers.apply (h : Remembers written lost state) (path : List Char) {event : Event}
    (hAppends : event.appends = 1) :
    Remembers (written ++ (event.returned? state).toList) (lost ++ (event.lostReading? state).toList)
      (event.apply path state).2 := by
  obtain ⟨store, bytes, rfl, hCursor⟩ := h
  by_cases hExhausted : store.IsExhausted
  · rw [Event.apply_exhausted hAppends path rfl hExhausted]
    exact ⟨store, bytes, rfl, fun hRoom => absurd hExhausted hRoom⟩
  obtain ⟨attempt, now, isWritten, hReading, hSpends⟩ := Event.exists_stamp hAppends path
  obtain ⟨spent, hSpent, hSpent'⟩ := Store.exists_spends hExhausted (store.stamp attempt now)
  obtain ⟨hReturned, after, hAfter⟩ := hSpends bytes hSpent
  have hLatest := Store.isLatestOf_stamp (hCursor hExhausted) attempt now
  refine ⟨spent, after, hAfter, fun _ => ?_⟩
  rw [Cursor.IsAt, hSpent'.lastTimestamp_eq]
  cases isWritten with
  | true =>
      have hWritten : IsLatestOf ((store.stamp attempt now).timestamp ::
          (now :: (written.map Entry.timestamp ++ lost))) (store.stamp attempt now).timestamp :=
        ⟨List.mem_cons_self, List.forall_mem_cons.mpr ⟨Instant.le_refl _, hLatest.le⟩⟩
      rw [Event.lostReading?, hReturned]
      refine hWritten.of_subset ?_ ?_
      · simp
      · intro other hOther
        simp only [List.map_append, List.mem_append, List.mem_cons] at hOther ⊢
        grind
  | false =>
      rw [Event.lostReading?, hReturned, hReading]
      refine hLatest.of_subset ?_ ?_
      · have hMem := hLatest.mem
        simp only [List.map_append, List.mem_append, List.mem_cons] at hMem ⊢
        grind
      · intro other hOther
        simp only [List.map_append, List.mem_append, List.mem_cons] at hOther ⊢
        grind

/-- A run remembers what it has written and what it has lost. -/
theorem Remembers.run (h : Remembers written lost state) (path : List Char) {events : List Event}
    (hAppends : ∀ event ∈ events, event.appends = 1) :
    Remembers (written ++ state.returned path events) (lost ++ state.lostReadings path events)
      (state.run path events) := by
  induction events generalizing written lost state with
  | nil =>
      rw [returned, lostReadings, List.append_nil, List.append_nil]
      exact h
  | cons event events ih =>
      obtain ⟨hHead, hTail⟩ := List.forall_mem_cons.mp hAppends
      rw [returned, lostReadings, ← List.append_assoc, ← List.append_assoc]
      exact ih (h.apply path hHead) hTail

/-- An opened log remembers the entries of the file and has lost nothing. -/
theorem remembers_open {path : List Char} {before slot : Slot} {store : Store} {old : List Entry}
    (hOpen : Store.open_ path before = (.ok store, slot)) (hOld : slot.Reads old) :
    Remembers old [] ⟨some store, slot⟩ := by
  obtain ⟨text, hWhole, rfl, -, hCursor⟩ := Store.open_eq_ok hOpen
  obtain rfl := hOld.eq_entriesOf hWhole
  refine ⟨store, _, rfl, fun _ => ?_⟩
  rw [List.append_nil]
  exact (Cursor.isBehind_of_behind? hCursor).isAt

/-- When the numbers have run out, no append hands anything back. -/
theorem returned_exhausted {store : Store} (h : store.IsExhausted) (path : List Char)
    {events : List Event} (hAppends : ∀ event ∈ events, event.appends = 1) (slot : Slot) :
    State.returned path events ⟨some store, slot⟩ = [] := by
  induction events with
  | nil => rfl
  | cons event events ih =>
      obtain ⟨hHead, hTail⟩ := List.forall_mem_cons.mp hAppends
      rw [returned, Event.returned?_exhausted h, Event.apply_exhausted hHead path rfl h, ih hTail]
      rfl

/-- The numbers of what is handed back start at the next one. -/
theorem nextId_le_of_mem_returned {path : List Char} {store : Store} {bytes : List UInt8}
    {events : List Event} (hAppends : ∀ event ∈ events, event.appends = 1) :
    ∀ entry ∈ State.returned path events ⟨some store, .file bytes⟩,
      store.cursor.nextId.toNat ≤ entry.id.toNat := by
  induction events generalizing store bytes with
  | nil => exact List.forall_mem_nil _
  | cons event events ih =>
      obtain ⟨hHead, hTail⟩ := List.forall_mem_cons.mp hAppends
      by_cases hExhausted : store.IsExhausted
      · rw [returned_exhausted hExhausted path hAppends]
        exact List.forall_mem_nil _
      obtain ⟨attempt, now, isWritten, -, hSpends⟩ := Event.exists_stamp hHead path
      obtain ⟨spent, hSpent, hNext⟩ := Store.exists_spends hExhausted (store.stamp attempt now)
      obtain ⟨hReturned, after, hAfter⟩ := hSpends bytes hSpent
      rw [returned, hReturned, hAfter, List.forall_mem_append]
      refine ⟨?_, fun entry hMem => ?_⟩
      · cases isWritten with
        | true => exact List.forall_mem_singleton.mpr (Nat.le_refl _)
        | false => exact List.forall_mem_nil _
      · have hLe := ih hTail entry hMem
        rw [← hNext.nextId_eq] at hLe
        exact Nat.le_of_succ_le hLe

end State

/-- An entry as it comes out behind one more append, which failed with the given reading. -/
def Entry.raisedBy (lost : Instant) (entry : Entry) : Entry :=
  { entry with id := entry.id + 1, timestamp := entry.timestamp.latest lost }

/-- Whether there is an entry as it comes out behind one more append. The last number that is given out
has none behind it. -/
def Entry.canBeRaised (entry : Entry) : Bool := entry.id.toNat + 2 < 2 ^ 64

/-- Two logs of which the second one has one more append behind it, which failed with the given
reading. -/
structure Store.IsRaised (lost : Instant) (store after : Store) : Prop where
  nextId_eq : store.cursor.nextId.toNat + 1 = after.cursor.nextId.toNat
  stamp_eq : ∀ attempt now, after.stamp attempt now = (store.stamp attempt now).raisedBy lost

namespace Store

variable {lost : Instant} {store after next nextAfter : Store} {attempt : Attempt} {now : Instant}

theorem nextId_add_one (h : store.cursor.nextId.toNat + 1 = after.cursor.nextId.toNat) :
    after.cursor.nextId = store.cursor.nextId + 1 := by
  have hBound := after.cursor.nextId.toNat_lt
  rw [← UInt64.toNat_inj, UInt64.toNat_add, ← h]
  exact (Nat.mod_eq_of_lt (h.symm ▸ hBound)).symm

/-- The stamp behind an entry has the number after it and no earlier time. -/
theorem Spends.stamp_eq {entry : Entry} (h : store.Spends entry after) (attempt : Attempt)
    (now : Instant) :
    after.stamp attempt now = ⟨store.cursor.nextId + 1, entry.timestamp.latest now, attempt⟩ := by
  rw [stamp, h.lastTimestamp_eq, nextId_add_one h.nextId_eq]

/-- A reading that was lost leaves its number and its time behind. -/
theorem Spends.isRaised (h : store.Spends (store.stamp attempt lost) after) :
    store.IsRaised lost after where
  nextId_eq := h.nextId_eq
  stamp_eq := fun next now => by
    rw [h.stamp_eq, stamp, stamp, Entry.raisedBy]
    cases store.cursor.lastTimestamp with
    | none => simp only [Instant.latest_comm now lost]
    | some last => simp only [Instant.latest_right_comm last now lost]

/-- Two logs that differ by a lost reading differ by it after the next entry too. -/
theorem IsRaised.spend (h : store.IsRaised lost after)
    (hNext : store.Spends (store.stamp attempt now) next)
    (hNextAfter : after.Spends (after.stamp attempt now) nextAfter) : next.IsRaised lost nextAfter where
  nextId_eq := by rw [← hNext.nextId_eq, ← hNextAfter.nextId_eq, h.nextId_eq]
  stamp_eq := fun other later => by
    have hTime : (after.stamp attempt now).timestamp =
        (store.stamp attempt now).timestamp.latest lost := congrArg Entry.timestamp (h.stamp_eq attempt now)
    rw [hNext.stamp_eq, hNextAfter.stamp_eq, nextId_add_one h.nextId_eq, hTime, Entry.raisedBy,
      Instant.latest_right_comm]

/-- While the raised log has a number left, so has the other one, and its entry can be raised. -/
theorem IsRaised.canBeRaised_stamp (h : store.IsRaised lost after) (hRoom : ¬after.IsExhausted)
    (attempt : Attempt) (now : Instant) :
    ¬store.IsExhausted ∧ (store.stamp attempt now).canBeRaised = true := by
  have hNext := h.nextId_eq
  have hBound := after.cursor.nextId.toNat_lt
  rw [IsExhausted] at hRoom ⊢
  have hLess : store.cursor.nextId.toNat + 2 < 2 ^ 64 := by omega
  exact ⟨by omega, decide_eq_true hLess⟩

end Store

/-- The same appends succeed on both logs, as long as the numbers last, and what they hand back differs by
the raise alone. -/
theorem State.returned_raised {lost : Instant} {store after : Store} (h : store.IsRaised lost after)
    (path : List Char) {events : List Event} (hAppends : ∀ event ∈ events, event.appends = 1)
    (bytes others : List UInt8) :
    State.returned path events ⟨some after, .file others⟩ =
      ((State.returned path events ⟨some store, .file bytes⟩).filter Entry.canBeRaised).map
        (Entry.raisedBy lost) := by
  induction events generalizing store after bytes others with
  | nil => rfl
  | cons event events ih =>
      by_cases hExhausted : after.IsExhausted
      · -- The other log may have one number left, but no entry with that number can be raised.
        have hNone : (State.returned path (event :: events) ⟨some store, .file bytes⟩).filter
            Entry.canBeRaised = [] := by
          refine List.filter_eq_nil_iff.mpr fun entry hMem hRaised => ?_
          have hLe := nextId_le_of_mem_returned hAppends entry hMem
          have hLess : entry.id.toNat + 2 < 2 ^ 64 := of_decide_eq_true hRaised
          have hNext := h.nextId_eq
          rw [Store.IsExhausted] at hExhausted
          omega
        rw [hNone, returned_exhausted hExhausted path hAppends]
        rfl
      obtain ⟨hHead, hTail⟩ := List.forall_mem_cons.mp hAppends
      obtain ⟨attempt, now, isWritten, -, hSpends⟩ := Event.exists_stamp hHead path
      obtain ⟨hRoom, hRaised⟩ := h.canBeRaised_stamp hExhausted attempt now
      obtain ⟨spent, hSpent, hSpent'⟩ := Store.exists_spends hRoom (store.stamp attempt now)
      obtain ⟨other, hOther, hOther'⟩ := Store.exists_spends hExhausted (after.stamp attempt now)
      obtain ⟨hFirst, next, hNext⟩ := hSpends bytes hSpent
      obtain ⟨hFirstOther, nextOther, hNextOther⟩ := hSpends others hOther
      rw [State.returned, State.returned, hFirst, hNext, hFirstOther, hNextOther, List.filter_append,
        List.map_append, ih (h.spend hSpent' hOther') hTail next nextOther, h.stamp_eq attempt now]
      cases isWritten with
      | true => simp only [if_pos, Option.toList_some, List.filter_cons_of_pos hRaised, List.filter_nil,
          List.map_singleton]
      | false => rfl

/-- Raising changes no time just when no entry is earlier than the reading. -/
theorem map_timestamp_raisedBy_iff {lost : Instant} {entries : List Entry} :
    (entries.map (Entry.raisedBy lost)).map Entry.timestamp = entries.map Entry.timestamp ↔
      ∀ entry ∈ entries, lost.le entry.timestamp = true := by
  rw [List.map_map, List.map_inj_left]
  exact forall₂_congr fun entry _ => Instant.latest_eq_left_iff

/-- An entry gets the latest of its own reading, the times of all entries in the file before it and the
readings of the failed appends before it. Without these readings it is still the latest just when none
of them is later than all the others. What stands behind a failed append comes out one number further, as
far as the numbers last, and with times that are raised to its reading, so they stay what they are just
when none of them is earlier than that. -/
theorem append_getsLatestTime {path : List Char} {before slot : Slot} {store : Store}
    {old : List Entry} {earlier later : List Event} {event : Event} {now : Instant}
    (hOpen : Store.open_ path before = (.ok store, slot)) (hOld : slot.Reads old)
    (hAppends : ∀ append ∈ earlier ++ event :: later, append.appends = 1)
    (hNow : event.reading? = some now) :
    let start : State := ⟨some store, slot⟩
    let state := start.run path earlier
    let written := (old ++ start.returned path earlier).map Entry.timestamp
    let lost := start.lostReadings path earlier
    let unchanged := (state.returned path later).filter Entry.canBeRaised
    let behind := (event.apply path state).2.returned path later
    (∀ entry, event.returned? state = some entry →
      IsLatestOf (now :: written ++ lost) entry.timestamp ∧
      (IsLatestOf (now :: written) entry.timestamp ↔
        ∀ t ∈ lost, ∃ u ∈ now :: written, t.le u = true)) ∧
    (event.returned? state = none →
      behind = unchanged.map (Entry.raisedBy now) ∧
      (behind.map Entry.timestamp = unchanged.map Entry.timestamp ↔
        ∀ entry ∈ unchanged, now.le entry.timestamp = true)) := by
  intro start state written lost unchanged behind
  rw [List.forall_mem_append, List.forall_mem_cons] at hAppends
  obtain ⟨hEarlier, hEvent, hLater⟩ := hAppends
  have hState := (State.remembers_open hOpen hOld).run path hEarlier
  constructor
  · intro entry hEntry
    have hLatest := hState.isLatestOf hEvent hNow hEntry
    exact ⟨hLatest, hLatest.of_append_iff⟩
  · intro hNone
    have hBehind : behind = unchanged.map (Entry.raisedBy now) := by
      obtain ⟨current, bytes, hCurrent, -⟩ := hState
      have hSame : state = ⟨some current, .file bytes⟩ := hCurrent
      by_cases hExhausted : current.IsExhausted
      · have hStill := Event.apply_exhausted hEvent path (congrArg State.store hSame) hExhausted
        have hEmpty := State.returned_exhausted hExhausted path hLater (.file bytes)
        rw [← hSame] at hEmpty
        simp only [behind, unchanged, hStill, hEmpty, List.filter_nil, List.map_nil]
      obtain ⟨attempt, reading, isWritten, hReading, hSpends⟩ := Event.exists_stamp hEvent path
      obtain rfl := Option.some.inj (hReading.symm.trans hNow)
      obtain ⟨spent, hSpent, hSpent'⟩ := Store.exists_spends hExhausted (current.stamp attempt reading)
      obtain ⟨-, after, hAfter⟩ := hSpends bytes hSpent
      simp only [behind, unchanged, hSame, hAfter]
      exact State.returned_raised hSpent'.isRaised path hLater bytes after
    refine ⟨hBehind, ?_⟩
    rw [hBehind]
    exact map_timestamp_raisedBy_iff

/-- A write breaks off at a reading that is later than the next one and than the time in the file. -/
theorem append_getsLatestTime_failedBefore :
    let path := "actions.jsonl".toList
    let ban := Attempt.success .ban "sshd".toList "192.0.2.1".toList
    let old : List Entry := [⟨4, ⟨1714525200, 0⟩, ban⟩]
    let store : Store := ⟨path, ⟨5, some ⟨1714525200, 0⟩⟩⟩
    let start : State := ⟨some store, .file (fileOf old)⟩
    let failed : Event := .append ban ⟨1714525500, 0⟩ (.fails 3 .noAccess false)
    let last : Event := .append ban ⟨1714525323, 7⟩ .succeeds
    Store.open_ path (.file (fileOf old)) = (.ok store, .file (fileOf old)) ∧
    (Slot.file (fileOf old)).Reads old ∧ (∀ append ∈ [failed] ++ last :: [], append.appends = 1) ∧
    last.reading? = some ⟨1714525323, 7⟩ ∧
    last.returned? (start.run path [failed]) = some ⟨6, ⟨1714525500, 0⟩, ban⟩ ∧
    IsLatestOf [⟨1714525323, 7⟩, ⟨1714525200, 0⟩, ⟨1714525500, 0⟩] ⟨1714525500, 0⟩ := by
  intro path ban old store start failed last
  have hTimes : ∀ entry ∈ old, entry.timestamp.WellFormed := by decide
  have hCursor : Cursor.behind? old = some store.cursor := by decide
  have hOpen := Store.open_eq (Slot.holds_fileOf old) hTimes hCursor path
  have hOld : (Slot.file (fileOf old)).Reads old := Slot.reads_fileOf hTimes
  have hAppends : ∀ append ∈ [failed] ++ last :: [], append.appends = 1 := by
    simp [failed, last, Event.appends]
  have hNow : last.reading? = some ⟨1714525323, 7⟩ := rfl
  have hReturned : last.returned? (start.run path [failed]) = some ⟨6, ⟨1714525500, 0⟩, ban⟩ := rfl
  obtain ⟨hLatest, -⟩ := append_getsLatestTime hOpen hOld hAppends hNow
  exact ⟨hOpen, hOld, hAppends, hNow, hReturned, (hLatest _ hReturned).1⟩

/-- An append that was refused moves the time of the next entry, which is neither that of its own reading
nor that of an entry. -/
theorem append_keepsLostReading :
    let path := "actions.jsonl".toList
    let ban := Attempt.success .ban "sshd".toList "192.0.2.1".toList
    let first : Event := .append ban ⟨1714525200, 0⟩ .succeeds
    let refused : Event := .refuse ban ⟨1714554000, 0⟩
    let last : Event := .append ban ⟨1714525320, 0⟩ .succeeds
    ∃ store slot, Store.open_ path .missing = (.ok store, slot) ∧ slot.Reads [] ∧
      State.returned path [first, refused] ⟨some store, slot⟩ = [⟨1, ⟨1714525200, 0⟩, ban⟩] ∧
      last.returned? (State.run path [first] ⟨some store, slot⟩) =
        some ⟨2, ⟨1714525320, 0⟩, ban⟩ ∧
      last.returned? (State.run path [first, refused] ⟨some store, slot⟩) =
        some ⟨3, ⟨1714554000, 0⟩, ban⟩ ∧
      ¬ IsLatestOf [⟨1714525320, 0⟩, ⟨1714525200, 0⟩] ⟨1714554000, 0⟩ := by
  intro path ban first refused last
  have hNone : (Slot.missing).Holds [] := rfl
  have hCursor : Cursor.behind? [] = some ⟨1, none⟩ := rfl
  exact ⟨_, _, Store.open_eq hNone (List.forall_mem_nil _) hCursor path,
    Slot.reads_fileOf (List.forall_mem_nil _), rfl, rfl, rfl, by decide⟩

end BanBoard.Log
