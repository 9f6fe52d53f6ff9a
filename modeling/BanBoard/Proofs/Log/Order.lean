import BanBoard.Log.Store
import BanBoard.Proofs.Time.Order
import BanBoard.Proofs.Time.Rfc3339

/-!
The order in which a log gives out numbers and times. A cursor behind some entries stamps an entry that
comes after all of them, whatever the clock shows, and lies behind that entry afterwards.
-/

namespace BanBoard.Log

open BanBoard.Time (Instant)

/-- Entries in the order of a log. Each has a greater number than those before it and no earlier
time. -/
def InOrder (entries : List Entry) : Prop :=
  entries.Pairwise fun a b => a.id < b.id ∧ a.timestamp.le b.timestamp = true

instance (entries : List Entry) : Decidable (InOrder entries) :=
  inferInstanceAs (Decidable (entries.Pairwise _))

/-- A cursor that lies behind some entries, so that the next number is free and the next time is not
too early. -/
structure Cursor.IsPast (cursor : Cursor) (entries : List Entry) : Prop where
  id_lt : ∀ entry ∈ entries, entry.id < cursor.nextId
  timestamp_le : ∀ entry ∈ entries,
    ∃ last, cursor.lastTimestamp = some last ∧ entry.timestamp.le last = true

theorem Cursor.IsPast.of_isPrefix {cursor : Cursor} {kept entries : List Entry}
    (h : cursor.IsPast entries) (hKept : kept <+: entries) : cursor.IsPast kept where
  id_lt := fun entry hMem => h.id_lt entry (hKept.subset hMem)
  timestamp_le := fun entry hMem => h.timestamp_le entry (hKept.subset hMem)

theorem InOrder.of_isPrefix {kept entries : List Entry} (h : InOrder entries)
    (hKept : kept <+: entries) : InOrder kept :=
  List.Pairwise.sublist hKept.sublist h

instance lawfulOrderMax : Std.LawfulOrderMax UInt64 := by
  apply Std.LawfulOrderMax.of_max_le_iff
  · intro a b c
    change (if a ≤ b then b else a) ≤ c ↔ a ≤ c ∧ b ≤ c
    simp only [UInt64.le_iff_toNat_le]
    split <;> omega
  · intro a b
    change (if a ≤ b then b else a) = a ∨ (if a ≤ b then b else a) = b
    by_cases h : a ≤ b
    · exact Or.inr (if_pos h)
    · exact Or.inl (if_neg h)

/-- The greatest number is a member and a bound. -/
theorem greatestId_eq_some_iff {ids : List UInt64} {id : UInt64} :
    greatestId ids = some id ↔ id ∈ ids ∧ ∀ other ∈ ids, other ≤ id :=
  List.max?_eq_some_iff

/-- Among times and one before them there is a latest one, and it is one of them. -/
theorem latestTime_cons (first : Instant) (times : List Instant) :
    ∃ last, latestTime (first :: times) = some last ∧ last ∈ first :: times ∧
      ∀ t ∈ first :: times, t.le last = true := by
  rw [latestTime, List.foldl_cons]
  induction times generalizing first with
  | nil => exact ⟨first, rfl, List.mem_cons_self, by simpa using first.le_refl⟩
  | cons t times ih =>
      obtain ⟨last, hLast, hMem, hLe⟩ := ih (first.latest t)
      obtain ⟨hLatest, hTail⟩ := List.forall_mem_cons.mp hLe
      refine ⟨last, hLast, ?_, ?_⟩
      · rcases List.mem_cons.mp hMem with rfl | hMem
        · rcases first.latest_eq_or t with hEq | hEq <;> simp [hEq]
        · exact List.mem_cons_of_mem _ (List.mem_cons_of_mem _ hMem)
      · rw [List.forall_mem_cons, List.forall_mem_cons]
        exact ⟨Instant.le_trans (first.le_latest_left t) hLatest,
          Instant.le_trans (first.le_latest_right t) hLatest, hTail⟩

theorem exists_latestTime {times : List Instant} {t : Instant} (h : t ∈ times) :
    ∃ last, latestTime times = some last ∧ t.le last = true := by
  cases times with
  | nil => simp at h
  | cons first times =>
      obtain ⟨last, hLast, _, hLe⟩ := latestTime_cons first times
      exact ⟨last, hLast, hLe t h⟩

theorem mem_of_latestTime {times : List Instant} {last : Instant}
    (h : latestTime times = some last) : last ∈ times := by
  cases times with
  | nil => simp [latestTime] at h
  | cons first times =>
      obtain ⟨last', hLast, hMem, _⟩ := latestTime_cons first times
      rwa [← Option.some.inj (hLast.symm.trans h)]

/-- What the cursor behind some entries is: its number is above all of theirs and no greater than it has to
be, and its time is their latest. -/
structure Cursor.IsBehind (cursor : Cursor) (entries : List Entry) : Prop where
  id_lt : ∀ entry ∈ entries, entry.id.toNat < cursor.nextId.toNat
  nextId_eq : cursor.nextId = 1 ∨ ∃ entry ∈ entries, cursor.nextId.toNat = entry.id.toNat + 1
  lastTimestamp_eq : cursor.lastTimestamp = latestTime (entries.map Entry.timestamp)

section Behind

variable {entries : List Entry} {cursor : Cursor} {count : Nat}

/-- The cursor behind some entries bounds their numbers and has their latest time. -/
theorem Cursor.isBehind_of_behind? (h : Cursor.behind? entries = some cursor) :
    cursor.IsBehind entries := by
  obtain ⟨next, hNext, rfl⟩ := Option.map_eq_some_iff.mp h
  rw [nextId?] at hNext
  cases hGreatest : greatestId (entries.map Entry.id) with
  | none =>
      obtain rfl := List.map_eq_nil_iff.mp (List.max?_eq_none_iff.mp hGreatest)
      rw [hGreatest] at hNext
      exact ⟨List.forall_mem_nil _, .inl (Option.some.inj hNext).symm, rfl⟩
  | some id =>
      rw [hGreatest] at hNext
      obtain ⟨hMem, hLe⟩ := greatestId_eq_some_iff.mp hGreatest
      obtain ⟨last, hLast, rfl⟩ := List.mem_map.mp hMem
      have hSucc : last.id.toNat + 1 = next.toNat := Number.add?_eq_some_iff.mp hNext
      refine ⟨fun entry hEntry => ?_, .inr ⟨last, hLast, hSucc.symm⟩, rfl⟩
      rw [← hSucc]
      exact Nat.lt_succ_of_le (UInt64.le_iff_toNat_le.mp (hLe _ (List.mem_map_of_mem hEntry)))

/-- There is a cursor just when no entry has the last number of all. -/
theorem Cursor.exists_behind?_iff : (∃ cursor, Cursor.behind? entries = some cursor) ↔
    ∀ entry ∈ entries, entry.id.toNat + 1 < 2 ^ 64 := by
  constructor
  · rintro ⟨cursor, hCursor⟩ entry hMem
    exact Nat.lt_of_le_of_lt ((Cursor.isBehind_of_behind? hCursor).id_lt entry hMem) cursor.nextId.toNat_lt
  · intro hRoom
    have hNext : ∃ next, nextId? (entries.map Entry.id) = some next := by
      rw [nextId?]
      cases hGreatest : greatestId (entries.map Entry.id) with
      | none => exact ⟨1, rfl⟩
      | some id =>
          obtain ⟨last, hLast, rfl⟩ := List.mem_map.mp (greatestId_eq_some_iff.mp hGreatest).1
          have hLess := hRoom last hLast
          refine Option.ne_none_iff_exists'.mp fun hNone => ?_
          have hOver : 2 ^ 64 ≤ last.id.toNat + 1 := Number.add?_eq_none_iff.mp hNone
          omega
    obtain ⟨next, hNext⟩ := hNext
    exact ⟨_, Option.map_eq_some_iff.mpr ⟨next, hNext, rfl⟩⟩

/-- The cursor behind some entries lies past them. -/
theorem Cursor.IsBehind.isPast (h : cursor.IsBehind entries) : cursor.IsPast entries where
  id_lt := fun entry hMem => UInt64.lt_iff_toNat_lt.mpr (h.id_lt entry hMem)
  timestamp_le := fun _ hMem => by
    rw [h.lastTimestamp_eq]
    exact exists_latestTime (List.mem_map_of_mem hMem)

/-- The next number is at most one more than any bound on the numbers so far. -/
theorem Cursor.IsBehind.toNat_nextId_le (h : cursor.IsBehind entries)
    (hIds : ∀ entry ∈ entries, entry.id.toNat ≤ count) : cursor.nextId.toNat ≤ count + 1 := by
  rcases h.nextId_eq with hOne | ⟨entry, hMem, hNext⟩
  · rw [hOne]
    exact Nat.succ_le_succ (Nat.zero_le count)
  · rw [hNext]
    exact Nat.succ_le_succ (hIds entry hMem)

theorem Cursor.IsBehind.wellFormed (hBehind : cursor.IsBehind entries)
    (h : ∀ entry ∈ entries, entry.timestamp.WellFormed) :
    ∀ last ∈ cursor.lastTimestamp, last.WellFormed := by
  intro last hLast
  rw [hBehind.lastTimestamp_eq] at hLast
  obtain ⟨entry, hMem, rfl⟩ := List.mem_map.mp (mem_of_latestTime hLast)
  exact h entry hMem

end Behind

namespace Store

variable {store : Store} {entries : List Entry}

/-- A stamp is never earlier than the last time. -/
theorem le_timestamp_stamp (attempt : Attempt) (now : Instant) {last : Instant}
    (h : store.cursor.lastTimestamp = some last) :
    last.le (store.stamp attempt now).timestamp = true := by
  rw [stamp, h]
  exact last.le_latest_left now

theorem wellFormed_timestamp_stamp (attempt : Attempt) {now : Instant}
    (hLast : ∀ last ∈ store.cursor.lastTimestamp, last.WellFormed) (hNow : now.WellFormed) :
    (store.stamp attempt now).timestamp.WellFormed := by
  unfold stamp
  cases hCursor : store.cursor.lastTimestamp with
  | none => exact hNow
  | some last =>
      rcases last.latest_eq_or now with hEq | hEq
      · simpa only [hEq] using hLast last hCursor
      · simpa only [hEq] using hNow

/-- What is stamped comes after all entries that the cursor lies behind. -/
theorem inOrder_concat_stamp (hOrder : InOrder entries) (hPast : store.cursor.IsPast entries)
    (attempt : Attempt) (now : Instant) :
    InOrder (entries ++ [store.stamp attempt now]) := by
  refine List.pairwise_append.mpr ⟨hOrder, List.pairwise_singleton _ _, ?_⟩
  intro entry hMem _ hStamped
  obtain rfl := List.mem_singleton.mp hStamped
  obtain ⟨last, hLast, hLe⟩ := hPast.timestamp_le entry hMem
  exact ⟨hPast.id_lt entry hMem, Instant.le_trans hLe (le_timestamp_stamp attempt now hLast)⟩

/-- What the log is after an entry was stamped. -/
structure Spends (store : Store) (entry : Entry) (after : Store) : Prop where
  path_eq : after.path = store.path
  nextId_eq : store.cursor.nextId.toNat + 1 = after.cursor.nextId.toNat
  lastTimestamp_eq : after.cursor.lastTimestamp = some entry.timestamp

/-- Whether there is no number behind the next one. -/
def IsExhausted (store : Store) : Prop := store.cursor.nextId.toNat + 1 = 2 ^ 64

instance (store : Store) : Decidable store.IsExhausted := inferInstanceAs (Decidable (_ = _))

variable {after : Store} {entry : Entry}

/-- Spending a number moves the cursor by one and to the time of the entry. -/
theorem spend?_eq_some_iff : store.spend? entry = some after ↔ store.Spends entry after := by
  rw [spend?, Option.map_eq_some_iff]
  constructor
  · rintro ⟨next, hNext, rfl⟩
    exact ⟨rfl, Number.add?_eq_some_iff.mp hNext, rfl⟩
  · rintro ⟨hPath, hNext, hLast⟩
    refine ⟨after.cursor.nextId, Number.add?_eq_some_iff.mpr hNext, ?_⟩
    rw [← hPath, ← hLast]

/-- There is nothing to spend just when the numbers have run out. -/
theorem spend?_eq_none_iff : store.spend? entry = none ↔ store.IsExhausted := by
  have hBound := store.cursor.nextId.toNat_lt
  have hOne : (1 : UInt64).toNat = 1 := rfl
  rw [spend?, Option.map_eq_none_iff, Number.add?_eq_none_iff, IsExhausted, hOne]
  omega

/-- Unless the numbers have run out, any entry can be stamped. -/
theorem exists_spends (h : ¬store.IsExhausted) (entry : Entry) :
    ∃ after, store.spend? entry = some after ∧ store.Spends entry after := by
  obtain ⟨after, hAfter⟩ := Option.ne_none_iff_exists'.mp (mt spend?_eq_none_iff.mp h)
  exact ⟨after, hAfter, spend?_eq_some_iff.mp hAfter⟩

/-- A spent cursor lies behind what was stamped as well. -/
theorem Spends.isPast {attempt : Attempt} {now : Instant}
    (h : store.Spends (store.stamp attempt now) after) (hPast : store.cursor.IsPast entries) :
    after.cursor.IsPast (entries ++ [store.stamp attempt now]) := by
  constructor <;> intro entry hMem
  · rw [UInt64.lt_iff_toNat_lt, ← h.nextId_eq, Nat.lt_succ_iff]
    rcases List.mem_append.mp hMem with hMem | hMem
    · exact Nat.le_of_lt (UInt64.lt_iff_toNat_lt.mp (hPast.id_lt entry hMem))
    · rw [List.mem_singleton.mp hMem]
      exact Nat.le_refl _
  · refine ⟨_, h.lastTimestamp_eq, ?_⟩
    rcases List.mem_append.mp hMem with hMem | hMem
    · obtain ⟨last, hLast, hLe⟩ := hPast.timestamp_le entry hMem
      exact Instant.le_trans hLe (le_timestamp_stamp attempt now hLast)
    · rw [List.mem_singleton.mp hMem]
      exact Instant.le_refl _

end Store

/-- Whether an entry comes no later than another, by time and then by number. -/
def Entry.Precedes (a b : Entry) : Prop :=
  a.timestamp.le b.timestamp = true ∧ (a.timestamp = b.timestamp → a.id ≤ b.id)

namespace Query

/-- The comparison of entries is by time and then by number. -/
theorem entryLe_iff {a b : Entry} : entryLe a b = true ↔ a.Precedes b := by
  rw [entryLe, Entry.Precedes]
  split
  · rename_i hTime
    simp [hTime, Instant.le_refl]
  · rename_i hTime
    simp [hTime]

theorem entryLe_trans (a b c : Entry) (hab : entryLe a b = true) (hbc : entryLe b c = true) :
    entryLe a c = true := by
  rw [entryLe_iff] at hab hbc ⊢
  refine ⟨Instant.le_trans hab.1 hbc.1, fun hTime => ?_⟩
  have hMiddle : a.timestamp = b.timestamp := Instant.le_antisymm hab.1 (hTime ▸ hbc.1)
  exact UInt64.le_trans (hab.2 hMiddle) (hbc.2 (hMiddle ▸ hTime))

theorem entryLe_total (a b : Entry) : (entryLe a b || entryLe b a) = true := by
  rw [Bool.or_eq_true, entryLe_iff, entryLe_iff]
  by_cases hTime : a.timestamp = b.timestamp
  · rcases UInt64.le_total a.id b.id with hId | hId
    · exact Or.inl ⟨hTime ▸ Instant.le_refl _, fun _ => hId⟩
    · exact Or.inr ⟨hTime ▸ Instant.le_refl _, fun _ => hId⟩
  · exact (Instant.le_total a.timestamp b.timestamp).imp
      (fun hLe => ⟨hLe, fun hEq => absurd hEq hTime⟩)
      (fun hLe => ⟨hLe, fun hEq => absurd hEq.symm hTime⟩)

theorem pairwise_mergeSort (entries : List Entry) :
    (entries.mergeSort entryLe).Pairwise Entry.Precedes :=
  (List.pairwise_mergeSort entryLe_trans entryLe_total entries).imp entryLe_iff.mp

/-- An answer is ordered by time, and by number where times are equal. -/
theorem pairwise_answer_all (entries : List Entry) :
    (Query.all.answer entries).Pairwise fun a b =>
      a.timestamp.le b.timestamp = true ∧ (a.timestamp = b.timestamp → a.id ≤ b.id) :=
  pairwise_mergeSort _

end Query

end BanBoard.Log
