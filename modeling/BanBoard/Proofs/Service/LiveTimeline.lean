import BanBoard.Proofs.Log.Damage
import BanBoard.Proofs.Overview.Timeline
import BanBoard.Proofs.Service.Reading

/-!
The timeline of a live status. It shows the log and nothing else, and the log is only read from the
first hour of the timeline on. No ban in one of the hours is lost by that, whatever order the entries
are in, and neither unbans nor bans that failed are counted.
-/

namespace BanBoard

open BanBoard.Log (Entry entriesOf)
open BanBoard.Overview
open BanBoard.Time (Instant)
open scoped List

namespace Log

/-- Whether an entry records a ban that succeeded. -/
def Entry.IsBan (entry : Entry) : Prop :=
  entry.attempt.action = .ban ∧ entry.attempt.outcome = .success

instance : DecidablePred Entry.IsBan := fun _ => instDecidableAnd

def timesOfBans (entries : List Entry) : List Instant :=
  (entries.filter fun entry => entry.IsBan).map Entry.timestamp

/-- The bans of an hour are counted among the entries. -/
theorem countOfHour_timesOfBans (entries : List Entry) (hour : Int) :
    countOfHour (timesOfBans entries) hour =
      entries.countP fun entry => entry.IsBan ∧ entry.timestamp.hour = hour := by
  rw [countOfHour, timesOfBans, List.countP_map, List.countP_filter]
  refine List.countP_congr fun entry _ => ?_
  simp [and_comm]

/-- A query for bans finds all of them from its instant on, in some order. -/
theorem Store.exists_banTimes (store : Store) {slot : Slot} {text : List Char}
    (hText : slot.text = .ok text) (since : Instant) :
    ∃ times, store.banTimes slot since = .ok times ∧
      times ~ (timesOfBans (entriesOf text)).filter since.le := by
  let query : Query := { Query.all with since := some since, action := some .ban }
  have hTimes : store.banTimes slot since =
      .ok (((query.answer (entriesOf text)).filter Entry.succeeded).map Entry.timestamp) := by
    rw [Store.banTimes, Store.query, hText]
    rfl
  have hAnswer : query.answer (entriesOf text) ~ (entriesOf text).filter query.admits :=
    List.mergeSort_perm _ _
  have hSame : ((entriesOf text).filter query.admits).filter Entry.succeeded =
      ((entriesOf text).filter fun entry => entry.IsBan).filter fun entry => since.le entry.timestamp := by
    rw [List.filter_filter, List.filter_filter]
    refine List.filter_congr fun entry _ => Bool.eq_iff_iff.mpr ?_
    simp only [query, Query.all, Query.admits, Entry.succeeded, Option.all_some, Option.all_none,
      Bool.and_true, Bool.and_eq_true, decide_eq_true_eq]
    constructor
    · rintro ⟨hOutcome, hSince, hAction⟩
      exact ⟨hSince, hAction, hOutcome⟩
    · rintro ⟨hSince, hAction, hOutcome⟩
      exact ⟨hOutcome, hSince, hAction⟩
  refine ⟨_, hTimes, ((hAnswer.filter _).map _).trans (List.Perm.of_eq ?_)⟩
  rw [hSame, timesOfBans, List.filter_map]
  rfl

end Log

namespace Service

variable {σ : Type}

/-- A live status is made of the jails that the daemon lists and of the log as it was before. -/
theorem statusAt_live {service : Service σ} (hLive : service.mode = .live) (state : State σ)
    (now : Instant) :
    (service.statusAt state now).1 =
      (service.liveJails state).1.bind fun jails =>
        snapshotOf .live jails (loggedBans state now) now := by
  have hLog := (readsOnly_liveJails service state).log_eq
  rw [statusAt, hLive]
  dsimp only
  generalize service.liveJails state = listed at hLog
  obtain ⟨result, next⟩ := listed
  cases result with
  | error e => rfl
  | ok jails =>
      obtain ⟨hStore, hSlot⟩ := hLog
      have hSame : loggedBans next now = loggedBans state now := by
        rw [loggedBans, hStore, hSlot, loggedBans]
      exact congrArg (snapshotOf .live jails · now) hSame

/-- With a timeline there is a snapshot, unless a total is no word. -/
theorem snapshotOf_eq {events : List Instant} {now : Instant} {buckets : List Bucket}
    (h : timeline? events now = some buckets) (mode : Mode) (jails : List Jail) :
    snapshotOf mode jails events now =
      match Totals.ofJails? jails with
      | some totals => .ok ⟨mode, now, totals, jails, buckets, topOffenders jails shownOffenders⟩
      | none => .error .panic := by
  cases hTotals : Totals.ofJails? jails with
  | some totals => rw [snapshotOf, Snapshot.compose?_eq hTotals h]
  | none =>
      rw [snapshotOf, Snapshot.compose?, hTotals]
      rfl

/-- The service finds the bans from the start of the window on. -/
theorem perm_loggedBans {state : State σ} {text : List Char} (hText : state.slot.text = .ok text)
    (now : Instant) :
    loggedBans state now ~ (Log.timesOfBans (entriesOf text)).filter (windowStart now).le := by
  obtain ⟨times, hTimes, hPerm⟩ := state.log.exists_banTimes hText (windowStart now)
  rw [loggedBans, hTimes]
  exact hPerm

/-- While the log is a text, a live status has the timeline of all its bans, as if they had been read
without a first hour. In each hour that is every ban that succeeded then, and nothing else. There is no
status where a total of the jails is no word. -/
theorem liveTimeline_losesNoBan {service : Service σ} (hLive : service.mode = .live) {state : State σ}
    {text : List Char} (hText : state.slot.text = .ok text) {now : Instant}
    (hWindow : hasWindow now = true) :
    ∃ entries buckets, entries = (text.splitOn '\n').filterMap Entry.decode? ∧
      timeline? (Log.timesOfBans entries) now = some buckets ∧
      (service.statusAt state now).1.map Snapshot.timeline =
        ((service.liveJails state).1.bind fun jails =>
          if (Totals.ofJails? jails).isSome then .ok buckets else .error .panic) ∧
      (loggedBans state now).filter (inWindow now) ~
        (Log.timesOfBans entries).filter (inWindow now) ∧
      ∀ bucket ∈ buckets, bucket.count = UInt32.ofNat
        (entries.countP fun entry => entry.IsBan ∧ entry.timestamp.floorHour = bucket.hour) := by
  have hBans := perm_loggedBans hText now
  have hTimeline := timeline?_eq hWindow (Log.timesOfBans (entriesOf text))
  -- The order of the log does not matter for a timeline, and neither do bans before its first hour.
  have hShown : timeline? (loggedBans state now) now =
      timeline? (Log.timesOfBans (entriesOf text)) now := by
    rw [timeline?_perm hBans, timeline?_filter]
  refine ⟨entriesOf text, _, Log.entriesOf_eq text, hTimeline, ?_, ?_, ?_⟩
  · rw [statusAt_live hLive]
    cases (service.liveJails state).1 with
    | error e => rfl
    | ok jails =>
        rw [Except.bind, snapshotOf_eq (hShown.trans hTimeline), Except.bind]
        cases Totals.ofJails? jails <;> rfl
  · refine (hBans.filter _).trans (List.Perm.of_eq ?_)
    rw [List.filter_filter]
    refine List.filter_congr fun t _ => Bool.eq_iff_iff.mpr ?_
    rw [Bool.and_eq_true, and_iff_left_iff_imp, inWindow_iff hWindow,
      windowStart_eq (floorHour_of_hasWindow hWindow), Instant.startOfHour_le_iff]
    exact And.left
  · rw [List.forall_mem_map]
    intro i hMem
    simp only [Log.countOfHour_timesOfBans,
      Instant.floorHour_eq_iff (isRepresentable_shownHour hWindow (List.mem_range.mp hMem))]

/-- A ban at the first instant of the window, behind a failed one and in front of a ban in the leap second
before the window and an unban. -/
theorem liveTimeline_losesNoBan_firstInstant :
    let now : Instant := ⟨1714525323, 0⟩
    let sshd := "sshd".toList
    let ip := "192.0.2.1".toList
    let entries : List Entry :=
      [⟨3, now, .failure .ban sshd ip "timed out".toList⟩, ⟨9, ⟨1714442400, 0⟩, .success .ban sshd ip⟩,
        ⟨1, ⟨1714442399, 1999999999⟩, .success .ban sshd ip⟩, ⟨2, now, .success .unban sshd ip⟩]
    let service : Service Unit := ⟨.live, none, .utc, fun state _ => (.ok ⟨[], [], some 0⟩, state)⟩
    let state : State Unit := ⟨(), [], ⟨"log".toList, ⟨10, some now⟩⟩, .file (Log.fileOf entries)⟩
    service.mode = .live ∧ (∃ text, state.slot.text = .ok text) ∧ hasWindow now = true ∧
    ∃ buckets, timeline? (Log.timesOfBans entries) now = some buckets ∧
      buckets.map Bucket.count = 1 :: List.replicate 23 0 ∧
      (service.statusAt state now).1.map Snapshot.timeline = .ok buckets := by
  intro now sshd ip entries service state
  obtain ⟨text, hText, hEntries⟩ : ∃ text, state.slot.text = .ok text ∧ entriesOf text = entries :=
    Log.exists_text_fileOf (by decide)
  have hWindow : hasWindow now = true := by decide
  have hLive : service.mode = .live := rfl
  obtain ⟨found, buckets, hFound, hTimeline, hStatus, -, -⟩ :=
    liveTimeline_losesNoBan hLive hText hWindow
  rw [← Log.entriesOf_eq, hEntries] at hFound
  have hCounts : (timeline? (Log.timesOfBans entries) now).map (List.map Bucket.count) =
      some (1 :: List.replicate 23 0) := by decide +kernel
  rw [hFound] at hTimeline
  rw [hTimeline] at hCounts
  exact ⟨hLive, ⟨text, hText⟩, hWindow, buckets, hTimeline, Option.some.inj hCounts, hStatus⟩

end Service

end BanBoard
