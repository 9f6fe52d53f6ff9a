import BanBoard.Proofs.Demo.Split
import BanBoard.Proofs.Jail.Basic
import BanBoard.Proofs.Overview.Timeline
import BanBoard.Proofs.Overview.Totals
import BanBoard.Proofs.Time.Rfc3339
import Mathlib.Data.List.Induction
import Mathlib.Data.List.Perm.Subperm

/-!
Synthetic data at an instant. Which bans a jail keeps is settled by its plan, and the instant only says
when they were. From a sound plan follow the bounds on every entry and on every event, and none of the
events lies outside the hours that a timeline shows.
-/

namespace BanBoard.Demo

open BanBoard.Overview
open BanBoard.Random
open BanBoard.Time
open scoped List

/-- Plan another ban, unless its address is planned already. -/
def keepBan (kept : List PlannedBan) (ban : PlannedBan) : List PlannedBan :=
  if kept.any fun other => other.origin.ip = ban.origin.ip then kept else kept ++ [ban]

/-- The bans of a planned jail, the first one of each address. -/
def PlannedJail.kept (plan : PlannedJail) : List PlannedBan := plan.bans.foldl keepBan []

/-- The bans that are kept stand in the order in which they were drawn. -/
theorem foldl_keepBan_sublist (bans : List PlannedBan) : bans.foldl keepBan [] <+ bans := by
  induction bans using List.reverseRecOn with
  | nil => exact .slnil
  | append_singleton bans ban ih =>
      rw [List.foldl_concat, keepBan]
      split
      · exact ih.trans (List.sublist_append_left _ _)
      · exact ih.append_right [ban]

theorem nodup_foldl_keepBan (bans : List PlannedBan) :
    ((bans.foldl keepBan []).map fun ban => ban.origin.ip).Nodup := by
  induction bans using List.reverseRecOn with
  | nil => exact List.nodup_nil
  | append_singleton bans ban ih =>
      rw [List.foldl_concat, keepBan]
      split
      · exact ih
      · rename_i hOther
        have hNew : ban.origin.ip ∉ (bans.foldl keepBan []).map fun ban => ban.origin.ip := by
          simpa using hOther
        rw [List.map_append, List.map_singleton]
        exact List.concat_eq_append ▸ ih.concat hNew

/-- A jail takes exactly the bans that are kept, each as an entry of its own. -/
theorem foldl_addBanned (now : Instant) {jail : Jail} {name : List Char} (hName : jail.name = name)
    (bans : List PlannedBan) {kept : List PlannedBan}
    (hKept : jail.banned = kept.map (PlannedBan.entry now name)) :
    bans.foldl (fun jail ban => (jail.addBanned (ban.entry now name)).2) jail =
      jail.withBanned ((bans.foldl keepBan kept).map (PlannedBan.entry now name)) := by
  induction bans generalizing jail kept with
  | nil => rw [List.foldl_nil, List.foldl_nil, ← hKept, Jail.withBanned_self]
  | cons ban bans ih =>
      have hListed : jail.isBanned (ban.entry now name).ip =
          kept.any fun other => other.origin.ip = ban.origin.ip := by
        rw [Jail.isBanned, hKept, List.any_map]
        rfl
      rw [List.foldl_cons, List.foldl_cons, keepBan, Jail.addBanned, hListed]
      split
      · exact ih hName hKept
      · have hNext : (jail.withBanned (jail.banned ++ [ban.entry now name])).banned =
            (kept ++ [ban]).map (PlannedBan.entry now name) := by
          rw [Jail.withBanned_banned, hKept, List.map_append, List.map_singleton]
        have hSame : (jail.withBanned (jail.banned ++ [ban.entry now name])).name = name := hName
        have hOwn : { ban.entry now name with jail := jail.name } = ban.entry now name :=
          congrArg (PlannedBan.entry now · ban) hName
        rw [hOwn, ih hSame hNext, Jail.withBanned_withBanned]

/-- The jail that is shown, its list made of the bans that are kept. -/
theorem jail_at_eq (now : Instant) (plan : PlannedJail) : plan.at_ now =
    { name := plan.name
      currentlyFailed := plan.currentlyFailed.toUInt64
      totalFailed := plan.totalFailed.toUInt64
      totalBanned := (plan.kept.length + plan.otherBanned).toUInt64
      banned := plan.kept.map (PlannedBan.entry now plan.name)
      fileList := [] } := by
  have hName : (Jail.empty plan.name).name = plan.name := rfl
  have hNone : (Jail.empty plan.name).banned = [].map (PlannedBan.entry now plan.name) := rfl
  have hCount : (plan.kept.map (PlannedBan.entry now plan.name)).length = plan.kept.length :=
    List.length_map _
  rw [PlannedJail.at_, foldl_addBanned now hName plan.bans hNone, ← PlannedJail.kept, ← hCount]
  rfl

/-- How many hours before the present one a planned ban was. -/
def PlannedBan.hoursAgoAt (now : Instant) (ban : PlannedBan) : Nat :=
  (60 * ban.minutesAgo + 3599 - ((now.seconds % 3600).toNat + now.leapSecond)) / 3600

/-- How many hours before the present one a planned event was. -/
def PlannedEvent.hoursAgoAt (now : Instant) (event : PlannedEvent) : Nat :=
  (3600 * event.hoursAgo + 3599 - (event.second + now.leapSecond)) / 3600

def Plan.listed (plan : Plan) : List PlannedBan := plan.jails.flatMap PlannedJail.kept

/-- How many hours ago everything was that a timeline counts. -/
def Plan.hoursAgoAt (now : Instant) (plan : Plan) : List Nat :=
  plan.events.map (PlannedEvent.hoursAgoAt now) ++ plan.listed.map (PlannedBan.hoursAgoAt now)

/-- The bans of all jails are dated back from the instant by their minutes. -/
theorem banTimes_at (now : Instant) (plan : Plan) :
    banTimes (plan.jails.map (PlannedJail.at_ now)) =
      plan.listed.map fun ban => now.addSeconds (-(60 * (ban.minutesAgo : Int))) := by
  rw [banTimes, Plan.listed, List.flatMap_map, List.map_flatMap]
  refine congrArg (List.flatMap · plan.jails) (funext fun jail => ?_)
  rw [jail_at_eq, List.filterMap_map]
  exact congrFun List.filterMap_eq_map jail.kept

theorem toNat_toUInt64_le {n : Nat} (h : n ≤ 5000) : n.toUInt64.toNat ≤ 5000 := by
  rwa [UInt64.toNat_ofNat_of_lt' (Nat.lt_of_le_of_lt h (by decide))]

/-- Every counter of a synthetic jail is small. -/
theorem PlannedJail.IsSound.ofJail_le {now : Instant} {plan : PlannedJail} (h : plan.IsSound)
    (counter : Counter) : (counter.ofJail (plan.at_ now)).toNat ≤ 5000 := by
  have hKept : plan.kept.length ≤ 8 :=
    Nat.le_trans (foldl_keepBan_sublist plan.bans).length_le h.length_le
  have hFifty := h.le_fifty
  rw [jail_at_eq]
  cases counter with
  | currentlyFailed => exact toNat_toUInt64_le (Nat.le_trans h.le_ten (by decide))
  | totalFailed => exact toNat_toUInt64_le h.le_fiveThousand
  | totalBanned => exact toNat_toUInt64_le (by omega)

/-- An instant with a day before it and two hours after it in the calendar. -/
structure HasRoom (now : Instant) : Prop where
  before : (now.addSeconds (-86400)).isRepresentable = true
  after : (now.addSeconds 7200).isRepresentable = true

section Room

variable {now : Instant} (h : HasRoom now)
include h

/-- Room in seconds, with the nanoseconds of a leap second included. -/
theorem HasRoom.bounds :
    Instant.firstSecond + 86399 ≤ now.seconds ∧ now.seconds + 7200 ≤ Instant.lastSecond ∧
      now.nanos < 3 * nanosPerSecond := by
  obtain ⟨hFirst, -, hNanos⟩ := (Instant.isRepresentable_iff _).mp h.before
  obtain ⟨-, hLast, -⟩ := (Instant.isRepresentable_iff _).mp h.after
  have hBack := now.seconds_addSeconds_bounds (-86400)
  have hOn := now.seconds_addSeconds_bounds 7200
  refine ⟨by omega, by omega, (now.nanos_addSeconds_lt_iff (by decide)).mp hNanos⟩

/-- The oldest of the hours with events can be represented. -/
theorem HasRoom.isRepresentable_oldestHour :
    ((eventHour now).addSeconds (-(3600 * 23))).isRepresentable = true := by
  obtain ⟨hFirst, hLast, hNanos⟩ := h.bounds
  have hHour := now.seconds_addSeconds_bounds (-(now.seconds % 3600))
  have hOldest := (eventHour now).seconds_addSeconds_bounds (-(3600 * 23))
  have hFraction := now.nanos_addSeconds_le (-(now.seconds % 3600))
  rw [← eventHour] at hHour hFraction
  rw [Instant.isRepresentable_iff, Instant.nanos_addSeconds_lt_iff _ (by decide)]
  refine ⟨by omega, by omega, by omega⟩

/-- The start of the hour can be represented, so the floor is not the instant itself. -/
theorem HasRoom.floorHour_eq : now.floorHour = .startOfHour now.hour := by
  obtain ⟨hFirst, hLast, -⟩ := h.bounds
  refine Instant.floorHour_eq ((Instant.isRepresentable_iff _).mpr ?_)
  simp only [Instant.startOfHour, Instant.hour]
  exact ⟨by omega, by omega, by decide⟩

/-- There is a timeline wherever there is room. -/
theorem HasRoom.hasWindow : hasWindow now = true := by
  obtain ⟨hFirst, hLast, -⟩ := h.bounds
  rw [Overview.hasWindow, Bool.and_eq_true, windowStart_eq h.floorHour_eq, windowEnd_eq h.floorHour_eq,
    Instant.isRepresentable_iff, Instant.isRepresentable_iff]
  simp only [Instant.startOfHour, firstHour, Instant.hour]
  refine ⟨⟨by omega, by omega, by decide⟩, by omega, by omega, by decide⟩

/-- Where there is room, whatever plan is drawn has data. -/
theorem HasRoom.ofStream?_eq (stream : Stream) :
    Data.ofStream? stream now = (drawn? drawPlan stream).map (Plan.data now) :=
  Data.ofStream?_eq h.isRepresentable_oldestHour stream

end Room

/-- Whether an instant lies in the hours that a timeline shows, and not in the future. -/
structure IsRecent (now t : Instant) : Prop where
  le : (now.floorHour.addSeconds (-(23 * 3600))).le t = true
  le_now : t.le now = true

variable {now t : Instant}

/-- Whole seconds decide whether an instant is recent, but for the present one. -/
theorem HasRoom.isRecent_of_seconds (hRoom : HasRoom now)
    (hSeconds : now.seconds - now.seconds % 3600 - 23 * 3600 ≤ t.seconds)
    (hNow : t.le now = true) : IsRecent now t := by
  refine ⟨?_, hNow⟩
  have hBack : (-(23 * 3600) : Int) = 3600 * (-23) := by decide
  rw [hRoom.floorHour_eq, hBack, Instant.addSeconds_startOfHour, Instant.startOfHour_le_iff]
  unfold Instant.hour
  omega

/-- A timeline counts what is recent. -/
theorem IsRecent.inWindow (h : IsRecent now t) (hRoom : HasRoom now) :
    ((windowStart now).le t && t.lt (windowEnd now)) = true := by
  have hNow := Instant.le_iff.mp h.le_now
  rw [Bool.and_eq_true, windowEnd_eq hRoom.floorHour_eq, Instant.lt_startOfHour_iff]
  refine ⟨h.le, ?_⟩
  unfold Instant.hour
  omega

/-- The second of a planned event may come after the present, and the event does not. -/
theorem PlannedEvent.IsSound.isRecent {event : PlannedEvent} (h : event.IsSound) (hRoom : HasRoom now) :
    IsRecent now (event.at_ now) := by
  have hHours := h.hour
  refine hRoom.isRecent_of_seconds ?_ (Instant.earliest_le_right _ _)
  rcases Instant.earliest_eq_or
    (((eventHour now).addSeconds (-(3600 * (event.hoursAgo : Int)))).addSeconds event.second) now with
    hSlot | hNow
  · have hHour := now.seconds_addSeconds_bounds (-(now.seconds % 3600))
    have hBack := (eventHour now).seconds_addSeconds_bounds (-(3600 * (event.hoursAgo : Int)))
    have hOn := ((eventHour now).addSeconds (-(3600 * (event.hoursAgo : Int)))).seconds_addSeconds_bounds
      event.second
    rw [PlannedEvent.at_, eventTime, hSlot]
    rw [← eventHour] at hHour
    omega
  · rw [PlannedEvent.at_, eventTime, hNow]
    omega

/-- An entry of a synthetic jail, with a public address, a country and a time within the last
twenty-three hours. -/
structure IsDemoBan (now : Instant) (name : List Char) (entry : BannedAddress) : Prop where
  ip : IsPublicAddress entry.ip
  jail : entry.jail = name
  country : ∃ country ∈ countries, entry.country = some country.toList
  bannedAt : ∃ t, entry.bannedAt = some t ∧ (now.addSeconds (-(23 * 3600))).le t = true ∧
    t.le (now.addSeconds (-60)) = true

/-- A synthetic jail. Some of its bans are over. -/
structure IsDemoJail (now : Instant) (jail : Jail) : Prop where
  length_le : jail.banned.length ≤ 8
  nodup : jail.ips.Nodup
  banned : ∀ entry ∈ jail.banned, IsDemoBan now jail.name entry
  totalBanned : jail.currentlyBanned + 5 ≤ jail.totalBanned.toNat

/-- Synthetic data at an instant. The events are in order, the bans that are listed are among them, each
as often as it is listed, and the timeline counts every event. -/
structure Data.IsSound (now : Instant) (data : Data) : Prop where
  names : data.jails.map Jail.name = jailNames.map String.toList
  jails : ∀ jail ∈ data.jails, IsDemoJail now jail
  sorted : data.banEvents.Pairwise fun a b => a.le b = true
  listed : (banTimes data.jails).Subperm data.banEvents
  recent : ∀ t ∈ data.banEvents, IsRecent now t
  counted : ∃ buckets, timeline? data.banEvents now = some buckets ∧
    (buckets.map fun bucket => bucket.count.toNat).sum = data.banEvents.length

/-- A sound ban leads to a sound entry. -/
theorem PlannedBan.IsSound.isDemoBan {ban : PlannedBan} (h : ban.IsSound) (name : List Char) :
    IsDemoBan now name (ban.entry now name) := by
  have hLeast := h.one_le
  have hMost := h.le_day
  obtain ⟨country, hMem, hCountry⟩ := List.mem_map.mp h.origin.country
  refine ⟨h.origin.ip, rfl, ⟨country, hMem, congrArg some hCountry.symm⟩, _, rfl, ?_, ?_⟩
  · exact now.addSeconds_le_addSeconds (by omega) (by omega)
  · exact now.addSeconds_le_addSeconds (by omega) (by omega)

/-- A sound plan of a jail leads to a sound jail. -/
theorem PlannedJail.IsSound.isDemoJail {plan : PlannedJail} (h : plan.IsSound) :
    IsDemoJail now (plan.at_ now) := by
  have hSublist : plan.kept <+ plan.bans := foldl_keepBan_sublist plan.bans
  have hLength : plan.kept.length ≤ 8 := Nat.le_trans hSublist.length_le h.length_le
  rw [jail_at_eq]
  refine ⟨?_, ?_, ?_, ?_⟩
  · rwa [List.length_map]
  · show ((plan.kept.map (PlannedBan.entry now plan.name)).map BannedAddress.ip).Nodup
    rw [List.map_map]
    exact nodup_foldl_keepBan plan.bans
  · exact List.forall_mem_map.mpr fun ban hMem => (h.bans ban (hSublist.subset hMem)).isDemoBan plan.name
  · show (plan.kept.map (PlannedBan.entry now plan.name)).length + 5 ≤
      (plan.kept.length + plan.otherBanned).toUInt64.toNat
    have hFive := h.five_le
    have hFits : plan.kept.length + plan.otherBanned < UInt64.size :=
      Nat.lt_of_le_of_lt (Nat.add_le_add hLength h.le_fifty) (by decide)
    rw [List.length_map, UInt64.toNat_ofNat_of_lt' hFits]
    omega

section Jails

variable {jails : List Jail} (h : ∀ jail ∈ jails, IsDemoJail now jail)
include h

/-- Every listed ban lies within the hours of the timeline. -/
theorem isRecent_of_mem_banTimes (hRoom : HasRoom now) (hMem : t ∈ banTimes jails) : IsRecent now t := by
  obtain ⟨jail, hJail, hTime⟩ := List.mem_flatMap.mp hMem
  obtain ⟨entry, hEntry, hAt⟩ := List.mem_filterMap.mp hTime
  obtain ⟨_, hAt', hFirst, hLast⟩ := ((h jail hJail).banned entry hEntry).bannedAt
  obtain rfl := Option.some.inj (hAt.symm.trans hAt')
  have hDay := now.seconds_addSeconds_bounds (-(23 * 3600))
  have hMinute := now.seconds_addSeconds_bounds (-60)
  rw [Instant.le_iff] at hFirst hLast
  refine hRoom.isRecent_of_seconds (by omega) (Instant.le_iff.mpr (Or.inl (by omega)))

theorem length_banTimes_le : (banTimes jails).length ≤ 8 * jails.length := by
  induction jails with
  | nil => exact Nat.le_refl 0
  | cons jail jails ih =>
      obtain ⟨hHead, hTail⟩ := List.forall_mem_cons.mp h
      have hRest := ih hTail
      have hOwn := List.length_filterMap_le BannedAddress.bannedAt jail.banned
      have hEight := hHead.length_le
      rw [banTimes] at hRest
      rw [banTimes, List.flatMap_cons, List.length_append, List.length_cons]
      omega

end Jails

section Sound

variable {plan : Plan} (h : plan.IsSound)
include h

/-- The jails of the plan have the fixed names, in their order. -/
theorem Plan.IsSound.names_at :
    (plan.jails.map (PlannedJail.at_ now)).map Jail.name = jailNames.map String.toList := by
  rw [← h.names, List.map_map]
  exact List.map_congr_left fun plan _ => congrArg Jail.name (jail_at_eq now plan)

theorem Plan.IsSound.isDemoJail : ∀ jail ∈ plan.jails.map (PlannedJail.at_ now), IsDemoJail now jail :=
  List.forall_mem_map.mpr fun plan hMem => (h.jails plan hMem).isDemoJail

/-- Listed bans and further events alike lie within the hours of the timeline. -/
theorem Plan.IsSound.isRecent (hRoom : HasRoom now) : ∀ t ∈ plan.times now, IsRecent now t := by
  refine List.forall_mem_append.mpr ⟨?_, fun t => isRecent_of_mem_banTimes h.isDemoJail hRoom⟩
  exact List.forall_mem_map.mpr fun event hMem => (h.events event hMem).isRecent hRoom

theorem Plan.IsSound.length_jails : (plan.jails.map (PlannedJail.at_ now)).length = 6 := by
  rw [← List.length_map Jail.name, h.names_at]
  rfl

/-- No counter of synthetic jails comes near the size of a word, so they have totals. -/
theorem Plan.IsSound.exists_totals (now : Instant) :
    ∃ totals, Totals.ofJails? (plan.jails.map (PlannedJail.at_ now)) = some totals := by
  have hSum (count : Jail → UInt64)
      (hCount : ∀ jail ∈ plan.jails.map (PlannedJail.at_ now), (count jail).toNat ≤ 5000) :
      ((plan.jails.map (PlannedJail.at_ now)).map fun jail => (count jail).toNat).sum < 2 ^ 64 := by
    have hBound := List.sum_le_card_nsmul
      ((plan.jails.map (PlannedJail.at_ now)).map fun jail => (count jail).toNat) 5000
      (List.forall_mem_map.mpr hCount)
    rw [List.length_map, h.length_jails] at hBound
    exact Nat.lt_of_le_of_lt hBound (by decide)
  refine exists_ofJails?_iff.mpr ⟨hSum (fun jail => jail.currentlyBanned.toUInt64) ?_, fun counter =>
    hSum counter.ofJail (List.forall_mem_map.mpr fun jail hMem => (h.jails jail hMem).ofJail_le counter)⟩
  intro jail hMem
  rw [Jail.counted]
  exact toNat_toUInt64_le (Nat.le_trans (h.isDemoJail jail hMem).length_le (by decide))

/-- A counter has room for far more events. -/
theorem Plan.IsSound.length_times : (plan.times now).length < UInt32.size := by
  have hSize : UInt32.size = 4294967296 := rfl
  have hJails : ∀ jail ∈ plan.jails.map (PlannedJail.at_ now), IsDemoJail now jail := h.isDemoJail
  have hSix : (plan.jails.map (PlannedJail.at_ now)).length = 6 := h.length_jails
  have hListed := length_banTimes_le hJails
  have hFurther : plan.events.length ≤ 960 := h.length_le
  rw [Plan.times, List.length_append, List.length_map]
  omega

/-- A sound plan leads to sound data wherever there is room. -/
theorem Plan.IsSound.isSound_data (hRoom : HasRoom now) : (plan.data now).IsSound now := by
  have hPerm : (plan.data now).banEvents.Perm (plan.times now) := List.mergeSort_perm _ _
  have hRecent : ∀ t ∈ (plan.data now).banEvents, IsRecent now t := fun t hMem =>
    h.isRecent hRoom t (hPerm.mem_iff.mp hMem)
  have hTimeline := timeline?_eq hRoom.hasWindow (plan.data now).banEvents
  refine ⟨h.names_at, h.isDemoJail, Instant.pairwise_mergeSort _, ?_, hRecent, _, hTimeline, ?_⟩
  · exact (List.sublist_append_right _ _).subperm.trans hPerm.symm.subperm
  · rw [sum_timeline? (hPerm.length_eq ▸ h.length_times) hTimeline, List.countP_eq_length]
    exact fun t hMem => (hRecent t hMem).inWindow hRoom

end Sound

/-- Synthetic data is sound at every instant with room, whatever the stream of random words, as soon as
the draws come to an end with some number of tries. The data of a seed is a case of it. -/
theorem demoData_isSound {tries : Nat} {stream : Stream} {data : Data}
    (hDraws : ((drawData tries now).run stream).map Prod.fst = some data) (hRoom : HasRoom now) :
    Data.ofStream? stream now = some data ∧
      (∀ seed, stream = .ofSeed seed → Data.ofSeed? seed now = some data) ∧ data.IsSound now := by
  have hData : Data.ofStream? stream now = some data := by
    rw [Data.ofStream?, if_pos hRoom.isRepresentable_oldestHour]
    exact (drawn?_eq_some_iff (isSteady_drawData now)).mpr ⟨tries, hDraws⟩
  obtain ⟨⟨_, rest⟩, hRun, rfl⟩ := Option.map_eq_some_iff.mp hDraws
  obtain ⟨plan, hPlan, rfl⟩ := run_drawData_eq_some_iff.mp hRun
  refine ⟨hData, ?_, (yields_drawPlan stream plan rest hPlan).isSound_data hRoom⟩
  rintro seed rfl
  exact hData

/-- A stream from which three bans are drawn for the first jail. The second is of the address of the
first, and for the third an octet is rejected. The one further event would come after the present. -/
theorem demoData_isSound_sameAddressTwice :
    let first : List UInt32 := [0, 0, 0, 0, 0, 0]
    let second : List UInt32 := [0, 0, 0, 0, 0, 0x80000000]
    let third : List UInt32 := [0, 0x80000000, 0x0ae7fe97, 0xf0000000, 7, 8, 0, 0, 0, 0, 0]
    let sshd : List UInt32 := [0, 0x60000000] ++ first ++ second ++ third ++ .replicate 6 0
    let hours : List UInt32 := .replicate (23 * 6) 0 ++ [0x10000000, 0, 0xf0000000] ++ .replicate 5 0
    let stream : Stream := ⟨.replicate 8 0, 0, .replicate 24 0 ++ sshd ++ .replicate 40 0 ++ hours⟩
    let shared : Origin := ⟨"1.0.0.1".toList, "CN".toList⟩
    let other : Origin := ⟨"210.7.8.1".toList, "CN".toList⟩
    let quiet (name : String) : PlannedJail := ⟨name.toList, [], 0, 100, 5⟩
    let plan : Plan :=
      ⟨⟨"sshd".toList, [⟨shared, 1⟩, ⟨shared, 691⟩, ⟨other, 1⟩], 0, 100, 5⟩ :: jailNames.tail.map quiet,
        [⟨0, 3375⟩]⟩
    let now : Instant := ⟨1714525323, 7⟩
    ((drawPlan 2).run stream).map Prod.fst = some plan ∧ HasRoom now ∧
    ∃ data, ((drawData 2 now).run stream).map Prod.fst = some data ∧
      Data.ofStream? stream now = some data ∧ data.IsSound now ∧
      data.jails.map Jail.currentlyBanned = [2, 0, 0, 0, 0, 0] ∧ now ∈ data.banEvents := by
  intro first second third sshd hours stream shared other quiet plan now
  have hPlan : ((drawPlan 2).run stream).map Prod.fst = some plan := by decide +kernel
  have hRoom : HasRoom now := ⟨by decide, by decide⟩
  have hDraws : ((drawData 2 now).run stream).map Prod.fst = some (plan.data now) := by
    rw [map_fst_run_drawData, hPlan, Option.map_some]
  obtain ⟨hData, -, hSound⟩ := demoData_isSound hDraws hRoom
  have hEvent : now ∈ plan.events.map (PlannedEvent.at_ now) := by decide
  exact ⟨hPlan, hRoom, _, hDraws, hData, hSound, by decide,
    List.mem_mergeSort.mpr (List.mem_append_left _ hEvent)⟩

end BanBoard.Demo
