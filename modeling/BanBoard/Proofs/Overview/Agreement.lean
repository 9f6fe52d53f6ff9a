import BanBoard.Proofs.Jail.Reached
import BanBoard.Proofs.Overview.Offenders
import BanBoard.Proofs.Overview.Totals

/-!
The two aggregations of an overview agree. One adds up the counts of the jails, the other groups the same
bans by address and tells in how many jails each address is. Both count every ban once, as long as no jail
lists an address twice and no two jails have one name.
-/

namespace BanBoard.Overview

variable {jails : List Jail}

/-- An address is listed as often as there are jails that list it. -/
theorem count_flatMap_ips (h : ∀ jail ∈ jails, jail.ips.Nodup) (ip : List Char) :
    (jails.flatMap Jail.ips).count ip = jails.countP fun jail => ip ∈ jail.ips := by
  induction jails with
  | nil => rfl
  | cons jail jails ih =>
      obtain ⟨hHead, hTail⟩ := List.forall_mem_cons.mp h
      rw [List.flatMap_cons, List.count_append, ih hTail, hHead.count, List.countP_cons, Nat.add_comm]
      simp

/-- Jails with different names are told apart in the record of an offender. -/
theorem jailCount_offenderOf (hNames : (jails.map Jail.name).Nodup) {ip : List Char}
    (hBanned : ip ∈ jails.flatMap Jail.ips) :
    (offenderOf (bansOf jails) ip).jailCount = jails.countP fun jail => ip ∈ jail.ips := by
  have hOwn : ((jails.filter fun jail => ip ∈ jail.ips).map Jail.name).Nodup :=
    hNames.sublist (List.filter_sublist.map Jail.name)
  rw [(isOffender_offenderOf hBanned).jailCount_eq, List.countP_eq_length_filter]
  exact (List.toFinset_card_of_nodup hOwn).trans (List.length_map _)

/-- All offenders together are in as many jails as there are bans. -/
theorem sum_jailCount_ranking (hNames : (jails.map Jail.name).Nodup)
    (hDistinct : ∀ jail ∈ jails, jail.ips.Nodup) :
    ((ranking jails).map Offender.jailCount).sum = (jails.flatMap Jail.ips).length := by
  let all := jails.flatMap Jail.ips
  have hWords : (distinctWords all).Perm all.dedup := by
    refine (List.perm_ext_iff_of_nodup (nodup_distinctWords all) (List.nodup_dedup all)).mpr fun ip => ?_
    rw [mem_distinctWords, List.mem_dedup]
  have hCount : ∀ ip ∈ distinctWords all, (offenderOf (bansOf jails) ip).jailCount = all.count ip := by
    intro ip hMem
    rw [jailCount_offenderOf hNames (mem_distinctWords.mp hMem), count_flatMap_ips hDistinct]
  calc ((ranking jails).map Offender.jailCount).sum
      = (((distinctWords all).map (offenderOf (bansOf jails))).map Offender.jailCount).sum :=
        ((perm_ranking jails).map Offender.jailCount).sum_eq
    _ = ((distinctWords all).map fun ip => all.count ip).sum := by
        rw [List.map_map]
        exact congrArg List.sum (List.map_congr_left hCount)
    _ = (all.dedup.map fun ip => all.count ip).sum := (hWords.map _).sum_eq
    _ = all.length := by
        -- The library counts with the equality test of the decision, which is the one of the lists.
        rw [← List.sum_map_count_dedup_eq_length all,
          lawful_beq_subsingleton instBEqOfDecidableEq List.instBEq]

/-- Where all bans together are no more than a word can count, nothing is lost when they are added up. -/
theorem bannedSum_eq (hFits : (jails.map fun jail => jail.banned.length).sum < UInt64.size) :
    bannedSum jails = (jails.map fun jail => jail.banned.length).sum := by
  refine congrArg List.sum (List.map_congr_left fun jail hMem => ?_)
  have hPart : jail.banned.length ≤ (jails.map fun jail => jail.banned.length).sum :=
    List.le_sum_of_mem (List.mem_map_of_mem (f := fun jail => jail.banned.length) hMem)
  rw [jail.counted]
  exact UInt64.toNat_ofNat_of_lt' (Nat.lt_of_le_of_lt hPart hFits)

/-- The offenders and the totals of an overview agree. If no two jails have one name and a counter has room
for all bans, the numbers of jails over all offenders add up to the number of entries in all lists of bans,
and that is the count of banned addresses in the totals. There are totals unless a counter that the daemon
reports is too great, and always if nothing was ever done to the jails but changes of their lists. -/
theorem topOffenders_agreeWithTotals (hNames : (jails.map Jail.name).Nodup)
    (hReached : ∀ jail ∈ jails, jail.IsReached)
    (hFits : (jails.map fun jail => jail.banned.length).sum < UInt64.size) {limit : Nat}
    (hLimit : (jails.flatMap Jail.ips).toFinset.card ≤ limit) :
    ((topOffenders jails limit).map Offender.jailCount).sum =
        (jails.map fun jail => jail.banned.length).sum ∧
    (∀ totals, Totals.ofJails? jails = some totals →
      ((topOffenders jails limit).map Offender.jailCount).sum = totals.currentlyBanned.toNat) ∧
    ((∃ totals, Totals.ofJails? jails = some totals) ↔
      ∀ counter : Counter, counter.sum jails < UInt64.size) ∧
    ((∀ jail ∈ jails, ∃ name changes, (Jail.Change.run Jail.change changes (.empty name)).2 = jail) →
      ∃ totals, Totals.ofJails? jails = some totals) := by
  have hAll : (ranking jails).length ≤ limit := by
    rwa [← List.length_map Offender.ip, (perm_map_ip_ranking jails).length_eq, length_distinctWords]
  have hEntries : (jails.flatMap Jail.ips).length = (jails.map fun jail => jail.banned.length).sum := by
    simp [List.length_flatMap, Jail.ips]
  have hShown : ((topOffenders jails limit).map Offender.jailCount).sum =
      (jails.map fun jail => jail.banned.length).sum := by
    rw [topOffenders, List.take_of_length_le hAll,
      sum_jailCount_ranking hNames fun jail hMem => (hReached jail hMem).nodup_ips, hEntries]
  have hExists : (∃ totals, Totals.ofJails? jails = some totals) ↔
      ∀ counter : Counter, counter.sum jails < UInt64.size := by
    rw [exists_ofJails?_iff, bannedSum_eq hFits]
    exact and_iff_right hFits
  refine ⟨hShown, fun totals hTotals => ?_, hExists, fun hLives => hExists.mpr fun counter => ?_⟩
  · rw [hShown, ← (ofJails?_eq_some_iff.mp hTotals).currentlyBanned, bannedSum_eq hFits]
    exact (Nat.zero_add _).symm
  · have hZero : counter.sum jails = 0 := by
      refine List.sum_eq_zero_iff.mpr (List.forall_mem_map.mpr fun jail hMem => ?_)
      obtain ⟨name, changes, rfl⟩ := hLives jail hMem
      have hKept := (Jail.keepsCounts_run (.empty name) changes).1
      cases counter
      · exact congrArg UInt64.toNat hKept.currentlyFailed
      · exact congrArg UInt64.toNat hKept.totalFailed
      · exact congrArg UInt64.toNat hKept.totalBanned
    rw [hZero]
    decide

/-- Two jails share one of three addresses, so that it counts twice on both sides, and a third is empty. -/
theorem topOffenders_agreeWithTotals_sharedAddress :
    let sshd := "sshd".toList
    let web := "nginx-http-auth".toList
    let shared := "192.0.2.1".toList
    let jails := [(Jail.empty sshd).withBanned [.listed shared sshd, .listed "2001:db8::1".toList sshd],
      Jail.empty "recidive".toList,
      (Jail.empty web).withBanned [.listed "198.51.100.7".toList web, .listed shared web]]
    (∀ jail ∈ jails, jail.IsReached) ∧ ((topOffenders jails 3).map Offender.jailCount).sum = 4 ∧
    ∃ totals, Totals.ofJails? jails = some totals ∧ totals.currentlyBanned = 4 := by
  intro sshd web shared jails
  have hReached : ∀ jail ∈ jails, jail.IsReached := by decide
  have hLimit : (jails.flatMap Jail.ips).toFinset.card ≤ 3 := by decide
  obtain ⟨hEntries, hAgree, hExists, -⟩ :=
    topOffenders_agreeWithTotals (by decide) hReached (by decide) hLimit
  have hFour : ((topOffenders jails 3).map Offender.jailCount).sum = 4 := hEntries.trans (by decide)
  obtain ⟨totals, hTotals⟩ := hExists.mpr fun counter => by cases counter <;> decide
  exact ⟨hReached, hFour, totals, hTotals,
    UInt64.toNat_inj.mp ((hAgree totals hTotals).symm.trans hFour)⟩

end BanBoard.Overview
