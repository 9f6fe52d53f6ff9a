import BanBoard.Proofs.Jail.Reached
import BanBoard.Proofs.Status.Report
import Mathlib.Data.List.Induction

/-!
Entering the times of bans into a jail. The pairs are taken one after the other and may repeat an address,
contradict each other or name addresses that are not listed. In the end each address has its last time,
and nothing else has changed.
-/

namespace BanBoard.Status

open BanBoard.Time (Instant)

/-- The time in the last pair that names an address, if one does. -/
def lastTime? (times : List BanTime) (ip : List Char) : Option Instant :=
  (times.reverse.find? fun pair => pair.1 = ip).map Prod.snd

/-- The entry with the last time of its address. Without one it keeps the time that it has. -/
def retimed (times : List BanTime) (entry : BannedAddress) : BannedAddress :=
  { entry with bannedAt := (lastTime? times entry.ip).or entry.bannedAt }

/-- A later pair for an address hides the earlier ones. -/
theorem lastTime?_concat (times : List BanTime) (ip other : List Char) (t : Instant) :
    lastTime? (times ++ [(ip, t)]) other = if ip = other then some t else lastTime? times other := by
  rw [lastTime?, List.reverse_concat, List.find?_cons]
  by_cases hSame : ip = other
  · simp [hSame]
  · simp [hSame, lastTime?]

theorem retimed_nil (entry : BannedAddress) : retimed [] entry = entry := rfl

/-- One pair more gives its time to the entries with its address. -/
theorem retimed_concat (times : List BanTime) (ip : List Char) (t : Instant) (entry : BannedAddress) :
    retimed (times ++ [(ip, t)]) entry =
      if (retimed times entry).ip = ip then { retimed times entry with bannedAt := some t }
      else retimed times entry := by
  have hIp : (retimed times entry).ip = entry.ip := rfl
  rw [hIp, retimed, lastTime?_concat]
  by_cases hSame : entry.ip = ip
  · rw [if_pos hSame.symm, if_pos hSame]
    rfl
  · rw [if_neg (Ne.symm hSame), if_neg hSame]
    rfl

/-- A second round finds every time entered. -/
theorem retimed_comp_retimed (times : List BanTime) : retimed times ∘ retimed times = retimed times := by
  funext entry
  have hTime : (lastTime? times entry.ip).or ((lastTime? times entry.ip).or entry.bannedAt) =
      (lastTime? times entry.ip).or entry.bannedAt := by
    cases lastTime? times entry.ip <;> rfl
  exact congrArg (fun time => { entry with bannedAt := time }) hTime

theorem map_ip_retimed (times : List BanTime) (banned : List BannedAddress) :
    (banned.map (retimed times)).map BannedAddress.ip = banned.map BannedAddress.ip := by
  rw [List.map_map]
  rfl

/-- One time is entered at every entry with its address. -/
theorem setBanTime_eq (jail : Jail) (ip : List Char) (t : Instant) :
    (jail.setBanTime ip t).2 = jail.withBanned (Jail.withTime ip t jail.banned) := by
  obtain ⟨name, failed, totalFailed, totalBanned, banned, count, files, rfl⟩ := jail
  simp only [Jail.setBanTime, Jail.withBanned, Jail.length_withTime]

/-- The pairs are counted whose address is listed, and every entry gets its last time. This rests on the
addresses being different, since a time is entered only once for each pair. -/
theorem attach_eq {jail : Jail} (h : jail.ips.Nodup) (times : List BanTime) :
    attach times jail =
      (times.countP fun pair => pair.1 ∈ jail.ips, jail.withBanned (jail.banned.map (retimed times))) := by
  induction times using List.reverseRecOn with
  | nil =>
      rw [funext retimed_nil, List.map_id', Jail.withBanned_self]
      rfl
  | append_singleton times pair ih =>
      obtain ⟨ip, t⟩ := pair
      let filled := jail.withBanned (jail.banned.map (retimed times))
      have hStep : attach (times ++ [(ip, t)]) jail =
          (if filled.isBanned ip then (attach times jail).1 + 1 else (attach times jail).1,
            (filled.setBanTime ip t).2) := by
        rw [attach, List.foldl_concat, ← attach, ih]
        rfl
      have hIps : filled.ips = jail.ips := map_ip_retimed times jail.banned
      have hNodup : filled.ips.Nodup := hIps ▸ h
      have hTimed : Jail.withTime ip t filled.banned = jail.banned.map (retimed (times ++ [(ip, t)])) := by
        rw [Jail.withTime_eq_map hNodup, Jail.withBanned_banned, List.map_map]
        exact List.map_congr_left fun entry _ => (retimed_concat times ip t entry).symm
      rw [hStep, setBanTime_eq, hTimed, Jail.withBanned_withBanned, ih, List.countP_append,
        List.countP_singleton]
      by_cases hListed : ip ∈ jail.ips
      · simp [Jail.isBanned_iff.mpr (hIps ▸ hListed), hListed]
      · simp [mt Jail.isBanned_iff.mp (hIps ▸ hListed), hListed]

/-- Entering times counts the pairs whose address is listed, as often as it is named. It changes nothing
but the times of the entries: each address has the time of the last pair that names it, or its old one if
none does. Entering the same times again changes nothing at all. -/
theorem attach_setsLastTimes {jail : Jail} (h : jail.IsReached) (times : List BanTime) :
    let (count, filled) := attach times jail
    count = (times.countP fun pair => pair.1 ∈ jail.ips) ∧
    filled = jail.withBanned (jail.banned.map (retimed times)) ∧
    filled.currentlyBanned = jail.currentlyBanned ∧
    attach times filled = (count, filled) := by
  rw [attach_eq h.nodup_ips]
  have hIps : (jail.withBanned (jail.banned.map (retimed times))).ips = jail.ips :=
    map_ip_retimed times jail.banned
  have hCount : (jail.withBanned (jail.banned.map (retimed times))).currentlyBanned =
      jail.currentlyBanned := (List.length_map _).trans jail.counted.symm
  refine ⟨rfl, rfl, hCount, ?_⟩
  rw [attach_eq (hIps ▸ h.nodup_ips), hIps, Jail.withBanned_banned, Jail.withBanned_withBanned,
    List.map_map, retimed_comp_retimed]

/-- An address is named twice with different times, one of two others is named once, and one pair names an
address that is not listed. -/
theorem attach_setsLastTimes_namedTwice :
    let sshd := "sshd".toList
    let first := "192.0.2.1".toList
    let second := "2001:db8::1".toList
    let third := "198.51.100.0/24".toList
    let jail := { (Jail.empty sshd).withBanned [⟨first, sshd, some ⟨5, 0⟩, some "NL".toList⟩,
      .listed second sshd, ⟨third, sshd, some ⟨6, 0⟩, none⟩] with totalBanned := 19 }
    let times : List BanTime :=
      [(first, ⟨90, 0⟩), ("203.0.113.9".toList, ⟨80, 0⟩), (second, ⟨70, 1⟩), (first, ⟨60, 0⟩)]
    jail.IsReached ∧ (attach times jail).1 = 3 ∧
    (attach times jail).2 = jail.withBanned [⟨first, sshd, some ⟨60, 0⟩, some "NL".toList⟩,
      ⟨second, sshd, some ⟨70, 1⟩, none⟩, ⟨third, sshd, some ⟨6, 0⟩, none⟩] := by
  intro sshd first second third jail times
  have hJail : jail.IsReached := by decide
  obtain ⟨hCount, hFilled, -, -⟩ := attach_setsLastTimes hJail times
  exact ⟨hJail, hCount.trans (by decide), hFilled.trans (by decide)⟩

end BanBoard.Status
