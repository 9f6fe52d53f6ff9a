import BanBoard.Jail.Basic
import BanBoard.Jail.Name

/-!
What happens to the list of a jail. New addresses come to its end in order, and times are put on its
entries without touching the addresses. Jail names hold no blank and no mark between words.
-/

namespace BanBoard

open BanBoard.Text
open BanBoard.Time (Instant)

/-- The check of a name is the one that tells why. -/
theorem isJailName_iff {name : List Char} :
    isJailName name = true ↔ checkJailName name = .ok () := by
  unfold isJailName
  split
  · rename_i h
    exact iff_of_true rfl h
  · rename_i h
    exact iff_of_false Bool.noConfusion (by simp [h])

theorem ne_nil_of_isJailName {name : List Char} (h : isJailName name = true) : name ≠ [] := by
  rintro rfl
  exact Bool.noConfusion h

theorem isJailNameChar_of_mem {name : List Char} (h : isJailName name = true) {c : Char}
    (hMem : c ∈ name) : isJailNameChar c = true := by
  rw [isJailName_iff, checkJailName] at h
  split at h
  · cases h
  split at h
  · cases h
  split at h
  · cases h
  · rename_i hPlain
    simp only [Bool.or_eq_true, Bool.not_eq_true', not_or, Bool.not_eq_false] at hPlain
    exact List.all_eq_true.mp hPlain.2 c hMem

theorem notMem_of_isJailName {name : List Char} (h : isJailName name = true) {c : Char}
    (hChar : isJailNameChar c = false) : c ∉ name := by
  intro hMem
  rw [isJailNameChar_of_mem h hMem] at hChar
  exact Bool.noConfusion hChar

theorem isBlank_of_isJailNameChar {c : Char} (h : isJailNameChar c = true) : isBlank c = false := by
  have hLe {a b : Char} (hle : a ≤ b) : a.toNat ≤ b.toNat := UInt32.le_iff_toNat_le.mp hle
  have hRange : 45 ≤ c.toNat ∧ c.toNat ≤ 122 := by
    simp only [isJailNameChar, isAsciiAlphanumeric, Bool.or_eq_true, Bool.and_eq_true,
      decide_eq_true_eq] at h
    rcases h with ((((⟨hLow, hHigh⟩ | ⟨hLow, hHigh⟩) | ⟨hLow, hHigh⟩) | rfl) | rfl) | rfl
    · exact ⟨Nat.le_trans (by decide) (hLe hLow), Nat.le_trans (hLe hHigh) (by decide)⟩
    · exact ⟨Nat.le_trans (by decide) (hLe hLow), hLe hHigh⟩
    · exact ⟨Nat.le_trans (by decide) (hLe hLow), Nat.le_trans (hLe hHigh) (by decide)⟩
    · decide
    · decide
    · decide
  simp only [isBlank, Bool.or_eq_false_iff, Bool.and_eq_false_iff, decide_eq_false_iff_not,
    beq_eq_false_iff_ne]
  omega

namespace Jail

section WithBanned

variable (jail : Jail) (banned others : List BannedAddress)

@[simp] theorem withBanned_banned : (jail.withBanned banned).banned = banned := rfl

@[simp] theorem withBanned_name : (jail.withBanned banned).name = jail.name := rfl

@[simp] theorem withBanned_withBanned :
    (jail.withBanned banned).withBanned others = jail.withBanned others := rfl

@[simp] theorem withBanned_self : jail.withBanned jail.banned = jail := by
  obtain ⟨name, failed, totalFailed, totalBanned, banned, count, files, rfl⟩ := jail
  rfl

end WithBanned

theorem isBanned_iff {jail : Jail} {ip : List Char} : jail.isBanned ip = true ↔ ip ∈ jail.ips := by
  simp [isBanned, ips]

/-- The list becomes shorter just when the address was on it. -/
theorem removeBanned_fst (jail : Jail) (ip : List Char) :
    (jail.removeBanned ip).1 = jail.isBanned ip := by
  rw [Bool.eq_iff_iff, removeBanned, bne_iff_ne, ne_comm, ne_eq, List.length_filter_eq_length_iff]
  simp [isBanned]

def addListed (jail : Jail) (ip : List Char) : Jail := (jail.addBanned (.listed ip jail.name)).2

theorem addListed_of_mem {jail : Jail} {ip : List Char} (h : ip ∈ jail.ips) :
    jail.addListed ip = jail := by
  simp [addListed, addBanned, BannedAddress.listed, isBanned_iff.mpr h]

theorem addListed_of_notMem {jail : Jail} {ip : List Char} (h : ip ∉ jail.ips) :
    jail.addListed ip = jail.withBanned (jail.banned ++ [.listed ip jail.name]) := by
  have hBanned : jail.isBanned ip = false := Bool.eq_false_iff.mpr fun hYes => h (isBanned_iff.mp hYes)
  simp [addListed, addBanned, BannedAddress.listed, hBanned]

theorem ips_addListed {jail : Jail} {ip : List Char} (h : ip ∉ jail.ips) :
    (jail.addListed ip).ips = jail.ips ++ [ip] := by
  simp [addListed_of_notMem h, Jail.ips, BannedAddress.listed]

/-- Of some addresses those that are new come to the end, each once, in the order in which they were
first read. -/
theorem foldl_addListed (ips : List (List Char)) (jail : Jail) :
    ips.foldl addListed jail = jail.withBanned (jail.banned ++
      (ips.filter (· ∉ jail.ips)).eraseDups.map fun ip => .listed ip jail.name) := by
  induction ips generalizing jail with
  | nil => simp
  | cons ip ips ih =>
      by_cases hMem : ip ∈ jail.ips
      · rw [List.foldl_cons, addListed_of_mem hMem, ih, List.filter_cons_of_neg (by simpa using hMem)]
      · have hLater : ips.filter (· ∉ (jail.addListed ip).ips) =
            (ips.filter (· ∉ jail.ips)).filter fun other => !other == ip := by
          rw [List.filter_filter]
          refine List.filter_congr fun other _ => Bool.eq_iff_iff.mpr ?_
          simp [ips_addListed hMem, and_comm]
        rw [List.foldl_cons, ih, hLater, List.filter_cons_of_pos (by simpa using hMem),
          List.eraseDups_cons, addListed_of_notMem hMem]
        simp

/-- All addresses are listed, and those that were there before. -/
theorem mem_ips_foldl_addListed {ips : List (List Char)} {jail : Jail} {ip : List Char} :
    ip ∈ (ips.foldl addListed jail).ips ↔ ip ∈ jail.ips ∨ ip ∈ ips := by
  induction ips generalizing jail with
  | nil => simp
  | cons first ips ih =>
      rw [List.foldl_cons, ih, List.mem_cons, ← or_assoc]
      refine or_congr_left ?_
      by_cases hMem : first ∈ jail.ips
      · rw [addListed_of_mem hMem]
        exact ⟨.inl, fun h => h.elim id fun hEq => hEq ▸ hMem⟩
      · rw [ips_addListed hMem, List.mem_append, List.mem_singleton]

theorem eraseDups_of_nodup {ips : List (List Char)} (h : ips.Nodup) : ips.eraseDups = ips := by
  induction ips with
  | nil => rfl
  | cons ip ips ih =>
      obtain ⟨hNotMem, hRest⟩ := List.nodup_cons.mp h
      have hKept : ips.filter (fun other => !other == ip) = ips := by
        refine List.filter_eq_self.mpr fun other hMem => ?_
        have hNe : other ≠ ip := fun hEq => hNotMem (hEq ▸ hMem)
        simpa using hNe
      rw [List.eraseDups_cons, hKept, ih hRest]

/-- Adding addresses that are all new puts them at the end in order. -/
theorem foldl_addListed_of_nodup {ips : List (List Char)} (hNodup : ips.Nodup) {jail : Jail}
    (hNew : ∀ ip ∈ ips, ip ∉ jail.ips) :
    ips.foldl addListed jail =
      jail.withBanned (jail.banned ++ ips.map fun ip => .listed ip jail.name) := by
  have hKept : ips.filter (· ∉ jail.ips) = ips := List.filter_eq_self.mpr (by simpa using hNew)
  rw [foldl_addListed, hKept, eraseDups_of_nodup hNodup]

/-- A time changes no address. -/
theorem map_ip_withTime (ip : List Char) (t : Instant) (banned : List BannedAddress) :
    (withTime ip t banned).map BannedAddress.ip = banned.map BannedAddress.ip := by
  induction banned with
  | nil => rfl
  | cons entry banned ih =>
      unfold withTime
      split
      · rfl
      · rw [List.map_cons, ih, List.map_cons]

/-- Of addresses that are all different, at most one entry gets the time. -/
theorem withTime_eq_map {banned : List BannedAddress} (h : (banned.map BannedAddress.ip).Nodup)
    (ip : List Char) (t : Instant) :
    withTime ip t banned = banned.map fun entry =>
      if entry.ip = ip then { entry with bannedAt := some t } else entry := by
  induction banned with
  | nil => rfl
  | cons entry banned ih =>
      obtain ⟨hNotMem, hRest⟩ := List.nodup_cons.mp h
      rw [withTime, List.map_cons]
      split
      · rename_i hSame
        subst hSame
        have hOthers : ∀ other ∈ banned, (if other.ip = entry.ip then
            { other with bannedAt := some t } else other) = other := by
          intro other hMem
          have hNe : other.ip ≠ entry.ip := fun hEq => hNotMem (hEq ▸ List.mem_map_of_mem hMem)
          exact if_neg hNe
        rw [List.map_congr_left hOthers, List.map_id']
      · rw [ih hRest]

theorem ips_setBanTime (jail : Jail) (ip : List Char) (t : Instant) :
    (jail.setBanTime ip t).2.ips = jail.ips :=
  map_ip_withTime ip t jail.banned

theorem name_setBanTime (jail : Jail) (ip : List Char) (t : Instant) :
    (jail.setBanTime ip t).2.name = jail.name := rfl

/-- A ban does not change the name of the jail. -/
theorem name_addBanned (jail : Jail) (entry : BannedAddress) :
    (jail.addBanned entry).2.name = jail.name := by
  unfold addBanned
  split <;> rfl

theorem length_ips (jail : Jail) : jail.ips.length = jail.currentlyBanned :=
  (List.length_map _).trans jail.counted.symm

end Jail

end BanBoard
