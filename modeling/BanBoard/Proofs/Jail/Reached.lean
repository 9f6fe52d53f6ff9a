import BanBoard.Proofs.Jail.History

/-!
The jails that can come about. A jail starts empty, its list is changed by nothing but the operations on
it, and its other counters are set to whatever the daemon reports. So no address is ever listed twice and
every entry belongs to the jail, and each jail of which this is true can come about.
-/

namespace BanBoard.Jail

/-- Whether a jail can come about. -/
inductive IsReached : Jail → Prop
  | empty (name : List Char) : IsReached (.empty name)
  | change {jail : Jail} (h : IsReached jail) (next : Change) : IsReached (jail.change next).2
  | report {jail : Jail} (h : IsReached jail) (currentlyFailed totalFailed totalBanned : UInt64) :
      IsReached { jail with
        currentlyFailed := currentlyFailed
        totalFailed := totalFailed
        totalBanned := totalBanned }

variable {jail : Jail}

/-- Whatever is done to a jail, its list is a map under its own name. -/
theorem IsReached.exists_follows (h : jail.IsReached) : ∃ map, jail.Follows jail.name map := by
  induction h with
  | empty name => exact ⟨.empty, rfl, rfl⟩
  | change _ next ih =>
      obtain ⟨map, hFollows⟩ := ih
      obtain ⟨-, hName, hBanned⟩ := hFollows.change next
      exact ⟨_, rfl, hName ▸ hBanned⟩
  | report _ _ _ _ ih => exact ih

theorem IsReached.nodup_ips (h : jail.IsReached) : jail.ips.Nodup := by
  obtain ⟨map, hFollows⟩ := h.exists_follows
  rw [hFollows.ips_eq]
  exact map.nodup

theorem IsReached.jail_of_mem (h : jail.IsReached) : ∀ entry ∈ jail.banned, entry.jail = jail.name := by
  obtain ⟨map, -, hBanned⟩ := h.exists_follows
  rw [hBanned]
  exact fun entry hMem => BanMap.jail_of_mem_entries hMem

/-- Entries of different addresses are taken in one after the other. -/
theorem IsReached.withBanned (h : jail.IsReached) {banned : List BannedAddress}
    (hOwn : ∀ entry ∈ banned, entry.jail = jail.name)
    (hNodup : (jail.ips ++ banned.map BannedAddress.ip).Nodup) :
    (jail.withBanned (jail.banned ++ banned)).IsReached := by
  induction banned generalizing jail with
  | nil => simpa using h
  | cons entry banned ih =>
      obtain ⟨hEntry, hOthers⟩ := List.forall_mem_cons.mp hOwn
      rw [List.map_cons, List.append_cons] at hNodup
      have hNew : entry.ip ∉ jail.ips := fun hMem =>
        (List.nodup_append.mp (List.nodup_append.mp hNodup).1).2.2 _ hMem _ List.mem_cons_self rfl
      have hListed : jail.isBanned entry.ip = false :=
        Bool.eq_false_iff.mpr fun hYes => hNew (isBanned_iff.mp hYes)
      have hAdded : (jail.change (.add entry)).2 = jail.withBanned (jail.banned ++ [entry]) := by
        simp [Jail.change, addBanned, hListed, ← hEntry]
      have hNext := h.change (.add entry)
      rw [hAdded] at hNext
      have hIps : (jail.withBanned (jail.banned ++ [entry])).ips = jail.ips ++ [entry.ip] := by
        simp [Jail.ips]
      have hLast := ih hNext hOthers (hIps ▸ hNodup)
      rwa [withBanned_banned, withBanned_withBanned, ← List.append_cons] at hLast

/-- A jail can come about just when it lists no address twice and owns all its entries. -/
theorem isReached_iff :
    jail.IsReached ↔ jail.ips.Nodup ∧ ∀ entry ∈ jail.banned, entry.jail = jail.name := by
  refine ⟨fun h => ⟨h.nodup_ips, h.jail_of_mem⟩, fun ⟨hNodup, hOwn⟩ => ?_⟩
  have hFilled := (IsReached.empty jail.name).withBanned hOwn hNodup
  have hAll := (hFilled.change (.setFiles jail.fileList)).report jail.currentlyFailed jail.totalFailed
    jail.totalBanned
  obtain ⟨name, failed, totalFailed, totalBanned, banned, count, files, rfl⟩ := jail
  exact hAll

instance (jail : Jail) : Decidable jail.IsReached := decidable_of_iff' _ isReached_iff

end BanBoard.Jail
