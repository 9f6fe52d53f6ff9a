import BanBoard.Http.Routes
import BanBoard.Proofs.Status.Report
import BanBoard.Proofs.Text.Utf8

/-!
Reading a jail of a faithful daemon. The service finds the jail, lists the addresses banned in it in the
daemon's order, and leaves the daemon as it was.
-/

namespace BanBoard.Service

open BanBoard.Client
open BanBoard.Client.Faithful
open BanBoard.Text
open BanBoard.Time (Instant Zone)

/-- A service that shows the jails of a faithful daemon. -/
def faithfully (seed : Option UInt64) (zone : Zone) : Service Jails := ⟨.live, seed, zone, faithful⟩

section

variable (seed : Option UInt64) (zone : Zone) {state : State Jails} {name : List Char}
  {ips : List (List Char)}

/-- A command that the daemon answers without a change is only added to those that were sent. -/
theorem ask_eq (state : State Jails) {command : Command} {text : List Char}
    (h : faithful state.daemon command.words = (accept text, state.daemon)) :
    (faithfully seed zone).ask state command =
      (.ok text, { state with sent := state.sent ++ [command] }) := by
  have hAnswer : (faithfully seed zone).daemon state.daemon command.words =
      (accept text, state.daemon) := h
  rw [ask, hAnswer]
  rfl

theorem daemon_apply (jails : Jails) (action : Action) (name ip : List Char) :
    (faithfully seed zone).daemon jails (Command.apply action name ip).words =
      act jails action name ip :=
  faithful_apply jails action name ip

/-- The service finds the jails that the daemon has. -/
theorem jailNames_eq (h : state.daemon.Valid) :
    (faithfully seed zone).jailNames state =
      (.ok (state.daemon.map Prod.fst), { state with sent := state.sent ++ [.status] }) := by
  rw [jailNames, ask_eq seed zone state (faithful_status state.daemon), ← Status.jailList_overview h]
  rfl

/-- A jail that the daemon has is fetched with its addresses. -/
theorem fetchJail_ok (state : State Jails) (h : state.daemon.Valid) (hMem : (name, ips) ∈ state.daemon) :
    ∃ jail next, (faithfully seed zone).fetchJail state name = (.ok jail, next) ∧
      jail.name = name ∧ jail.ips = ips ∧ next.daemon = state.daemon := by
  have hIps := h.ips?_eq_some hMem
  obtain ⟨hName, hList⟩ := Status.jailReport_report (h.isJailName _ hMem) (h.nodup_ips _ hMem)
    (h.canonical _ hMem)
  have hTimes := ask_eq seed zone { state with sent := state.sent ++ [.jailStatus name] }
    (faithful_banTimes hIps)
  rw [fetchJail, ask_eq seed zone state (faithful_jailStatus hIps)]
  dsimp only
  by_cases hEmpty : (Status.jailReport name (report name ips)).banned.isEmpty = true
  · rw [if_pos hEmpty]
    exact ⟨_, _, rfl, hName, hList, rfl⟩
  · rw [if_neg hEmpty, hTimes]
    obtain ⟨hSame, hKept⟩ := Status.attach_ips (Status.banTimes zone (timed ips))
      (Status.jailReport name (report name ips))
    exact ⟨_, _, rfl, hSame.trans hName, hKept.trans hList, rfl⟩

/-- Every jail of the daemon is found by its name. -/
theorem jail_ok (h : state.daemon.Valid) (hMem : (name, ips) ∈ state.daemon) (now : Instant) :
    ∃ jail next, (faithfully seed zone).jail state name now = (.ok jail, next) ∧
      jail.name = name ∧ jail.ips = ips ∧ next.daemon = state.daemon := by
  have hCheck : checkJailName name = .ok () := isJailName_iff.mp (h.isJailName _ hMem)
  have hListed : (state.daemon.map Prod.fst).contains name = true :=
    List.contains_iff_mem.mpr (List.mem_map_of_mem hMem)
  obtain ⟨jail, next, hFetch, hJail⟩ :=
    fetchJail_ok seed zone { state with sent := state.sent ++ [.status] } h hMem
  refine ⟨jail, next, ?_, hJail⟩
  have hLive : (faithfully seed zone).mode = .live := rfl
  rw [Service.jail, hCheck, hLive]
  simp only [jailNames_eq seed zone h, hListed, if_true, hFetch]
  rfl

end

end BanBoard.Service
