import BanBoard.Client.Command
import BanBoard.Jail.Name
import BanBoard.Net.Address

/-!
A faithful daemon. It holds jails with the addresses banned in them and answers every command as its
client prints it. Bans and unbans are all that changes it.
-/

namespace BanBoard.Client

open BanBoard.Net (Address)
open BanBoard.Text

/-- The jails of a daemon by name, each with the addresses banned in it in the order of the bans. -/
abbrev Jails := List (List Char × List (List Char))

namespace Jails

/-- What a daemon keeps true of its jails. Names are valid and belong to one jail each, and a jail
lists canonical addresses, each of them once. -/
structure Valid (jails : Jails) : Prop where
  nodup_names : (jails.map Prod.fst).Nodup
  isJailName : ∀ jail ∈ jails, isJailName jail.1 = true
  nodup_ips : ∀ jail ∈ jails, jail.2.Nodup
  canonical : ∀ jail ∈ jails, ∀ ip ∈ jail.2, ∃ address : Address, address.write = ip

/-- The addresses banned in a jail, if there is such a jail. -/
def ips? (jails : Jails) (name : List Char) : Option (List (List Char)) := jails.lookup name

def update (jails : Jails) (name : List Char) (change : List (List Char) → List (List Char)) : Jails :=
  jails.map fun jail => if jail.1 = name then (jail.1, change jail.2) else jail

/-- Ban an address, at the end of the list unless it is banned already. -/
def ban (jails : Jails) (name ip : List Char) : Jails :=
  jails.update name fun ips => if ip ∈ ips then ips else ips ++ [ip]

def unban (jails : Jails) (name ip : List Char) : Jails :=
  jails.update name fun ips => ips.filter fun other => other ≠ ip

end Jails

namespace Faithful

/-- Lines of output, each ended by a newline. -/
def printed (lines : List (List Char)) : List Char := lines.flatMap (· ++ ['\n'])

/-- A line with a label and a value behind some part of the tree. -/
def field (tree label : String) (value : List Char) : List Char :=
  tree.toList ++ label.toList ++ ':' :: '\t' :: value

def overview (jails : Jails) : List Char :=
  printed ["Status".toList, field "|- " "Number of jail" (decimal jails.length),
    field "\x60- " "Jail list" (", ".toList.intercalate (jails.map Prod.fst))]

/-- The lines of the report on one jail before its list of bans. Failures, watched files and the
number of all bans so far are made up. -/
def reportHead (name : List Char) (count : Nat) : List (List Char) :=
  ["Status for the jail: ".toList ++ name, "|- Filter".toList,
    field "|  |- " "Currently failed" "1".toList, field "|  |- " "Total failed" "20".toList,
    field "|  \x60- " "File list" "/var/log/auth.log".toList, "\x60- Actions".toList,
    field "   |- " "Currently banned" (decimal count),
    field "   |- " "Total banned" (decimal (count + 5))]

def report (name : List Char) (ips : List (List Char)) : List Char :=
  printed (reportHead name ips.length ++
    [field "   \x60- " "Banned IP list" (" ".toList.intercalate ips)])

/-- The list of one jail with times, which are made up. -/
def timed (ips : List (List Char)) : List Char :=
  printed (ips.map fun ip =>
    ip ++ " \t2026-10-19 10:00:00 + 600 = 2026-10-19 10:10:00".toList)

/-- The reply to a command that the daemon carried out. -/
def accept (stdout : List Char) : Reply := .ok ⟨stdout, [], some 0⟩

def refuse (code : Int) (stderr : List Char) : Reply := .ok ⟨[], stderr, some code⟩

/-- The refusal of a command to a jail that does not exist. -/
def noJail (name : List Char) : Reply :=
  refuse 255 ("Sorry but the jail '".toList ++ name ++ "' does not exist".toList)

def act (jails : Jails) (action : Action) (name ip : List Char) : Reply × Jails :=
  match jails.ips? name with
  | none => (noJail name, jails)
  | some ips =>
    match action with
    | .ban => (accept "1\n".toList, jails.ban name ip)
    | .unban =>
      if ip ∈ ips then (accept "1\n".toList, jails.unban name ip)
      else (refuse 255 ("IP ".toList ++ ip ++ " is not banned".toList), jails)

end Faithful

open Faithful

/-- The faithful daemon. The service sends none of the commands that are not supported, so how those
are quoted in the refusal does not matter. -/
def faithful : Daemon Jails := fun jails words =>
  match words.map String.ofList with
  | ["ping"] => (accept "Server replied: pong\n".toList, jails)
  | ["status"] => (accept (overview jails), jails)
  | ["status", name] =>
    match jails.ips? name.toList with
    | some ips => (accept (report name.toList ips), jails)
    | none => (noJail name.toList, jails)
  | ["get", name, "banip", "--with-time"] =>
    match jails.ips? name.toList with
    | some ips => (accept (timed ips), jails)
    | none => (refuse 255 "no such jail".toList, jails)
  | ["set", name, "banip", ip] => act jails .ban name.toList ip.toList
  | ["set", name, "unbanip", ip] => act jails .unban name.toList ip.toList
  | _ => (refuse 1 ("unsupported: ".toList ++ " ".toList.intercalate words), jails)

/-- The daemon lists its jails and does nothing else. -/
theorem faithful_status (jails : Jails) :
    faithful jails Command.status.words = (accept (overview jails), jails) := by
  simp [faithful, Command.words]

theorem faithful_jailStatus {jails : Jails} {name : List Char} {ips : List (List Char)}
    (h : jails.ips? name = some ips) :
    faithful jails (Command.jailStatus name).words = (accept (report name ips), jails) := by
  simp [faithful, Command.words, h]

/-- The daemon tells the times of a jail that it has. -/
theorem faithful_banTimes {jails : Jails} {name : List Char} {ips : List (List Char)}
    (h : jails.ips? name = some ips) :
    faithful jails (Command.banTimes name).words = (accept (timed ips), jails) := by
  simp [faithful, Command.words, h]

/-- The daemon carries out what it is asked for. -/
theorem faithful_apply (jails : Jails) (action : Action) (name ip : List Char) :
    faithful jails (Command.apply action name ip).words = act jails action name ip := by
  cases action <;> simp [faithful, Command.words, actionWord]

/-- An action is carried out exactly if its jail exists and, for an unban, lists the address. -/
theorem isOk_result_act (jails : Jails) (action : Action) (name ip : List Char) :
    (Client.result (act jails action name ip).1).isOk = true ↔
      ∃ ips, jails.ips? name = some ips ∧ (action = .ban ∨ ip ∈ ips) := by
  unfold act
  cases hIps : jails.ips? name with
  | none => simp [noJail, refuse, Client.result, Output.success, Except.isOk, Except.toBool]
  | some ips =>
      cases action with
      | ban => simp [accept, Client.result, Output.success, Except.isOk, Except.toBool]
      | unban =>
          by_cases hMem : ip ∈ ips <;>
            simp [accept, refuse, Client.result, Output.success, Except.isOk, Except.toBool, hMem]

namespace Jails

variable {jails : Jails}

/-- No two jails have one name, so a jail is found by its name. -/
theorem Valid.ips?_eq_some (h : jails.Valid) {name : List Char} {ips : List (List Char)}
    (hMem : (name, ips) ∈ jails) : jails.ips? name = some ips := by
  have hNodup := h.nodup_names
  -- Only that the names differ is needed, and the induction runs over the jails alone.
  clear h
  unfold Jails.ips?
  induction jails with
  | nil => simp at hMem
  | cons jail jails ih =>
      obtain ⟨hNotMem, hRest⟩ := List.nodup_cons.mp hNodup
      rcases List.mem_cons.mp hMem with rfl | hMem
      · exact List.lookup_cons_self
      · have hOther : (name == jail.1) = false := by
          refine beq_eq_false_iff_ne.mpr ?_
          rintro rfl
          exact hNotMem (List.mem_map.mpr ⟨_, hMem, rfl⟩)
        rw [List.lookup_cons, hOther]
        exact ih hMem hRest

/-- Changing one list keeps the jails valid if it keeps that list valid. -/
theorem Valid.update (h : jails.Valid) (name : List Char) {change : List (List Char) → List (List Char)}
    (hNodup : ∀ ips, ips.Nodup → (change ips).Nodup)
    (hCanonical : ∀ ips ip, ip ∈ change ips → ip ∈ ips ∨ ∃ address : Address, address.write = ip) :
    (jails.update name change).Valid := by
  have hNames : (jails.update name change).map Prod.fst = jails.map Prod.fst := by
    rw [Jails.update, List.map_map]
    refine List.map_congr_left fun jail _ => ?_
    by_cases hName : jail.1 = name <;> simp [hName]
  have hList : ∀ jail ∈ jails.update name change, ∃ before ∈ jails, jail.1 = before.1 ∧
      (jail.2 = before.2 ∨ jail.2 = change before.2) := by
    intro jail hMem
    obtain ⟨before, hBefore, rfl⟩ := List.mem_map.mp hMem
    refine ⟨before, hBefore, ?_⟩
    by_cases hName : before.1 = name <;> simp [hName]
  constructor
  · rw [hNames]
    exact h.nodup_names
  · intro jail hMem
    obtain ⟨before, hBefore, hName, _⟩ := hList jail hMem
    rw [hName]
    exact h.isJailName before hBefore
  · intro jail hMem
    obtain ⟨before, hBefore, _, hSame | hChanged⟩ := hList jail hMem
    · rw [hSame]
      exact h.nodup_ips before hBefore
    · rw [hChanged]
      exact hNodup _ (h.nodup_ips before hBefore)
  · intro jail hMem ip hIp
    obtain ⟨before, hBefore, _, hSame | hChanged⟩ := hList jail hMem
    · exact h.canonical before hBefore ip (hSame ▸ hIp)
    · rcases hCanonical before.2 ip (hChanged ▸ hIp) with hOld | hNew
      · exact h.canonical before hBefore ip hOld
      · exact hNew

theorem Valid.ban (h : jails.Valid) (name : List Char) (address : Address) :
    (jails.ban name address.write).Valid := by
  refine h.update name ?_ ?_
  · intro ips hNodup
    split
    · exact hNodup
    · rename_i hNew
      rw [List.nodup_append]
      refine ⟨hNodup, List.pairwise_singleton _ _, ?_⟩
      rintro ip hOld _ hMem rfl
      exact hNew (List.mem_singleton.mp hMem ▸ hOld)
  · intro ips ip hMem
    split at hMem
    · exact Or.inl hMem
    · rcases List.mem_append.mp hMem with hOld | hNew
      · exact Or.inl hOld
      · exact Or.inr ⟨address, (List.mem_singleton.mp hNew).symm⟩

theorem Valid.unban (h : jails.Valid) (name ip : List Char) : (jails.unban name ip).Valid := by
  refine h.update name ?_ ?_
  · intro ips hNodup
    exact hNodup.sublist List.filter_sublist
  · intro ips other hMem
    exact Or.inl (List.mem_filter.mp hMem).1

/-- Whatever is asked of the daemon with a canonical address, its jails stay valid. -/
theorem Valid.act (h : jails.Valid) (action : Action) (name : List Char) (address : Address) :
    (Faithful.act jails action name address.write).2.Valid := by
  unfold Faithful.act
  cases jails.ips? name with
  | none => exact h
  | some ips =>
      cases action with
      | ban => exact h.ban name address
      | unban =>
          dsimp only
          split
          · exact h.unban name address.write
          · exact h

end Jails

end BanBoard.Client
