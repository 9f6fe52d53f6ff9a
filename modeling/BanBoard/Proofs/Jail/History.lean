import BanBoard.Proofs.Jail.Basic
import Mathlib.Data.List.Nodup
import Mathlib.Logic.Function.Basic

/-!
Whole lives of a jail. Its list of bans is a map from addresses to what is known about them, in the order
in which the addresses came. A jail that starts empty gives the answers of this map whatever is done to
it, and its list is at any time what the map says.
-/

namespace BanBoard

open BanBoard.Time (Instant)

/-- What is known about the ban of an address. -/
structure BanFacts where
  bannedAt : Option Instant
  country : Option (List Char)
  deriving DecidableEq

/-- A map from addresses to what is known about their bans, with the order in which the addresses
came. -/
structure BanMap where
  order : List (List Char)
  facts? : List Char → Option BanFacts
  nodup : order.Nodup
  mem_order : ∀ ip, ip ∈ order ↔ (facts? ip).isSome = true

namespace BanMap

def lists (map : BanMap) (ip : List Char) : Bool := (map.facts? ip).isSome

theorem lists_iff {map : BanMap} {ip : List Char} : map.lists ip = true ↔ ip ∈ map.order :=
  (map.mem_order ip).symm

def empty : BanMap where
  order := []
  facts? := fun _ => none
  nodup := List.nodup_nil
  mem_order := by simp

def append (map : BanMap) (ip : List Char) (facts : BanFacts) (hNew : ip ∉ map.order) : BanMap where
  order := map.order ++ [ip]
  facts? := Function.update map.facts? ip (some facts)
  nodup := List.nodup_append.mpr ⟨map.nodup, List.nodup_singleton ip, by grind⟩
  mem_order := by
    intro other
    by_cases hSame : other = ip
    · simp [hSame]
    · simp [hSame, map.mem_order]

/-- Take an address out. The others keep their order. -/
def erase (map : BanMap) (ip : List Char) : BanMap where
  order := map.order.erase ip
  facts? := Function.update map.facts? ip none
  nodup := map.nodup.erase ip
  mem_order := by
    intro other
    by_cases hSame : other = ip
    · simp [hSame, map.nodup.mem_erase_iff]
    · simp [hSame, map.nodup.mem_erase_iff, map.mem_order]

/-- Change the time of an address, if it is there, and nothing else. -/
def setTime (map : BanMap) (ip : List Char) (t : Instant) : BanMap where
  order := map.order
  facts? := Function.update map.facts? ip
    ((map.facts? ip).map fun facts => { facts with bannedAt := some t })
  nodup := map.nodup
  mem_order := by
    intro other
    by_cases hSame : other = ip
    · simp [hSame, map.mem_order]
    · simp [hSame, map.mem_order]

/-- The entry of an address in a jail whose list is the map. -/
def listed? (map : BanMap) (name ip : List Char) : Option BannedAddress :=
  (map.facts? ip).map fun facts => ⟨ip, name, facts.bannedAt, facts.country⟩

def entries (map : BanMap) (name : List Char) : List BannedAddress :=
  map.order.filterMap (map.listed? name)

end BanMap

namespace Jail

/-- What can be done to a jail. -/
inductive Change where
  | add (entry : BannedAddress)
  | remove (ip : List Char)
  | setTime (ip : List Char) (t : Instant)
  | setFiles (files : List (List Char))

/-- A change of a jail, with its answer. Only files are taken without one. -/
def change (jail : Jail) : Change → Option Bool × Jail
  | .add entry => (jail.addBanned entry).map some id
  | .remove ip => (jail.removeBanned ip).map some id
  | .setTime ip t => (jail.setBanTime ip t).map some id
  | .setFiles files => (none, jail.setFileList files)

end Jail

/-- The same change of a map. Neither the jail that an added entry claims to be from nor the files have a
say in it. -/
def BanMap.change (map : BanMap) : Jail.Change → Option Bool × BanMap
  | .add entry =>
    if hListed : map.lists entry.ip then (some false, map)
    else (some true, map.append entry.ip ⟨entry.bannedAt, entry.country⟩ (mt lists_iff.mpr hListed))
  | .remove ip => (some (map.lists ip), map.erase ip)
  | .setTime ip t => (some (map.lists ip), map.setTime ip t)
  | .setFiles _ => (none, map)

/-- The answers to some changes, one after the other, and what is left in the end. -/
def Jail.Change.run {α : Type} (change : α → Jail.Change → Option Bool × α) :
    List Jail.Change → α → List (Option Bool) × α
  | [], state => ([], state)
  | next :: changes, state =>
    let (answer, state) := change state next
    let (answers, state) := run change changes state
    (answer :: answers, state)

/-- Whether a change took an address in, by the answer that it got. -/
def Jail.Change.tookIn : Jail.Change × Option Bool → Bool
  | (.add _, some true) => true
  | _ => false

/-- Whether a change threw an address out, by the answer that it got. -/
def Jail.Change.threwOut : Jail.Change × Option Bool → Bool
  | (.remove _, some true) => true
  | _ => false

namespace BanMap

variable {map : BanMap} {name ip : List Char}

theorem jail_of_mem_entries {entry : BannedAddress} (h : entry ∈ map.entries name) :
    entry.jail = name := by
  obtain ⟨ip, -, hEntry⟩ := List.mem_filterMap.mp h
  obtain ⟨facts, -, rfl⟩ := Option.map_eq_some_iff.mp hEntry
  rfl

/-- The addresses of the entries are the keys in order. -/
theorem map_ip_entries (map : BanMap) (name : List Char) :
    (map.entries name).map BannedAddress.ip = map.order := by
  have hEntry : ∀ ip ∈ map.order, (map.listed? name ip).map BannedAddress.ip = some ip := by
    intro ip hMem
    obtain ⟨facts, hFacts⟩ := Option.isSome_iff_exists.mp ((map.mem_order ip).mp hMem)
    simp [listed?, hFacts]
  rw [entries, List.map_filterMap, List.filterMap_congr hEntry, List.filterMap_some]

/-- A new key has its entry behind the others. -/
theorem entries_append (facts : BanFacts) (hNew : ip ∉ map.order) :
    (map.append ip facts hNew).entries name =
      map.entries name ++ [⟨ip, name, facts.bannedAt, facts.country⟩] := by
  have hOld : ∀ other ∈ map.order,
      (map.append ip facts hNew).listed? name other = map.listed? name other := by
    intro other hMem
    have hNe : other ≠ ip := ne_of_mem_of_not_mem hMem hNew
    simp [listed?, append, hNe]
  have hLast : (map.append ip facts hNew).listed? name ip =
      some ⟨ip, name, facts.bannedAt, facts.country⟩ := by simp [listed?, append]
  have hOrder : (map.append ip facts hNew).order = map.order ++ [ip] := rfl
  rw [entries, hOrder, List.filterMap_append, List.filterMap_congr hOld, List.filterMap_cons_some hLast,
    List.filterMap_nil, entries]

theorem entries_erase (map : BanMap) (name ip : List Char) :
    (map.erase ip).entries name = (map.entries name).filter fun entry => entry.ip ≠ ip := by
  have hOrder : (map.erase ip).order = map.order.filter (· != ip) := map.nodup.erase_eq_filter ip
  rw [entries, hOrder, entries, List.filterMap_filter, List.filter_filterMap]
  refine List.filterMap_congr fun other _ => ?_
  by_cases hSame : other = ip
  · cases hFacts : map.facts? ip <;> simp [hSame, listed?, hFacts, Option.filter_some]
  · cases hFacts : map.facts? other <;> simp [hSame, listed?, erase, hFacts, Option.filter_some]

/-- Setting a time changes the entry of its key. -/
theorem entries_setTime (map : BanMap) (name ip : List Char) (t : Instant) :
    (map.setTime ip t).entries name = Jail.withTime ip t (map.entries name) := by
  have hNodup : ((map.entries name).map BannedAddress.ip).Nodup := by
    rw [map_ip_entries]
    exact map.nodup
  have hOrder : (map.setTime ip t).order = map.order := rfl
  rw [Jail.withTime_eq_map hNodup, entries, hOrder, entries, List.map_filterMap]
  refine List.filterMap_congr fun other _ => ?_
  by_cases hSame : other = ip
  · cases hFacts : map.facts? ip <;> simp [hSame, listed?, setTime, hFacts]
  · cases hFacts : map.facts? other <;> simp [hSame, listed?, setTime, hFacts]

/-- Only an address that is taken in makes the order longer, and only one that is thrown out makes it
shorter. -/
theorem length_order_change (map : BanMap) (next : Jail.Change) :
    (map.change next).2.order.length + [(next, (map.change next).1)].countP Jail.Change.threwOut =
      map.order.length + [(next, (map.change next).1)].countP Jail.Change.tookIn := by
  cases next with
  | add entry =>
      by_cases hListed : map.lists entry.ip = true
      · simp [change, hListed, Jail.Change.threwOut, Jail.Change.tookIn]
      · simp [change, hListed, Jail.Change.threwOut, Jail.Change.tookIn, append]
  | remove ip =>
      by_cases hListed : map.lists ip = true
      · have hLength := List.length_erase_add_one (lists_iff.mp hListed)
        simpa [change, hListed, Jail.Change.threwOut, Jail.Change.tookIn, erase] using hLength
      · have hSame : map.order.erase ip = map.order := List.erase_of_not_mem (mt lists_iff.mpr hListed)
        simp [change, hListed, Jail.Change.threwOut, Jail.Change.tookIn, erase, hSame]
  | setTime ip t => simp [change, Jail.Change.threwOut, Jail.Change.tookIn, setTime]
  | setFiles files => simp [change, Jail.Change.threwOut, Jail.Change.tookIn]

/-- Over a run, the number of keys is accounted for by the answers. -/
theorem length_order_run (map : BanMap) (changes : List Jail.Change) :
    let (answers, last) := Jail.Change.run change changes map
    last.order.length + (changes.zip answers).countP Jail.Change.threwOut =
      map.order.length + (changes.zip answers).countP Jail.Change.tookIn := by
  induction changes generalizing map with
  | nil => rfl
  | cons next changes ih =>
      have hNext := map.length_order_change next
      have hRest := ih (map.change next).2
      simp only [Jail.Change.run, List.zip_cons_cons, List.countP_cons, List.countP_nil] at hNext hRest ⊢
      omega

end BanMap

namespace Jail

/-- Whether the list of a jail is a map, under the name of the jail. -/
def Follows (jail : Jail) (name : List Char) (map : BanMap) : Prop :=
  jail.name = name ∧ jail.banned = map.entries name

variable {jail : Jail} {name : List Char} {map : BanMap}

/-- A jail that follows a map lists its keys in order. -/
theorem Follows.ips_eq (h : jail.Follows name map) : jail.ips = map.order := by
  rw [ips, h.2, BanMap.map_ip_entries]

theorem Follows.isBanned_eq (h : jail.Follows name map) (ip : List Char) :
    jail.isBanned ip = map.lists ip := by
  rw [Bool.eq_iff_iff, isBanned_iff, h.ips_eq, BanMap.lists_iff]

/-- A change gives the answer of the map, and the list is the changed map. -/
theorem Follows.change (h : jail.Follows name map) (next : Change) :
    (jail.change next).1 = (map.change next).1 ∧
      (jail.change next).2.Follows name (map.change next).2 := by
  obtain ⟨rfl, hBanned⟩ := h
  cases next with
  | add entry =>
      have hSame := Follows.isBanned_eq ⟨rfl, hBanned⟩ entry.ip
      by_cases hListed : map.lists entry.ip = true
      · simp only [Jail.change, addBanned, BanMap.change, hSame, hListed, if_true, dite_true]
        exact ⟨rfl, rfl, hBanned⟩
      · simp only [Jail.change, addBanned, BanMap.change, hSame, hListed, dite_false,
          Bool.false_eq_true, if_false]
        refine ⟨rfl, rfl, ?_⟩
        rw [BanMap.entries_append]
        exact congrArg (· ++ _) hBanned
  | remove ip =>
      have hAnswer := (jail.removeBanned_fst ip).trans (Follows.isBanned_eq ⟨rfl, hBanned⟩ ip)
      refine ⟨congrArg some hAnswer, rfl, ?_⟩
      rw [BanMap.change, BanMap.entries_erase, ← hBanned]
      rfl
  | setTime ip t =>
      refine ⟨congrArg some (Follows.isBanned_eq ⟨rfl, hBanned⟩ ip), rfl, ?_⟩
      rw [BanMap.change, BanMap.entries_setTime, ← hBanned]
      rfl
  | setFiles files => exact ⟨rfl, rfl, hBanned⟩

/-- A jail follows its map through any changes, and both give the same answers. -/
theorem Follows.run (h : jail.Follows name map) (changes : List Change) :
    (Change.run Jail.change changes jail).1 = (Change.run BanMap.change changes map).1 ∧
      (Change.run Jail.change changes jail).2.Follows name (Change.run BanMap.change changes map).2 := by
  induction changes generalizing jail map with
  | nil => exact ⟨rfl, h⟩
  | cons next changes ih =>
      obtain ⟨hAnswer, hNext⟩ := h.change next
      obtain ⟨hAnswers, hLast⟩ := ih hNext
      exact ⟨congrArg₂ List.cons hAnswer hAnswers, hLast⟩

/-- Whether two jails have the same counters of what the daemon reports. -/
structure KeepsCounts (jail other : Jail) : Prop where
  currentlyFailed : other.currentlyFailed = jail.currentlyFailed
  totalFailed : other.totalFailed = jail.totalFailed
  totalBanned : other.totalBanned = jail.totalBanned

def Change.filesAfter (files : List (List Char)) : Change → List (List Char)
  | .setFiles next => next
  | .add _ | .remove _ | .setTime _ _ => files

/-- A change of the list counts nothing else anew, and only one kind of change sets the files. -/
theorem keepsCounts_change (jail : Jail) (next : Change) :
    jail.KeepsCounts (jail.change next).2 ∧ (jail.change next).2.fileList = next.filesAfter jail.fileList := by
  cases next with
  | add entry =>
      rw [Jail.change, addBanned]
      split
      · exact ⟨⟨rfl, rfl, rfl⟩, rfl⟩
      · exact ⟨⟨rfl, rfl, rfl⟩, rfl⟩
  | remove ip => exact ⟨⟨rfl, rfl, rfl⟩, rfl⟩
  | setTime ip t => exact ⟨⟨rfl, rfl, rfl⟩, rfl⟩
  | setFiles files => exact ⟨⟨rfl, rfl, rfl⟩, rfl⟩

/-- Changes of the list keep what the daemon has reported. -/
theorem keepsCounts_run (jail : Jail) (changes : List Change) :
    let last := (Change.run Jail.change changes jail).2
    jail.KeepsCounts last ∧ last.fileList = changes.foldl Change.filesAfter jail.fileList := by
  induction changes generalizing jail with
  | nil => exact ⟨⟨rfl, rfl, rfl⟩, rfl⟩
  | cons next changes ih =>
      obtain ⟨hNext, hFiles⟩ := jail.keepsCounts_change next
      obtain ⟨hRest, hLast⟩ := ih (jail.change next).2
      refine ⟨⟨?_, ?_, ?_⟩, hLast.trans ?_⟩
      · exact hRest.currentlyFailed.trans hNext.currentlyFailed
      · exact hRest.totalFailed.trans hNext.totalFailed
      · exact hRest.totalBanned.trans hNext.totalBanned
      · rw [hFiles, List.foldl_cons]

/-- Whatever is done to a jail that starts empty, it answers like the map, and its list is the map: all
addresses are different, they stand in the order in which they came, and all entries belong to the jail.
The count is the length of the list, which is the number of addresses that were taken in less the number
of those that were thrown out. To whatever jail the same is done, it keeps its other counters, and it has
the files that were set last. -/
theorem changes_followMap (name : List Char) (changes : List Change) :
    let (answers, jail) := Change.run Jail.change changes (.empty name)
    let (expected, map) := Change.run BanMap.change changes .empty
    answers = expected ∧ jail.banned = map.entries name ∧ jail.name = name ∧
    jail.currentlyBanned = jail.banned.length ∧
    jail.currentlyBanned + (changes.zip answers).countP Change.threwOut =
      (changes.zip answers).countP Change.tookIn ∧
    jail.ips.Nodup ∧ (∀ entry ∈ jail.banned, entry.jail = jail.name) ∧
    ∀ start : Jail, let last := (Change.run Jail.change changes start).2
      start.KeepsCounts last ∧ last.fileList = changes.foldl Change.filesAfter start.fileList := by
  have hStart : (Jail.empty name).Follows name .empty := ⟨rfl, rfl⟩
  obtain ⟨hAnswers, hLast⟩ := hStart.run changes
  have hBalance := BanMap.empty.length_order_run changes
  obtain ⟨hName, hBanned⟩ := id hLast
  refine ⟨hAnswers, hBanned, hName, Jail.counted _, ?_, ?_, ?_, fun start => start.keepsCounts_run changes⟩
  · rw [hAnswers, ← length_ips, hLast.ips_eq]
    exact hBalance.trans (Nat.zero_add _)
  · rw [hLast.ips_eq]
    exact BanMap.nodup _
  · rw [hBanned, hName]
    exact fun entry hMem => BanMap.jail_of_mem_entries hMem

end Jail

end BanBoard
