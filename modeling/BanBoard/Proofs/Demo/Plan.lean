import BanBoard.Demo.Ban
import BanBoard.Proofs.Jail.Name
import BanBoard.Proofs.Random.Draw

/-!
Plans of synthetic jails. A plan is what is drawn of the jails without any time in it: how many minutes
ago each ban was, and in which of the last hours each further event fell. Each draw yields a part that is
sound on its own, whatever the stream, so a plan is sound as soon as its draws come to an end.
-/

namespace BanBoard.Demo

open BanBoard.Net (Address)
open BanBoard.Random
open BanBoard.Text

/-- A planned jail. The bans may name an address twice, and `otherBanned` counts the bans that are
over. -/
structure PlannedJail where
  name : List Char
  bans : List PlannedBan
  currentlyFailed : Nat
  totalFailed : Nat
  otherBanned : Nat
  deriving DecidableEq

/-- A planned event: a second of the hour that began so many hours before the current one. -/
structure PlannedEvent where
  hoursAgo : Nat
  second : Nat
  deriving DecidableEq

structure Plan where
  jails : List PlannedJail
  events : List PlannedEvent
  deriving DecidableEq

def planJail (tries : Nat) (pool : List Origin) (name : String) : Draw PlannedJail := do
  let count ← range64 tries 0 (maxBans + 1)
  let bans ← times (drawBan tries pool) count
  let currentlyFailed ← range64 tries 0 11
  let totalFailed ← range64 tries 100 4901
  let otherBanned ← range64 tries 5 46
  return ⟨name.toList, bans, currentlyFailed, totalFailed, otherBanned⟩

def planEvents (tries hoursAgo : Nat) (name : String) : Draw (List PlannedEvent) := do
  let count ← range32 tries 0 (if name = "sshd" then 16 else 6)
  times (do return ⟨hoursAgo, ← range64 tries 0 3600⟩) count

/-- Draw a whole plan, in the order in which the data are drawn. -/
def drawPlan (tries : Nat) : Draw Plan := do
  let pool ← times (drawOrigin tries) poolSize
  let jails ← forEach (planJail tries pool) jailNames
  let events ← forEach (fun hoursAgo => forEach (planEvents tries hoursAgo) jailNames)
    (List.range 24).reverse
  return ⟨jails, events.flatten.flatten⟩

/-- The canonical text of an address of version four whose first octet looks public. -/
def IsPublicAddress (ip : List Char) : Prop :=
  ∃ a b c d : UInt8, checkAddress ip = .ok (.v4 a b c d) ∧ (Address.v4 a b c d).write = ip ∧
    1 ≤ a.toNat ∧ a.toNat ≤ 223 ∧ a.toNat ∉ [10, 127, 172, 192]

structure Origin.IsSound (origin : Origin) : Prop where
  ip : IsPublicAddress origin.ip
  country : origin.country ∈ countries.map String.toList

/-- The ban was in the last twenty-three hours, and not in the last minute. -/
structure PlannedBan.IsSound (ban : PlannedBan) : Prop where
  origin : ban.origin.IsSound
  one_le : 1 ≤ ban.minutesAgo
  le_day : ban.minutesAgo ≤ 23 * 60

structure PlannedJail.IsSound (jail : PlannedJail) : Prop where
  length_le : jail.bans.length ≤ maxBans
  bans : ∀ ban ∈ jail.bans, ban.IsSound
  le_ten : jail.currentlyFailed ≤ 10
  le_fiveThousand : jail.totalFailed ≤ 5000
  five_le : 5 ≤ jail.otherBanned
  le_fifty : jail.otherBanned ≤ 50

structure PlannedEvent.IsSound (event : PlannedEvent) : Prop where
  hour : event.hoursAgo < 24
  second : event.second < 3600

/-- The number of events that a jail has at most in an hour. -/
def maxEvents (name : String) : Nat := if name = "sshd" then 15 else 5

structure Plan.IsSound (plan : Plan) : Prop where
  names : plan.jails.map PlannedJail.name = jailNames.map String.toList
  jails : ∀ jail ∈ plan.jails, jail.IsSound
  events : ∀ event ∈ plan.events, event.IsSound
  length_le : plan.events.length ≤ 24 * (jailNames.map maxEvents).sum

variable {tries : Nat}

/-- Whatever number of octets it takes. -/
theorem yields_drawFirstOctet (octets : Nat) : Yields (drawFirstOctet tries octets) fun octet =>
    1 ≤ octet ∧ octet ≤ 223 ∧ octet ∉ [10, 127, 172, 192] := by
  induction octets with
  | zero => exact yields_fail
  | succ octets ih =>
      refine (yields_rangeByte (by decide)).bind fun octet hRange => ?_
      split
      · exact ih
      · rename_i hPublic
        refine yields_pure ⟨hRange.1, by omega, ?_⟩
        simpa [isPrivateOctet, or_assoc] using hPublic

/-- Whatever the octets behind the first one, the address is public. -/
theorem yields_drawAddress : Yields (drawAddress tries) IsPublicAddress := by
  refine (yields_drawFirstOctet _).bind fun a ha => yields_anyByte.bind fun b hb =>
    yields_anyByte.bind fun c hc => (yields_rangeByte (by decide)).bind fun d hd => yields_pure ?_
  have hOctet {n : Nat} (hn : n < 256) : n.toUInt8.toNat = n := UInt8.toNat_ofNat_of_lt' hn
  have hText : (Address.v4 a.toUInt8 b.toUInt8 c.toUInt8 d.toUInt8).write =
      decimal a ++ '.' :: decimal b ++ '.' :: decimal c ++ '.' :: decimal d := by
    rw [Address.write, Address.writeOctets, hOctet (by omega), hOctet hb, hOctet hc, hOctet (by omega)]
  refine ⟨_, _, _, _, hText ▸ checkAddress_write _, hText, ?_⟩
  rwa [hOctet (by omega)]

theorem yields_drawOrigin : Yields (drawOrigin tries) Origin.IsSound :=
  yields_drawAddress.bind fun _ hIp => (yields_pick (by decide)).bind fun _ hCountry =>
    yields_pure ⟨hIp, hCountry⟩

/-- A ban has an origin of the pool and a time within the listed hours. -/
theorem yields_drawBan {pool : List Origin} (hSome : pool ≠ [])
    (hPool : ∀ origin ∈ pool, origin.IsSound) : Yields (drawBan tries pool) PlannedBan.IsSound := by
  have hAny : Yields (chance sharedChance) fun _ => True := fun _ _ _ _ => trivial
  have hTime (origin : Origin) (hOrigin : origin.IsSound) :
      Yields (do
        let minutesAgo ← range64 tries 1 (23 * 60)
        return (⟨origin, minutesAgo⟩ : PlannedBan)) PlannedBan.IsSound :=
    (yields_range64 (by decide)).bind fun minutesAgo hMinutes =>
      yields_pure ⟨hOrigin, hMinutes.1, Nat.le_of_lt_succ hMinutes.2⟩
  refine hAny.bind fun shared _ => ?_
  cases shared with
  | true => exact (yields_pick hSome).bind fun origin hMem => hTime origin (hPool origin hMem)
  | false => exact yields_drawOrigin.bind hTime

/-- A planned jail keeps its name, and its bans and counters are within their bounds. -/
theorem yields_planJail {pool : List Origin} (hSome : pool ≠ [])
    (hPool : ∀ origin ∈ pool, origin.IsSound) (name : String) :
    Yields (planJail tries pool name) fun jail => jail.name = name.toList ∧ jail.IsSound := by
  refine (yields_range64 (by decide)).bind fun count hCount =>
    (yields_times (yields_drawBan hSome hPool) count).bind fun bans hBans =>
    (yields_range64 (by decide)).bind fun _ hFailed =>
    (yields_range64 (by decide)).bind fun _ hTotalFailed =>
    (yields_range64 (by decide)).bind fun other hOther => yields_pure ⟨rfl, ?_⟩
  refine ⟨?_, hBans.2, Nat.le_of_lt_succ (by simpa using hFailed.2), Nat.le_of_lt_succ hTotalFailed.2,
    hOther.1, Nat.le_of_lt_succ hOther.2⟩
  show bans.length ≤ maxBans
  omega

variable {α β : Type}

/-- Lists that are bounded one by one are bounded together. -/
theorem flatten_bounded {bound : α → Nat} {P : β → Prop} {xs : List α} {ys : List (List β)}
    (h : List.Forall₂ (fun x y => y.length ≤ bound x ∧ ∀ z ∈ y, P z) xs ys) :
    ys.flatten.length ≤ (xs.map bound).sum ∧ ∀ z ∈ ys.flatten, P z := by
  induction h with
  | nil => exact ⟨Nat.le_refl 0, List.forall_mem_nil _⟩
  | cons hHead _ ih =>
      rw [List.flatten_cons, List.length_append, List.map_cons, List.sum_cons]
      exact ⟨Nat.add_le_add hHead.1 ih.1, List.forall_mem_append.mpr ⟨hHead.2, ih.2⟩⟩

/-- No hour has more events than its jail is planned for, and each is in that hour. -/
theorem yields_planEvents {hoursAgo : Nat} (hHour : hoursAgo < 24) (name : String) :
    Yields (planEvents tries hoursAgo name) fun events =>
      events.length ≤ maxEvents name ∧ ∀ event ∈ events, event.IsSound := by
  have hSize : (if name = "sshd" then 16 else 6) = maxEvents name + 1 := by
    unfold maxEvents
    split <;> rfl
  have hEvent : Yields (do return (⟨hoursAgo, ← range64 tries 0 3600⟩ : PlannedEvent))
      PlannedEvent.IsSound :=
    (yields_range64 (by decide)).bind fun second hSecond => yields_pure
      ⟨hHour, Nat.lt_of_lt_of_eq hSecond.2 (Nat.zero_add 3600)⟩
  refine (yields_range32 (by omega)).bind fun count hCount => (yields_times hEvent count).imp ?_
  exact fun events hEvents => ⟨by omega, hEvents.2⟩

/-- The events of all jails in one hour. -/
theorem yields_hour {hoursAgo : Nat} (hHour : hoursAgo < 24) :
    Yields (forEach (planEvents tries hoursAgo) jailNames) fun rows =>
      rows.flatten.length ≤ (jailNames.map maxEvents).sum ∧ ∀ event ∈ rows.flatten, event.IsSound :=
  (yields_forEach fun name _ => yields_planEvents hHour name).imp fun _ => flatten_bounded

/-- Whatever the stream, a plan that is drawn is sound. -/
theorem yields_drawPlan : Yields (drawPlan tries) Plan.IsSound := by
  have hHours : ∀ hoursAgo ∈ (List.range 24).reverse, hoursAgo < 24 := fun hoursAgo hMem =>
    List.mem_range.mp (List.mem_reverse.mp hMem)
  refine (yields_times yields_drawOrigin poolSize).bind fun pool hPool => ?_
  have hSome : pool ≠ [] := by
    rintro rfl
    exact absurd hPool.1 (by decide)
  refine (yields_forEach fun name _ => yields_planJail hSome hPool.2 name).bind fun jails hJails =>
    (yields_forEach fun hoursAgo hMem => yields_hour (hHours hoursAgo hMem)).bind fun rows hRows =>
      yields_pure ?_
  have hSwapped : List.Forall₂ (fun jail name => jail.IsSound ∧ jail.name = name.toList) jails jailNames :=
    List.Forall₂.flip (hJails.imp fun _ _ h => h.symm)
  obtain ⟨hSound, hNames⟩ := (List.forall₂_and_left _ _).mp hSwapped
  obtain ⟨hLength, hEvents⟩ := flatten_bounded (List.forall₂_map_right_iff.mpr hRows)
  rw [← List.flatten_flatten] at hLength hEvents
  refine ⟨?_, hSound, hEvents, hLength⟩
  rw [← List.forall₂_eq_eq_eq]
  exact List.forall₂_map_left_iff.mpr (List.forall₂_map_right_iff.mpr hNames)

variable {more : Nat} (h : tries ≤ more)
include h

/-- Both bounds may grow, that on the octets and that on the tries of each. -/
theorem keeps_drawFirstOctet {octets moreOctets : Nat} (hOctets : octets ≤ moreOctets) :
    Keeps (drawFirstOctet tries octets) (drawFirstOctet more moreOctets) := by
  induction octets generalizing moreOctets with
  | zero => exact keeps_fail _
  | succ octets ih =>
      obtain ⟨moreOctets, rfl⟩ : ∃ n, moreOctets = n + 1 := ⟨moreOctets - 1, by omega⟩
      refine (keeps_rangeByte h 1 223).bind fun octet => ?_
      split
      · exact ih (by omega)
      · exact .refl _

theorem keeps_drawOrigin : Keeps (drawOrigin tries) (drawOrigin more) := by
  have hAddress : Keeps (drawAddress tries) (drawAddress more) :=
    (keeps_drawFirstOctet h h).bind fun _ => (Keeps.refl _).bind fun _ => (Keeps.refl _).bind fun _ =>
      (keeps_rangeByte h 1 254).map _
  exact hAddress.bind fun _ => (keeps_pick h _ _).map _

theorem keeps_drawBan (pool : List Origin) : Keeps (drawBan tries pool) (drawBan more pool) := by
  refine (Keeps.refl (chance sharedChance)).bind fun shared => ?_
  cases shared with
  | true => exact (keeps_pick h _ pool).bind fun _ => (keeps_range64 h _ _).map _
  | false => exact (keeps_drawOrigin h).bind fun _ => (keeps_range64 h _ _).map _

theorem keeps_planJail (pool : List Origin) (name : String) :
    Keeps (planJail tries pool name) (planJail more pool name) :=
  (keeps_range64 h _ _).bind fun count => (keeps_times (keeps_drawBan h pool) count).bind fun _ =>
    (keeps_range64 h _ _).bind fun _ => (keeps_range64 h _ _).bind fun _ => (keeps_range64 h _ _).map _

theorem keeps_planEvents (hoursAgo : Nat) (name : String) :
    Keeps (planEvents tries hoursAgo name) (planEvents more hoursAgo name) :=
  (keeps_range32 h _ _).bind fun count => keeps_times ((keeps_range64 h _ _).map _) count

/-- However many tries a plan is given, it is the same one. -/
theorem keeps_drawPlan : Keeps (drawPlan tries) (drawPlan more) :=
  (keeps_times (keeps_drawOrigin h) poolSize).bind fun pool =>
    (keeps_forEach (keeps_planJail h pool) jailNames).bind fun _ =>
      (keeps_forEach (fun hoursAgo => keeps_forEach (keeps_planEvents h hoursAgo) jailNames) _).map _

end BanBoard.Demo
