import BanBoard.Proofs.Overview.Offenders

/-!
Offenders in whatever order they are listed. Neither the order of the jails nor the order of the bans in
one of them has a say in the ranking. The country of an address, which any of its bans may name, is that
of the latest of them, and of those at the same time that of the one in the lowest jail.
-/

namespace BanBoard.Overview

open BanBoard.Time (Instant)

/-- A source in the order in which sources count. -/
def sourceKey (source : CountrySource) : WithBot (ℤ ×ₗ ℕ) ×ₗ (List Char)ᵒᵈ ×ₗ List Char :=
  toLex (timeKey source.time, toLex (OrderDual.toDual source.jail, source.country))

/-- The source that has been found, or none below all others. -/
def foundKey (found : Option CountrySource) :
    WithBot (WithBot (ℤ ×ₗ ℕ) ×ₗ (List Char)ᵒᵈ ×ₗ List Char) := found.map sourceKey

theorem CountrySource.le_iff {a b : CountrySource} : a.le b = true ↔ sourceKey a ≤ sourceKey b := by
  simp only [sourceKey, Prod.Lex.toLex_le_toLex, OrderDual.toDual_lt_toDual, OrderDual.toDual_inj,
    timeKey_injective.eq_iff]
  unfold CountrySource.le
  split
  · rename_i hTime
    rw [hTime, iff_false_intro (lt_irrefl _), false_or, iff_true_intro rfl, true_and]
    split
    · rename_i hJail
      simp [hJail, Text.le_iff]
    · rename_i hJail
      have hNe : b.jail ≠ a.jail := fun hEq => hJail hEq.symm
      simp [hJail, Text.le_iff, hNe.le_iff_lt]
  · rename_i hTime
    have hNe : timeKey a.time ≠ timeKey b.time := fun hEq => hTime (timeKey_injective hEq)
    simp [hTime, timeLe_iff, hNe.le_iff_lt]

/-- Sources with the same key are the same source. -/
theorem sourceKey_injective : Function.Injective sourceKey := by
  rintro ⟨time, jail, country⟩ ⟨time', jail', country'⟩ h
  simp only [sourceKey, EmbeddingLike.apply_eq_iff_eq, Prod.mk.injEq] at h
  obtain ⟨hTime, rfl, rfl⟩ := h
  rw [timeKey_injective hTime]

theorem foundKey_injective : Function.Injective foundKey :=
  Option.map_injective sourceKey_injective

/-- The best source is the greater of two by its key. -/
theorem keepsGreater_bestSource : KeepsGreater foundKey some bestSource where
  either best source := by
    unfold bestSource
    split
    · exact .inr rfl
    · split
      · exact .inl rfl
      · exact .inr rfl
  le_left best source := by
    unfold bestSource
    split
    · exact bot_le
    · split
      · exact le_refl _
      · rename_i hNotLe
        exact WithBot.coe_le_coe.mpr (le_of_not_ge fun hLe => hNotLe (CountrySource.le_iff.mpr hLe))
  le_right best source := by
    unfold bestSource
    split
    · exact le_refl _
    · split
      · rename_i hLe
        exact WithBot.coe_le_coe.mpr (CountrySource.le_iff.mp hLe)
      · exact le_refl _

/-- Whether the country of an address is known from a ban in one of the jails. -/
def IsSource (jails : List Jail) (ip : List Char) (source : CountrySource) : Prop :=
  ∃ jail ∈ jails, ∃ entry ∈ jail.banned, entry.ip = ip ∧ source.time = entry.bannedAt ∧
    source.jail = jail.name ∧ entry.country = some source.country

/-- Whether one source counts for more than another: it is a later ban, or one at the same time in a lower
jail. Only where a jail is listed twice, the higher country decides. -/
def CountsForMore (a b : CountrySource) : Prop :=
  IsLater a.time b.time ∨
    (a.time = b.time ∧ (a.jail < b.jail ∨ (a.jail = b.jail ∧ b.country < a.country)))

/-- Whether a country is the one of the source that counts for the most, or missing because there is no
source. -/
def IsCountry (jails : List Jail) (ip : List Char) : Option (List Char) → Prop
  | none => ∀ source, ¬IsSource jails ip source
  | some country => ∃ source, IsSource jails ip source ∧ source.country = country ∧
      ∀ other, IsSource jails ip other → other = source ∨ CountsForMore source other

theorem countsForMore_iff {a b : CountrySource} : CountsForMore a b ↔ sourceKey b < sourceKey a := by
  simp only [sourceKey, Prod.Lex.toLex_lt_toLex, OrderDual.toDual_lt_toDual, OrderDual.toDual_inj,
    CountsForMore, timeKey_injective.eq_iff, isLater_iff, eq_comm]

/-- The sources of an address are its bans with a country. -/
theorem mem_sources {jails : List Jail} {ip : List Char} {source : CountrySource} :
    source ∈ ((bansOf jails).filter fun ban => ban.2.ip = ip).filterMap CountrySource.ofBan? ↔
      IsSource jails ip source := by
  obtain ⟨time, jail, country⟩ := source
  simp only [List.mem_filterMap, List.mem_filter, Prod.exists, mem_bansOf, decide_eq_true_eq, IsSource,
    CountrySource.ofBan?, Option.map_eq_some_iff, CountrySource.mk.injEq]
  constructor
  · rintro ⟨_, entry, ⟨⟨jail, hJail, rfl, hEntry⟩, hIp⟩, _, hCountry, rfl, rfl, rfl⟩
    exact ⟨jail, hJail, entry, hEntry, hIp, rfl, rfl, hCountry⟩
  · rintro ⟨jail, hJail, entry, hEntry, hIp, rfl, rfl, hCountry⟩
    exact ⟨_, entry, ⟨⟨jail, hJail, rfl, hEntry⟩, hIp⟩, _, hCountry, rfl, rfl, rfl⟩

/-- The country of an offender is that of the source that counts for most. -/
theorem isCountry_offenderOf (jails : List Jail) (ip : List Char) :
    IsCountry jails ip (offenderOf (bansOf jails) ip).country := by
  obtain ⟨hMem, hBound⟩ := keepsGreater_bestSource.foldl
    (((bansOf jails).filter fun ban => ban.2.ip = ip).filterMap CountrySource.ofBan?) none
  rw [List.forall_mem_cons, List.forall_mem_map] at hBound
  simp only [offenderOf, countryOf]
  generalize List.foldl bestSource none _ = best at hMem hBound
  cases best with
  | none =>
      intro source hSource
      have hBelow := hBound.2 source (mem_sources.mpr hSource)
      exact WithBot.not_coe_le_bot _ hBelow
  | some source =>
      have hFound := (List.mem_map_of_injective (Option.some_injective _)).mp
        (List.mem_of_ne_of_mem (Option.some_ne_none source) hMem)
      refine ⟨source, mem_sources.mp hFound, rfl, fun other hOther => ?_⟩
      have hLe := WithBot.coe_le_coe.mp (hBound.2 other (mem_sources.mpr hOther))
      rcases hLe.eq_or_lt with hSame | hLess
      · exact .inl (sourceKey_injective hSame)
      · exact .inr (countsForMore_iff.mpr hLess)

/-- Whether two jails have the same bans, in whatever order. What else is known about the jails may
differ. -/
def SameBans (jail other : Jail) : Prop := jail.name = other.name ∧ jail.banned.Perm other.banned

/-- Whether the same jails are listed in another order, with the bans in each in another order. -/
def IsReordering (jails others : List Jail) : Prop :=
  ∃ moved, jails.Perm moved ∧ List.Forall₂ SameBans moved others

/-- Jails whose lists have the same bans in other orders have the same bans in all. -/
theorem perm_bansOf_of_sameBans {jails others : List Jail} (h : List.Forall₂ SameBans jails others) :
    (bansOf jails).Perm (bansOf others) := by
  induction h with
  | nil => exact List.Perm.refl _
  | @cons jail other jails others hHead _ ih =>
      obtain ⟨hName, hBanned⟩ := hHead
      rw [bansOf, bansOf, List.flatMap_cons, List.flatMap_cons, hName]
      exact (hBanned.map _).append ih

/-- A reordering of jails and lists reorders the bans. -/
theorem IsReordering.perm_bansOf {jails others : List Jail} (h : IsReordering jails others) :
    (bansOf jails).Perm (bansOf others) := by
  obtain ⟨moved, hMoved, hInside⟩ := h
  exact (hMoved.flatMap_right _).trans (perm_bansOf_of_sameBans hInside)

/-- Distinct words are sorted, so the order of the list is forgotten. -/
theorem distinctWords_perm {words others : List (List Char)} (h : words.Perm others) :
    distinctWords words = distinctWords others := by
  have hSame : ∀ word, word ∈ distinctWords words ↔ word ∈ distinctWords others := by
    intro word
    rw [mem_distinctWords, mem_distinctWords, h.mem_iff]
  have hPerm : (distinctWords words).Perm (distinctWords others) :=
    (List.perm_ext_iff_of_nodup (nodup_distinctWords words) (nodup_distinctWords others)).mpr hSame
  exact hPerm.eq_of_pairwise (fun _ _ _ _ hLess hMore => (lt_asymm hLess hMore).elim)
    (pairwise_distinctWords words) (pairwise_distinctWords others)

section Perm

variable {bans others : List Ban} (h : bans.Perm others)
include h

/-- The latest ban does not depend on the order of the bans. -/
theorem latestBan_perm : latestBan bans = latestBan others :=
  keepsGreater_laterTime.foldl_perm timeKey_injective (h.map fun ban : Ban => ban.2.bannedAt) none

theorem countryOf_perm : countryOf bans = countryOf others :=
  congrArg (Option.map CountrySource.country)
    (keepsGreater_bestSource.foldl_perm foundKey_injective (h.filterMap CountrySource.ofBan?) none)

/-- Nothing that is told about an offender depends on the order of the bans. -/
theorem offenderOf_perm (ip : List Char) : offenderOf bans ip = offenderOf others ip := by
  have hOwn := h.filter fun ban => ban.2.ip = ip
  simp only [offenderOf, distinctWords_perm (hOwn.map Prod.fst), latestBan_perm hOwn, countryOf_perm hOwn]

end Perm

/-- A reordering leaves the ranking as it is. -/
theorem ranking_reordering {jails others : List Jail} (h : IsReordering jails others) :
    ranking jails = ranking others := by
  have hBans := h.perm_bansOf
  rw [ranking, ranking, distinctWords_perm (hBans.map fun ban => ban.2.ip),
    funext (offenderOf_perm hBans)]

/-- The offenders that are shown do not depend on the order in which jails and bans are listed. The country
of each is that of its latest ban among those that name one, unknown times counting as the oldest, and of
several at the same time that of the one in the lowest jail. -/
theorem topOffenders_ignoreOrder {jails others : List Jail} (h : IsReordering jails others) (limit : Nat) :
    topOffenders jails limit = topOffenders others limit ∧
    ∀ offender ∈ topOffenders jails limit, IsCountry jails offender.ip offender.country := by
  refine ⟨by rw [topOffenders, ranking_reordering h, topOffenders], fun offender hShown => ?_⟩
  have hRanked : offender ∈ ranking jails := List.mem_of_mem_take hShown
  obtain ⟨ip, -, rfl⟩ := List.mem_map.mp ((perm_ranking jails).mem_iff.mp hRanked)
  exact isCountry_offenderOf jails ip

/-- Two jails have one name, and a ban is known from them without a time. Of the two at the same time the
one in the lower jail decides, wherever it is listed. -/
theorem topOffenders_ignoreOrder_sameTime :
    let ip := "192.0.2.1".toList
    let other := "::1".toList
    let sshd := "sshd".toList
    let mail := "postfix".toList
    let time : Option Instant := some ⟨1714525323, 0⟩
    let first := (Jail.empty sshd).withBanned [⟨ip, sshd, time, some "NL".toList⟩, .listed other sshd]
    let second := (Jail.empty mail).withBanned [⟨ip, mail, time, some "DE".toList⟩]
    let third := (Jail.empty sshd).withBanned [⟨ip, sshd, none, some "FR".toList⟩]
    let turned := { first.withBanned first.banned.reverse with totalBanned := 9 }
    let jails := [first, second, third]
    let others := [third, turned, second]
    IsReordering jails others ∧ topOffenders jails 1 = topOffenders others 1 ∧
    (topOffenders jails 1).map Offender.country = [some "DE".toList] := by
  intro ip other sshd mail time first second third turned jails others
  have hInside : List.Forall₂ SameBans [third, first, second] others :=
    .cons ⟨rfl, List.Perm.refl _⟩ (.cons ⟨rfl, by decide⟩ (.cons ⟨rfl, List.Perm.refl _⟩ .nil))
  have hOrder : IsReordering jails others := ⟨[third, first, second], by decide, hInside⟩
  have hRanked : ([ip, other].map (offenderOf (bansOf jails))).Pairwise fun a b => rankLe a b = true := by
    decide
  have hRanking : ranking jails = [ip, other].map (offenderOf (bansOf jails)) :=
    List.mergeSort_of_pairwise hRanked
  refine ⟨hOrder, (topOffenders_ignoreOrder hOrder 1).1, ?_⟩
  rw [topOffenders, hRanking]
  decide

end BanBoard.Overview
