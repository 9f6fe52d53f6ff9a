import BanBoard.Overview.Offenders
import BanBoard.Proofs.Text.Order
import BanBoard.Proofs.Time.Order
import Mathlib

/-!
The ranking of offenders. Each record is what the jails say about one address, the records are those of
all banned addresses, and their order is a linear one in which no two of them are equal, so what a limit
leaves out ranks behind everything that it keeps.
-/

namespace BanBoard.Overview

open BanBoard.Time (Instant)

/-- Inserting a word adds that word and loses none. -/
theorem mem_insertWord {v w : List Char} {words : List (List Char)} :
    v ∈ insertWord w words ↔ v = w ∨ v ∈ words := by
  fun_induction insertWord w words with
  | case1 => simp
  | case2 => simp
  | case3 => simp
  | case4 u rest _ _ ih =>
      rw [List.mem_cons, ih, List.mem_cons]
      exact or_left_comm

/-- Inserting keeps the words in strict order, so a word that is there is not inserted again. -/
theorem pairwise_insertWord {w : List Char} {words : List (List Char)} (h : words.Pairwise (· < ·)) :
    (insertWord w words).Pairwise (· < ·) := by
  fun_induction insertWord w words with
  | case1 => exact List.pairwise_singleton _ _
  | case2 => exact h
  | case3 v rest hNe hLe =>
      have hLess : w < v := lt_of_le_of_ne (Text.le_iff.mp hLe) hNe
      refine List.pairwise_cons.mpr ⟨fun u hMem => ?_, h⟩
      rcases List.mem_cons.mp hMem with rfl | hRest
      · exact hLess
      · exact hLess.trans (List.rel_of_pairwise_cons h hRest)
  | case4 v rest hNe hNotLe ih =>
      have hLess : v < w := not_le.mp fun hLe => hNotLe (Text.le_iff.mpr hLe)
      obtain ⟨hHead, hTail⟩ := List.pairwise_cons.mp h
      refine List.pairwise_cons.mpr ⟨fun u hMem => ?_, ih hTail⟩
      rcases mem_insertWord.mp hMem with rfl | hRest
      · exact hLess
      · exact hHead u hRest

/-- The distinct words are the words of the list. -/
theorem mem_distinctWords {w : List Char} {words : List (List Char)} :
    w ∈ distinctWords words ↔ w ∈ words := by
  induction words with
  | nil => rfl
  | cons v words ih =>
      rw [distinctWords, List.foldr_cons, mem_insertWord, ← distinctWords, ih, List.mem_cons]

theorem pairwise_distinctWords (words : List (List Char)) : (distinctWords words).Pairwise (· < ·) := by
  induction words with
  | nil => exact List.Pairwise.nil
  | cons v words ih => exact pairwise_insertWord ih

theorem nodup_distinctWords (words : List (List Char)) : (distinctWords words).Nodup :=
  (pairwise_distinctWords words).imp ne_of_lt

/-- There are as many distinct words as the list has members. -/
theorem length_distinctWords (words : List (List Char)) :
    (distinctWords words).length = words.toFinset.card := by
  rw [← List.toFinset_card_of_nodup (nodup_distinctWords words)]
  congr 1
  ext w
  rw [List.mem_toFinset, List.mem_toFinset, mem_distinctWords]

section Greatest

variable {α β κ : Type} [PartialOrder κ]

/-- Whether a step keeps what it has or takes the next thing, and by a key never ends below either. -/
structure KeepsGreater (key : β → κ) (next : α → β) (step : β → α → β) : Prop where
  either : ∀ best x, step best x = best ∨ step best x = next x
  le_left : ∀ best x, key best ≤ key (step best x)
  le_right : ∀ best x, key (next x) ≤ key (step best x)

variable {key : β → κ} {next : α → β} {step : β → α → β}

/-- Going through some things, the greatest of them is kept. -/
theorem KeepsGreater.foldl (h : KeepsGreater key next step) (xs : List α) (first : β) :
    xs.foldl step first ∈ first :: xs.map next ∧
      ∀ b ∈ first :: xs.map next, key b ≤ key (xs.foldl step first) := by
  induction xs generalizing first with
  | nil => simp
  | cons x xs ih =>
      obtain ⟨hMem, hBound⟩ := ih (step first x)
      obtain ⟨hStep, hRest⟩ := List.forall_mem_cons.mp hBound
      rw [List.foldl_cons, List.map_cons]
      refine ⟨?_, ?_⟩
      · rcases List.mem_cons.mp hMem with hEq | hLater
        · rw [hEq]
          rcases h.either first x with hSame | hNext
          · simp [hSame]
          · simp [hNext]
        · exact List.mem_cons_of_mem _ (List.mem_cons_of_mem _ hLater)
      · exact List.forall_mem_cons.mpr ⟨(h.le_left first x).trans hStep,
          List.forall_mem_cons.mpr ⟨(h.le_right first x).trans hStep, hRest⟩⟩

/-- Where keys tell things apart, the order in which one goes through them has no say. -/
theorem KeepsGreater.foldl_perm (h : KeepsGreater key next step) (hKey : Function.Injective key)
    {xs ys : List α} (hPerm : xs.Perm ys) (first : β) : xs.foldl step first = ys.foldl step first := by
  obtain ⟨hMem, hBound⟩ := h.foldl xs first
  obtain ⟨hMem', hBound'⟩ := h.foldl ys first
  have hSame : ∀ b, b ∈ first :: xs.map next ↔ b ∈ first :: ys.map next :=
    fun b => ((hPerm.map next).cons first).mem_iff
  exact hKey (le_antisymm (hBound' _ ((hSame _).mp hMem)) (hBound _ ((hSame _).mpr hMem')))

end Greatest

/-- The time in the order in which times compare, an unknown one at the bottom. -/
def timeKey (time : Option Instant) : WithBot (ℤ ×ₗ ℕ) :=
  time.elim ⊥ fun t => ((toLex (t.seconds, t.nanos) : ℤ ×ₗ ℕ) : WithBot (ℤ ×ₗ ℕ))

theorem timeLe_iff {a b : Option Instant} : timeLe a b = true ↔ timeKey a ≤ timeKey b := by
  cases a with
  | none => exact iff_of_true rfl bot_le
  | some a =>
      cases b with
      | none => simp [timeLe, timeKey]
      | some b => simp [timeLe, timeKey, Instant.le_iff, Prod.Lex.toLex_le_toLex]

theorem timeKey_injective : Function.Injective timeKey := by
  rintro (_ | ⟨s, n⟩) (_ | ⟨s', n'⟩) h
  · rfl
  · simp [timeKey] at h
  · simp [timeKey] at h
  · obtain ⟨rfl, rfl⟩ : s = s' ∧ n = n' := by simpa [timeKey] using h
    rfl

/-- Whether a time is the latest of those that are known, or unknown because none is. -/
def IsLatest (known : Instant → Prop) : Option Instant → Prop
  | none => ∀ t, ¬known t
  | some last => known last ∧ ∀ t, known t → t.le last = true

theorem keepsGreater_laterTime : KeepsGreater timeKey id laterTime where
  either a b := by
    unfold laterTime
    split
    · exact .inr rfl
    · exact .inl rfl
  le_left a b := by
    unfold laterTime
    split
    · rename_i hLe
      exact timeLe_iff.mp hLe
    · exact le_refl _
  le_right a b := by
    unfold laterTime
    split
    · exact le_refl _
    · rename_i hNotLe
      exact le_of_not_ge fun hLe => hNotLe (timeLe_iff.mpr hLe)

/-- The latest ban is the greatest of the times that there are. -/
theorem isLatest_latestBan (bans : List Ban) :
    IsLatest (fun t => ∃ ban ∈ bans, ban.2.bannedAt = some t) (latestBan bans) := by
  obtain ⟨hMem, hBound⟩ := keepsGreater_laterTime.foldl (bans.map fun ban => ban.2.bannedAt) none
  rw [← latestBan, List.map_id] at hMem hBound
  rw [List.forall_mem_cons, List.forall_mem_map] at hBound
  have hKnown {ban : Ban} (hBan : ban ∈ bans) : timeLe ban.2.bannedAt (latestBan bans) = true :=
    timeLe_iff.mpr (hBound.2 ban hBan)
  cases hLatest : latestBan bans with
  | none =>
      rintro t ⟨ban, hBan, hTime⟩
      have hLe := hKnown hBan
      rw [hTime, hLatest] at hLe
      exact Bool.noConfusion hLe
  | some last =>
      refine ⟨?_, ?_⟩
      · rw [hLatest, List.mem_cons, List.mem_map] at hMem
        exact hMem.resolve_left (Option.some_ne_none last)
      · rintro t ⟨ban, hBan, hTime⟩
        have hLe := hKnown hBan
        rwa [hTime, hLatest] at hLe

/-- Whether an address is known to have been banned at a time. -/
def BannedAt (jails : List Jail) (ip : List Char) (t : Instant) : Prop :=
  ∃ jail ∈ jails, ∃ entry ∈ jail.banned, entry.ip = ip ∧ entry.bannedAt = some t

/-- Whether a record says about its address what the jails say. -/
structure IsOffender (jails : List Jail) (offender : Offender) : Prop where
  listed : ∃ jail ∈ jails, offender.ip ∈ jail.ips
  ascending : offender.jails.Pairwise (· < ·)
  mem_jails : ∀ name,
    name ∈ offender.jails ↔ ∃ jail ∈ jails, jail.name = name ∧ offender.ip ∈ jail.ips
  jailCount_eq : offender.jailCount =
    ((jails.filter fun jail => offender.ip ∈ jail.ips).map Jail.name).toFinset.card
  isLatest : IsLatest (BannedAt jails offender.ip) offender.lastBanned

/-- The bans are the entries of all jails, each with the name of its jail. -/
theorem mem_bansOf {jails : List Jail} {name : List Char} {entry : BannedAddress} :
    (name, entry) ∈ bansOf jails ↔ ∃ jail ∈ jails, jail.name = name ∧ entry ∈ jail.banned := by
  simp [bansOf, and_comm]

/-- The addresses of the bans are those of the jails, jail by jail. -/
theorem map_ip_bansOf (jails : List Jail) :
    (bansOf jails).map (fun ban => ban.2.ip) = jails.flatMap Jail.ips := by
  rw [bansOf, List.map_flatMap]
  simp only [List.map_map]
  rfl

/-- The bans of one address come from the jails that list it. -/
theorem mem_map_own {jails : List Jail} {ip name : List Char} :
    name ∈ ((bansOf jails).filter fun ban => ban.2.ip = ip).map Prod.fst ↔
      ∃ jail ∈ jails, jail.name = name ∧ ip ∈ jail.ips := by
  simp only [List.mem_map, List.mem_filter, Prod.exists, mem_bansOf, decide_eq_true_eq, Jail.ips]
  constructor
  · rintro ⟨_, entry, ⟨⟨jail, hJail, hName, hEntry⟩, hIp⟩, rfl⟩
    exact ⟨jail, hJail, hName, entry, hEntry, hIp⟩
  · rintro ⟨jail, hJail, hName, entry, hEntry, hIp⟩
    exact ⟨name, entry, ⟨⟨jail, hJail, hName, hEntry⟩, hIp⟩, rfl⟩

/-- The times of the bans of one address are those that a jail gives it. -/
theorem mem_own_bannedAt {jails : List Jail} {ip : List Char} {t : Instant} :
    (∃ ban ∈ (bansOf jails).filter (fun ban => ban.2.ip = ip), ban.2.bannedAt = some t) ↔
      BannedAt jails ip t := by
  simp only [List.mem_filter, Prod.exists, mem_bansOf, decide_eq_true_eq, BannedAt]
  constructor
  · rintro ⟨_, entry, ⟨⟨jail, hJail, _, hEntry⟩, hIp⟩, hTime⟩
    exact ⟨jail, hJail, entry, hEntry, hIp, hTime⟩
  · rintro ⟨jail, hJail, entry, hEntry, hIp, hTime⟩
    exact ⟨jail.name, entry, ⟨⟨jail, hJail, rfl, hEntry⟩, hIp⟩, hTime⟩

/-- What is grouped under an address tells about it what the jails do. -/
theorem isOffender_offenderOf {jails : List Jail} {ip : List Char} (h : ip ∈ jails.flatMap Jail.ips) :
    IsOffender jails (offenderOf (bansOf jails) ip) where
  listed := List.mem_flatMap.mp h
  ascending := pairwise_distinctWords _
  mem_jails := fun name => mem_distinctWords.trans mem_map_own
  jailCount_eq := by
    rw [Offender.jailCount, offenderOf, length_distinctWords]
    congr 1
    ext name
    rw [List.mem_toFinset, List.mem_toFinset, mem_map_own]
    simp only [List.mem_map, List.mem_filter, decide_eq_true_eq, and_assoc]
    exact exists_congr fun jail => and_congr_right fun _ => and_comm
  isLatest := by
    have hKnown : (fun t => ∃ ban ∈ (bansOf jails).filter (fun ban => ban.2.ip = ip),
        ban.2.bannedAt = some t) = BannedAt jails ip := funext fun t => propext mem_own_bannedAt
    rw [offenderOf, ← hKnown]
    exact isLatest_latestBan _

/-- Whether one time is later than another. Every known time is later than an unknown one. -/
def IsLater : Option Instant → Option Instant → Prop
  | some a, some b => b.lt a = true
  | some _, none => True
  | none, _ => False

/-- Whether one offender ranks before another: with more jails, then with a later ban, then with the
lower address. -/
def RanksBefore (a b : Offender) : Prop :=
  b.jailCount < a.jailCount ∨
    (a.jailCount = b.jailCount ∧
      (IsLater a.lastBanned b.lastBanned ∨ (a.lastBanned = b.lastBanned ∧ a.ip < b.ip)))

/-- An offender in the order of the ranking. -/
def rankKey (offender : Offender) : ℕᵒᵈ ×ₗ (WithBot (ℤ ×ₗ ℕ))ᵒᵈ ×ₗ List Char :=
  toLex (OrderDual.toDual offender.jailCount,
    toLex (OrderDual.toDual (timeKey offender.lastBanned), offender.ip))

theorem isLater_iff {a b : Option Instant} : IsLater a b ↔ timeKey b < timeKey a := by
  cases a with
  | none => exact iff_of_false id not_lt_bot
  | some a =>
      cases b with
      | none => exact iff_of_true trivial (WithBot.bot_lt_coe _)
      | some b =>
          have hLe : a.le b = true ↔ timeKey (some a) ≤ timeKey (some b) :=
            timeLe_iff (a := some a) (b := some b)
          rw [← not_le, ← hLe, IsLater, Instant.lt, Bool.not_eq_true', Bool.not_eq_true]

/-- The ranking compares keys, the count first, then the time, then the address. -/
theorem rankLe_iff {a b : Offender} : rankLe a b = true ↔ rankKey a ≤ rankKey b := by
  simp only [rankKey, Prod.Lex.toLex_le_toLex, OrderDual.toDual_lt_toDual, OrderDual.toDual_inj,
    timeKey_injective.eq_iff]
  unfold rankLe
  split
  · rename_i hCount
    rw [hCount, iff_false_intro (lt_irrefl b.jailCount), false_or, iff_true_intro rfl, true_and]
    split
    · rename_i hTime
      simp [hTime, Text.le_iff]
    · rename_i hTime
      have hNe : timeKey b.lastBanned ≠ timeKey a.lastBanned :=
        fun hEq => hTime (timeKey_injective hEq).symm
      simp [hTime, timeLe_iff, hNe.le_iff_lt]
  · rename_i hCount
    simp [hCount]

theorem ranksBefore_iff {a b : Offender} : RanksBefore a b ↔ rankKey a < rankKey b := by
  simp only [rankKey, Prod.Lex.toLex_lt_toLex, OrderDual.toDual_lt_toDual, OrderDual.toDual_inj,
    RanksBefore, timeKey_injective.eq_iff, isLater_iff]

/-- The ranking has one offender for every distinct address. -/
theorem perm_ranking (jails : List Jail) :
    (ranking jails).Perm
      ((distinctWords (jails.flatMap Jail.ips)).map (offenderOf (bansOf jails))) := by
  rw [← map_ip_bansOf]
  exact List.mergeSort_perm _ _

/-- Every banned address has a record, and only one. -/
theorem perm_map_ip_ranking (jails : List Jail) :
    ((ranking jails).map Offender.ip).Perm (distinctWords (jails.flatMap Jail.ips)) := by
  have hIps := (perm_ranking jails).map Offender.ip
  have hSame : Offender.ip ∘ offenderOf (bansOf jails) = id := rfl
  rwa [List.map_map, hSame, List.map_id] at hIps

/-- Every place of the ranking is an offender of its jails. -/
theorem isOffender_of_mem_ranking {jails : List Jail} {offender : Offender}
    (h : offender ∈ ranking jails) : IsOffender jails offender := by
  obtain ⟨ip, hIp, rfl⟩ := List.mem_map.mp ((perm_ranking jails).mem_iff.mp h)
  exact isOffender_offenderOf (mem_distinctWords.mp hIp)

/-- Records of different addresses never rank alike. -/
theorem pairwise_ranking (jails : List Jail) : (ranking jails).Pairwise RanksBefore := by
  have hTrans : ∀ a b c, rankLe a b = true → rankLe b c = true → rankLe a c = true := by
    intro a b c hab hbc
    exact rankLe_iff.mpr ((rankLe_iff.mp hab).trans (rankLe_iff.mp hbc))
  have hTotal : ∀ a b, (rankLe a b || rankLe b a) = true := by
    intro a b
    rw [Bool.or_eq_true, rankLe_iff, rankLe_iff]
    exact le_total _ _
  have hSorted : (ranking jails).Pairwise fun a b => rankLe a b = true :=
    List.pairwise_mergeSort hTrans hTotal _
  have hDistinct : (ranking jails).Pairwise fun a b => a.ip ≠ b.ip :=
    List.pairwise_map.mp ((perm_map_ip_ranking jails).nodup_iff.mpr (nodup_distinctWords _))
  refine (hSorted.and hDistinct).imp fun {a b} ⟨hLe, hNe⟩ => ?_
  have hKey : rankKey a ≠ rankKey b := fun hEq => hNe (congrArg (fun key => (ofLex (ofLex key).2).2) hEq)
  exact ranksBefore_iff.mpr (lt_of_le_of_ne (rankLe_iff.mp hLe) hKey)

/-- The offenders that are shown are as many as there are banned addresses, up to the limit, each with an
address of its own and with what the jails say about that address. They stand in the order of the
ranking, and every banned address that is not shown would rank behind all of them. -/
theorem topOffenders_areExact (jails : List Jail) (limit : Nat) :
    (topOffenders jails limit).length = min limit (jails.flatMap Jail.ips).toFinset.card ∧
    ((topOffenders jails limit).map Offender.ip).Nodup ∧
    (∀ offender ∈ topOffenders jails limit, IsOffender jails offender) ∧
    (topOffenders jails limit).Pairwise RanksBefore ∧
    (∀ ip ∈ jails.flatMap Jail.ips, ip ∉ (topOffenders jails limit).map Offender.ip →
      ∃ other, other.ip = ip ∧ IsOffender jails other ∧
        ∀ offender ∈ topOffenders jails limit, RanksBefore offender other) := by
  have hIps := perm_map_ip_ranking jails
  have hOrder := pairwise_ranking jails
  refine ⟨?_, ?_, ?_, ?_, ?_⟩
  · rw [topOffenders, List.length_take, ← List.length_map Offender.ip, hIps.length_eq,
      length_distinctWords]
  · rw [topOffenders, List.map_take]
    exact (hIps.nodup_iff.mpr (nodup_distinctWords _)).sublist (List.take_sublist _ _)
  · exact fun offender hMem => isOffender_of_mem_ranking (List.mem_of_mem_take hMem)
  · exact hOrder.sublist (List.take_sublist _ _)
  · intro ip hBanned hLeft
    have hRanked : ip ∈ (ranking jails).map Offender.ip := hIps.mem_iff.mpr (mem_distinctWords.mpr hBanned)
    obtain ⟨other, hOther, rfl⟩ := List.mem_map.mp hRanked
    refine ⟨other, rfl, isOffender_of_mem_ranking hOther, fun offender hShown => ?_⟩
    rw [← List.take_append_drop limit (ranking jails)] at hOrder hOther
    rcases List.mem_append.mp hOther with hTaken | hDropped
    · exact (hLeft (List.mem_map_of_mem hTaken)).elim
    · exact (List.pairwise_append.mp hOrder).2.2 offender hShown other hDropped

end BanBoard.Overview
