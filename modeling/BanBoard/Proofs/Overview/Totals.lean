import Mathlib.Algebra.Order.BigOperators.Group.List
import Mathlib.Algebra.Order.Group.Nat
import BanBoard.Overview.Totals
import BanBoard.Proofs.Client.Faithful
import BanBoard.Proofs.Status.AnyOrder

/-!
The counters of all jails together. A total is the exact sum of the counters that the reports give, and
there are totals just when every sum is a word. Reports can give any words at all, so nothing but the size
of the sums decides that.
-/

namespace BanBoard.Overview

open BanBoard.Client.Faithful (printed)
open BanBoard.Status
open BanBoard.Text

/-- A counter that the report on a jail gives and that is added up over all jails. -/
inductive Counter where
  | currentlyFailed
  | totalFailed
  | totalBanned
  deriving DecidableEq

namespace Counter

def all : List Counter := [.currentlyFailed, .totalFailed, .totalBanned]

def field : Counter → Field
  | .currentlyFailed => .currentlyFailed
  | .totalFailed => .totalFailed
  | .totalBanned => .totalBanned

def ofJail : Counter → Jail → UInt64
  | .currentlyFailed, jail => jail.currentlyFailed
  | .totalFailed, jail => jail.totalFailed
  | .totalBanned, jail => jail.totalBanned

def ofTotals : Counter → Totals → UInt64
  | .currentlyFailed, totals => totals.currentlyFailed
  | .totalFailed, totals => totals.totalFailed
  | .totalBanned, totals => totals.totalBanned

def set : Counter → UInt64 → Jail → Jail
  | .currentlyFailed, n, jail => { jail with currentlyFailed := n }
  | .totalFailed, n, jail => { jail with totalFailed := n }
  | .totalBanned, n, jail => { jail with totalBanned := n }

/-- The sum of a counter over some jails, however great it is. -/
def sum (counter : Counter) (jails : List Jail) : Nat :=
  (jails.map fun jail => (counter.ofJail jail).toNat).sum

def line (counter : Counter) (n : UInt64) : List Char := counter.field.label ++ ':' :: decimal n.toNat

end Counter

/-- The jails that some texts report, each text with the name under which it was asked for. -/
def reported (reports : List (List Char × List Char)) : List Jail :=
  reports.map fun report => jailReport report.1 report.2

def countsText (counts : Counter → UInt64) : List Char :=
  printed (Counter.all.map fun counter => counter.line (counts counter))

/-- The number of bans in some jails, as it is added up. -/
def bannedSum (jails : List Jail) : Nat := (jails.map fun jail => jail.currentlyBanned.toUInt64.toNat).sum

/-- Whether totals are those of some jails added to those of others. -/
structure Totals.IsSum (totals : Totals) (jails : List Jail) (sum : Totals) : Prop where
  number : totals.jails + jails.length = sum.jails
  currentlyBanned : totals.currentlyBanned.toNat + bannedSum jails = sum.currentlyBanned.toNat
  counters : ∀ counter : Counter,
    (counter.ofTotals totals).toNat + counter.sum jails = (counter.ofTotals sum).toNat

variable {totals sum : Totals} {jail : Jail} {jails : List Jail}

theorem Counter.sum_cons (counter : Counter) (jail : Jail) (jails : List Jail) :
    counter.sum (jail :: jails) = (counter.ofJail jail).toNat + counter.sum jails := List.sum_cons

theorem bannedSum_cons (jail : Jail) (jails : List Jail) :
    bannedSum (jail :: jails) = jail.currentlyBanned.toUInt64.toNat + bannedSum jails := List.sum_cons

/-- One step adds up each counter, and goes on only with words. -/
theorem add?_eq_some_iff : totals.add? jail = some sum ↔ totals.IsSum [jail] sum := by
  obtain ⟨count, banned, failed, totalBanned, totalFailed⟩ := sum
  simp only [Totals.add?, Option.bind_eq_bind, Option.bind_eq_some_iff, Option.pure_def, Option.some.injEq,
    Number.add?_eq_some_iff, Totals.mk.injEq]
  constructor
  · rintro ⟨banned, hBanned, failed, hFailed, totalBanned, hTotalBanned, totalFailed, hTotalFailed, rfl, rfl,
      rfl, rfl, rfl⟩
    refine ⟨rfl, hBanned, fun counter => ?_⟩
    cases counter
    · exact hFailed
    · exact hTotalFailed
    · exact hTotalBanned
  · rintro ⟨hCount, hBanned, hCounters⟩
    exact ⟨banned, hBanned, failed, hCounters .currentlyFailed, totalBanned, hCounters .totalBanned,
      totalFailed, hCounters .totalFailed, hCount, rfl, rfl, rfl, rfl⟩

/-- Whatever is a sum with more jails is one with fewer of them first. -/
theorem Totals.IsSum.exists_first (h : totals.IsSum (jail :: jails) sum) :
    ∃ first, totals.IsSum [jail] first ∧ first.IsSum jails sum := by
  have hWord {n : Nat} {w : UInt64} (hLe : n ≤ w.toNat) : (UInt64.ofNat n).toNat = n :=
    UInt64.toNat_ofNat_of_lt' (Nat.lt_of_le_of_lt hLe w.toNat_lt)
  have hBanned := h.currentlyBanned
  rw [bannedSum_cons, ← Nat.add_assoc] at hBanned
  have hCounters (counter : Counter) : (counter.ofTotals totals).toNat + (counter.ofJail jail).toNat +
      counter.sum jails = (counter.ofTotals sum).toNat := by
    rw [Nat.add_assoc, ← counter.sum_cons]
    exact h.counters counter
  let next (counter : Counter) : UInt64 :=
    .ofNat ((counter.ofTotals totals).toNat + (counter.ofJail jail).toNat)
  have hNext (counter : Counter) : (next counter).toNat =
      (counter.ofTotals totals).toNat + (counter.ofJail jail).toNat :=
    hWord (Nat.le.intro (hCounters counter))
  let banned : UInt64 := .ofNat (totals.currentlyBanned.toNat + jail.currentlyBanned.toUInt64.toNat)
  have hNextBanned : banned.toNat =
      totals.currentlyBanned.toNat + jail.currentlyBanned.toUInt64.toNat :=
    hWord (Nat.le.intro hBanned)
  let first : Totals :=
    ⟨totals.jails + 1, banned, next .currentlyFailed, next .totalBanned, next .totalFailed⟩
  have hFirst (counter : Counter) : counter.ofTotals first = next counter := by cases counter <;> rfl
  refine ⟨first, ⟨rfl, hNextBanned.symm, fun counter => ?_⟩, ⟨?_, ?_, fun counter => ?_⟩⟩
  · rw [hFirst, hNext]
    rfl
  · rw [← h.number, List.length_cons, Nat.add_right_comm, Nat.add_assoc]
  · rw [← hBanned]
    exact congrArg (· + bannedSum jails) hNextBanned
  · rw [hFirst, hNext, hCounters]

/-- Added up one after the other, the jails have the exact sums. -/
theorem foldlM_add?_eq_some_iff :
    jails.foldlM Totals.add? totals = some sum ↔ totals.IsSum jails sum := by
  induction jails generalizing totals with
  | nil =>
      rw [List.foldlM_nil, Option.pure_def, Option.some.injEq]
      refine ⟨fun hSame => hSame ▸ ⟨rfl, rfl, fun _ => rfl⟩, fun ⟨hJails, hBanned, hCounters⟩ => ?_⟩
      cases totals
      cases sum
      rw [Totals.mk.injEq]
      exact ⟨hJails, UInt64.toNat_inj.mp hBanned, UInt64.toNat_inj.mp (hCounters .currentlyFailed),
        UInt64.toNat_inj.mp (hCounters .totalBanned), UInt64.toNat_inj.mp (hCounters .totalFailed)⟩
  | cons jail jails ih =>
      rw [List.foldlM_cons, Option.bind_eq_bind, Option.bind_eq_some_iff]
      simp only [add?_eq_some_iff, ih]
      refine ⟨fun ⟨first, hFirst, hRest⟩ => ?_, Totals.IsSum.exists_first⟩
      refine ⟨?_, ?_, fun counter => ?_⟩
      · have hOne := hFirst.number
        have hMore := hRest.number
        simp only [List.length_cons, List.length_nil] at hOne ⊢
        omega
      · rw [← hRest.currentlyBanned, ← hFirst.currentlyBanned, bannedSum_cons, Nat.add_assoc]
        rfl
      · rw [← hRest.counters, ← hFirst.counters, counter.sum_cons, Nat.add_assoc]
        rfl

/-- The totals are the exact sums. -/
theorem ofJails?_eq_some_iff : Totals.ofJails? jails = some sum ↔ Totals.zero.IsSum jails sum :=
  foldlM_add?_eq_some_iff

/-- From zero on, a total is the sum of its counter. -/
theorem Totals.IsSum.toNat_ofTotals (h : Totals.zero.IsSum jails sum) (counter : Counter) :
    (counter.ofTotals sum).toNat = counter.sum jails := by
  have hZero : (counter.ofTotals .zero).toNat = 0 := by cases counter <;> rfl
  rw [← h.counters, hZero, Nat.zero_add]

/-- There are totals just when every sum is a word. -/
theorem exists_ofJails?_iff : (∃ sum, Totals.ofJails? jails = some sum) ↔
    bannedSum jails < 2 ^ 64 ∧ ∀ counter : Counter, counter.sum jails < 2 ^ 64 := by
  simp only [ofJails?_eq_some_iff]
  constructor
  · rintro ⟨sum, hSum⟩
    refine ⟨?_, fun counter => ?_⟩
    · have hBanned := hSum.currentlyBanned
      have hBound := sum.currentlyBanned.toNat_lt
      omega
    · rw [← hSum.toNat_ofTotals]
      exact (counter.ofTotals sum).toNat_lt
  · rintro ⟨hBanned, hCounters⟩
    let word (counter : Counter) : UInt64 := .ofNat (counter.sum jails)
    refine ⟨⟨jails.length, .ofNat (bannedSum jails), word .currentlyFailed, word .totalBanned,
      word .totalFailed⟩, Nat.zero_add _, ?_, fun counter => ?_⟩
    · exact (Nat.zero_add _).trans (UInt64.toNat_ofNat_of_lt' hBanned).symm
    · have hWord : (word counter).toNat = counter.sum jails :=
        UInt64.toNat_ofNat_of_lt' (hCounters counter)
      cases counter <;> exact (Nat.zero_add _).trans hWord.symm

/-- A total is no smaller than any of its parts. -/
theorem Totals.IsSum.ofJail_le (h : Totals.zero.IsSum jails sum) (counter : Counter) (hMem : jail ∈ jails) :
    counter.ofJail jail ≤ counter.ofTotals sum := by
  have hPart : (counter.ofJail jail).toNat ≤ counter.sum jails :=
    List.le_sum_of_mem (List.mem_map_of_mem (f := fun jail => (counter.ofJail jail).toNat) hMem)
  rwa [UInt64.le_iff_toNat_le, h.toNat_ofTotals]

theorem isLine_line (counter : Counter) (n : UInt64) : IsLine (counter.line n) := by
  rw [Counter.line, isLine_append, isLine_cons]
  exact ⟨by cases counter <;> decide, by decide, isLine_decimal _⟩

/-- A line with a counter sets that counter and no other. -/
theorem applyLine_line (counter : Counter) (n : UInt64) (state : Jail × Bool) :
    applyLine state (counter.line n) = (counter.set n state.1, false) := by
  have hLabel : HasLabel counter.field.label (counter.line n) (decimal n.toNat) := by
    refine ⟨[], counter.field.label, [], List.forall_mem_nil _, ?_, rfl, ?_⟩
    · cases counter <;> decide
    · rw [List.nil_append, List.append_nil, Counter.line]
  have hCount : Status.counter (trimEnd (decimal n.toNat)) = n :=
    counter_trimEnd ⟨[], [], rfl, rfl, (List.append_nil _).symm⟩
  have hField (value : List Char) : applyField state.1 counter.field.label value =
      (counter.set (Status.counter value) state.1, false) := by
    cases counter <;> rfl
  rw [applyLine_hasLabel (Field.isHeading _) hLabel, hField, hCount]

/-- A report that gives counters is read with exactly these counters. -/
theorem jailReport_countsText (name : List Char) (counts : Counter → UInt64) (counter : Counter) :
    counter.ofJail (jailReport name (countsText counts)) = counts counter := by
  have hLines : ∀ line ∈ Counter.all.map fun counter => counter.line (counts counter), IsLine line :=
    List.forall_mem_map.mpr fun counter _ => isLine_line counter (counts counter)
  rw [jailReport, countsText, printed, lines_flatMap hLines]
  simp only [Counter.all, List.map_cons, List.map_nil, List.foldl_cons, List.foldl_nil, applyLine_line]
  cases counter <;> rfl

/-- There are totals of what the reports give just when every sum is a word. Then each total is the exact
sum, and no jail has more than the total. There are reports for all values that counters can have, so both
cases arise. -/
theorem totals_sumReported (reports : List (List Char × List Char)) :
    ((∃ totals, Totals.ofJails? (reported reports) = some totals) ↔
      bannedSum (reported reports) < 2 ^ 64 ∧
        ∀ counter : Counter, counter.sum (reported reports) < 2 ^ 64) ∧
    (∀ totals, Totals.ofJails? (reported reports) = some totals → ∀ counter : Counter,
      (counter.ofTotals totals).toNat = counter.sum (reported reports) ∧
        ∀ jail ∈ reported reports, counter.ofJail jail ≤ counter.ofTotals totals) ∧
    ∀ rows : List (List Char × (Counter → UInt64)), ∃ others : List (List Char × List Char),
      (reported others).map (fun jail => (jail.name, fun counter : Counter => counter.ofJail jail)) =
        rows := by
  refine ⟨exists_ofJails?_iff, fun totals hTotals counter => ?_, fun rows => ?_⟩
  · have hSum := ofJails?_eq_some_iff.mp hTotals
    exact ⟨hSum.toNat_ofTotals counter, fun jail => hSum.ofJail_le counter⟩
  · refine ⟨rows.map fun row => (row.1, countsText row.2), ?_⟩
    rw [reported, List.map_map, List.map_map]
    refine (List.map_congr_left fun row _ => ?_).trans (List.map_id rows)
    exact Prod.ext (name_jailReport row.1 _)
      (funext fun counter => jailReport_countsText row.1 row.2 counter)

/-- Two jails fill a word to its last number, and a third has no such counter in its report. -/
theorem totals_sumReported_lastWord :
    let reports := [("sshd".toList, "|- Total failed:\t18446744073709551614\n".toList),
      ("postfix".toList, "|- Currently failed:\t7\n|- Total failed:\t1\n".toList),
      ("dovecot".toList, "   total banned: 1 of many\n".toList)]
    ∃ totals, Totals.ofJails? (reported reports) = some totals ∧
      totals.totalFailed.toNat = 2 ^ 64 - 1 ∧ totals.totalBanned = 1 ∧
      ∃ jail ∈ reported reports, jail.name = "sshd".toList ∧ jail.totalFailed ≤ totals.totalFailed := by
  intro reports
  have hFits : bannedSum (reported reports) < 2 ^ 64 ∧
      ∀ counter : Counter, counter.sum (reported reports) < 2 ^ 64 :=
    ⟨by decide, fun counter => by cases counter <;> decide⟩
  obtain ⟨hExists, hExact, -⟩ := totals_sumReported reports
  obtain ⟨totals, hTotals⟩ := hExists.mpr hFits
  obtain ⟨hFailed, hParts⟩ := hExact totals hTotals .totalFailed
  obtain ⟨hBanned, -⟩ := hExact totals hTotals .totalBanned
  have hSum : Counter.sum .totalFailed (reported reports) = 2 ^ 64 - 1 := by decide
  have hOne : Counter.sum .totalBanned (reported reports) = 1 := by decide
  exact ⟨totals, hTotals, hFailed.trans hSum, UInt64.toNat_inj.mp (hBanned.trans hOne), _,
    List.mem_cons_self, name_jailReport _ _, hParts _ List.mem_cons_self⟩

/-- One ban more than a word can count, and there are no totals, although each report gives a word. -/
theorem totals_overflow :
    let reports := [("sshd".toList, "   |- Total banned:\t18446744073709551615\n".toList),
      ("postfix".toList, "   |- Total banned:\t1\n".toList)]
    (reported reports).map Jail.totalBanned = [18446744073709551615, 1] ∧
    Counter.sum .totalBanned (reported reports) = 2 ^ 64 ∧
    Totals.ofJails? (reported reports) = none := by
  decide

end BanBoard.Overview
