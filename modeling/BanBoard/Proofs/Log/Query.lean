import BanBoard.Proofs.Log.Damage
import BanBoard.Proofs.Log.ReadBack

/-!
Answers from entries in any order. Entries may share numbers and times, and a file that others wrote to
need not be in order. A query sorts the entries that it selects, keeps the order of the file where
numbers and times agree, and leaves out only entries from the beginning of that order.
-/

namespace BanBoard.Log

open BanBoard.Text
open scoped List

/-- Whether only the places in the file tell which of two entries comes first. -/
def Entry.Ties (a b : Entry) : Prop := a.timestamp = b.timestamp ∧ a.id = b.id

instance (a : Entry) : DecidablePred a.Ties := fun b =>
  inferInstanceAs (Decidable (a.timestamp = b.timestamp ∧ a.id = b.id))

namespace Query

/-- An answer of no more entries than a limit allows, made from entries in the order of their file. The
entries that are left out and those in the answer are together what there was, so no entry is in the
answer more often than that. -/
structure IsWindow (limit : Option Nat) (entries answer : List Entry) : Prop where
  length_eq : answer.length = limit.elim entries.length (min entries.length)
  sorted : answer.Pairwise Entry.Precedes
  stable : ∀ entry : Entry, answer.filter (entry.Ties ·) <:+ entries.filter (entry.Ties ·)
  leftOut : ∃ leftOut, (leftOut ++ answer).Perm entries ∧
    ∀ early ∈ leftOut, ∀ late ∈ answer, early.Precedes late

/-- Entries that tie with one entry tie with each other. -/
theorem entryLe_of_ties (entry : Entry) {a b : Entry} (ha : entry.Ties a) (hb : entry.Ties b) :
    entryLe a b = true := by
  have hTime : a.timestamp = b.timestamp := ha.1.symm.trans hb.1
  have hId : a.id = b.id := ha.2.symm.trans hb.2
  exact entryLe_iff.mpr ⟨hTime ▸ Time.Instant.le_refl _, fun _ => hId ▸ UInt64.le_refl _⟩

/-- Sorting moves no entry past one that it ties with. -/
theorem filter_ties_mergeSort (entries : List Entry) (entry : Entry) :
    (entries.mergeSort entryLe).filter (entry.Ties ·) = entries.filter (entry.Ties ·) := by
  have hOrdered : (entries.filter (entry.Ties ·)).Pairwise fun a b => entryLe a b = true := by
    refine List.pairwise_of_forall_mem_list fun a ha b hb => entryLe_of_ties entry ?_ ?_
    · exact of_decide_eq_true (List.mem_filter.mp ha).2
    · exact of_decide_eq_true (List.mem_filter.mp hb).2
  have hKept : entries.filter (entry.Ties ·) <+ entries.mergeSort entryLe :=
    List.sublist_mergeSort entryLe_trans entryLe_total hOrdered List.filter_sublist
  have hTied : entries.filter (entry.Ties ·) <+ (entries.mergeSort entryLe).filter (entry.Ties ·) := by
    simpa only [List.filter_filter, Bool.and_self] using hKept.filter (entry.Ties ·)
  have hLength := ((List.mergeSort_perm entries entryLe).filter (entry.Ties ·)).length_eq
  exact (hTied.eq_of_length hLength.symm).symm

/-- The newest of the sorted entries. -/
theorem isWindow_newest (limit : Option Nat) (entries : List Entry) :
    IsWindow limit entries (newest limit (entries.mergeSort entryLe)) := by
  have hPerm := List.mergeSort_perm entries entryLe
  have hSorted := pairwise_mergeSort entries
  have hTies := filter_ties_mergeSort entries
  generalize entries.mergeSort entryLe = sorted at hPerm hSorted hTies
  obtain ⟨⟨leftOut, hSplit⟩, hLength⟩ := isNewest_newest limit sorted
  rw [hPerm.length_eq] at hLength
  generalize newest limit sorted = answer at hSplit hLength
  subst hSplit
  obtain ⟨-, hAnswer, hLeftOut⟩ := List.pairwise_append.mp hSorted
  exact ⟨hLength, hAnswer, fun entry => hTies entry ▸ (List.suffix_append _ _).filter _,
    leftOut, hPerm, hLeftOut⟩

/-- The entries that a query selects on the lines of a text, in their order. A line that is no entry
holds none. -/
def selectedOn (query : Query) (text : List Char) : List Entry :=
  ((text.splitOn '\n').filterMap Entry.decode?).filter fun entry => query.Selects entry

/-- The answer is the window of the question on the entries of the text. -/
theorem isWindow_answer (query : Query) (text : List Char) :
    IsWindow query.limit (query.selectedOn text) (query.answer (entriesOf text)) := by
  rw [answer, filter_admits, entriesOf_eq]
  exact isWindow_newest _ _

end Query

theorem Store.query_file (store : Store) (text : List Char) (query : Query) :
    store.query (.file (encodeUtf8 text)) query = .ok (query.answer (entriesOf text)) := by
  rw [Store.query, text_file_eq_ok_iff.mpr rfl]

end BanBoard.Log
