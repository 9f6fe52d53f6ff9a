import BanBoard.Proofs.Jail.Reached
import BanBoard.Proofs.Status.JailList
import BanBoard.Proofs.Status.WrappedList
import Mathlib.Data.List.Induction

/-!
Where the addresses of a jail come from. Whatever a report says, an address is read only from a list of
bans: from the line with its label or from a line over which it goes on. The addresses are those among
the words of all such lists, in the order in which they come first.
-/

namespace BanBoard.Status

open BanBoard.Net
open BanBoard.Text

/-- Whether a list of bans can go on behind some lines. Those at the end of them that start with an address
follow a line with the label of such a list. -/
def InList (before : List (List Char)) : Prop :=
  ∃ front heading value run, before = front ++ heading :: run ∧
    HasLabel (Field.label .banList) heading value ∧ ∀ line ∈ run, StartsAddress line

/-- The part of a list of bans that a line holds, with some lines before it: what stands behind the first
colon where the label of the list is, and what stands behind the tree where a list goes on. -/
inductive IsListPart (before : List (List Char)) (line : List Char) : (part : List Char) → Prop
  | heading {value : List Char} (hLabel : HasLabel (Field.label .banList) line value) :
      IsListPart before line value
  | further (hBefore : InList before) (hStarts : StartsAddress line) :
      IsListPart before line (stripTree line)

/-- The words in all lists of bans among some lines, in order. -/
inductive ListsWords : (lines : List (List Char)) → (listed : List (List Char)) → Prop
  | nil : ListsWords [] []
  | part {before listed : List (List Char)} {line part : List Char} (hBefore : ListsWords before listed)
      (hPart : IsListPart before line part) : ListsWords (before ++ [line]) (listed ++ words part)
  | other {before listed : List (List Char)} {line : List Char} (hBefore : ListsWords before listed)
      (hOther : ∀ part, ¬IsListPart before line part) : ListsWords (before ++ [line]) listed

/-- A list goes on behind its label as long as lines begin with an address. -/
theorem inList_concat_iff {before : List (List Char)} {line : List Char} :
    InList (before ++ [line]) ↔
      (∃ value, HasLabel (Field.label .banList) line value) ∨ (InList before ∧ StartsAddress line) := by
  constructor
  · rintro ⟨front, heading, value, run, hLines, hLabel, hRun⟩
    rcases List.eq_nil_or_concat run with rfl | ⟨run, last, rfl⟩
    · obtain ⟨-, hLast⟩ := List.append_inj' hLines rfl
      exact .inl ⟨value, List.singleton_inj.mp hLast ▸ hLabel⟩
    · rw [List.concat_eq_append, ← List.cons_append, ← List.append_assoc] at hLines
      obtain ⟨rfl, hLast⟩ := List.append_inj' hLines rfl
      obtain rfl := List.singleton_inj.mp hLast
      rw [List.concat_eq_append, List.forall_mem_append, List.forall_mem_singleton] at hRun
      exact .inr ⟨⟨front, heading, value, run, rfl, hLabel, hRun.1⟩, hRun.2⟩
  · rintro (⟨value, hLabel⟩ | ⟨⟨front, heading, value, run, rfl, hLabel, hRun⟩, hStarts⟩)
    · exact ⟨before, line, value, [], rfl, hLabel, List.forall_mem_nil _⟩
    · refine ⟨front, heading, value, run ++ [line], by simp, hLabel, ?_⟩
      exact List.forall_mem_append.mpr ⟨hRun, List.forall_mem_singleton.mpr hStarts⟩

/-- Every word that is listed stands in a part of a list. -/
theorem ListsWords.exists_part {all listed : List (List Char)} (h : ListsWords all listed) :
    ∀ word ∈ listed, ∃ before line behind part, all = before ++ line :: behind ∧
      IsListPart before line part ∧ HasWord word part := by
  induction h with
  | nil => exact List.forall_mem_nil _
  | @part before listed line part _ hPart ih =>
      refine List.forall_mem_append.mpr ⟨fun word hMem => ?_, fun word hMem => ?_⟩
      · obtain ⟨front, other, behind, found, rfl, hFound, hWord⟩ := ih word hMem
        exact ⟨front, other, behind ++ [line], found, by simp, hFound, hWord⟩
      · exact ⟨before, line, [], part, rfl, hPart, mem_words_iff.mp hMem⟩
  | @other before listed line _ _ ih =>
      intro word hMem
      obtain ⟨front, other, behind, found, rfl, hFound, hWord⟩ := ih word hMem
      exact ⟨front, other, behind ++ [line], found, by simp, hFound, hWord⟩

/-- What has been read of some lines: the addresses among the words of all lists, each once. -/
structure HasRead (name : List Char) (before : List (List Char)) (state : Jail × Bool) : Prop where
  inList_iff : state.2 = true ↔ InList before
  name_eq : state.1.name = name
  banned_eq : ∃ listed, ListsWords before listed ∧ state.1.banned =
    (listed.filter isAddressToken).eraseDups.map fun ip => .listed ip name

variable {name : List Char} {before : List (List Char)} {jail : Jail} {inList : Bool} {line : List Char}

theorem ips_of_listed {ips : List (List Char)} (h : jail.banned = ips.map fun ip => .listed ip name) :
    jail.ips = ips := by
  simp [Jail.ips, h, BannedAddress.listed, Function.comp_def]

/-- A part of a list adds the addresses in it that are new. -/
theorem HasRead.addAddresses (h : HasRead name before (jail, inList)) {part : List Char}
    (hPart : IsListPart before line part) (hGoesOn : InList (before ++ [line])) :
    HasRead name (before ++ [line]) (addAddresses jail part, true) := by
  obtain ⟨-, rfl, listed, hListed, hBanned⟩ := h
  refine ⟨iff_of_true rfl hGoesOn, name_addAddresses jail part, _, .part hListed hPart, ?_⟩
  have hOld : jail.ips = (listed.filter isAddressToken).eraseDups := ips_of_listed hBanned
  have hNew : ((words part).filter isAddressToken).removeAll (listed.filter isAddressToken) =
      ((words part).filter isAddressToken).filter (· ∉ jail.ips) := by
    refine List.filter_congr fun ip _ => ?_
    simp [hOld]
  have hAdded : Status.addAddresses jail part =
      ((words part).filter isAddressToken).foldl Jail.addListed jail := rfl
  rw [hAdded, Jail.foldl_addListed, Jail.withBanned_banned, List.filter_append, List.eraseDups_append,
    List.map_append, ← hBanned, hNew]

/-- One line more adds only addresses that stand on it. -/
theorem HasRead.applyLine (h : HasRead name before (jail, inList)) (line : List Char) :
    HasRead name (before ++ [line]) (applyLine (jail, inList) line) := by
  rcases applyLine_cases jail inList line with ⟨hBanned, hEnds⟩ | ⟨value, hLabel, hAdded⟩ |
    ⟨hInside, hStarts, hAdded⟩
  · -- The state says that no list is going on, so this line was a part of none.
    have hOther : ¬InList (before ++ [line]) := by
      rw [inList_concat_iff]
      rintro (⟨value, hLabel⟩ | ⟨hBefore, hStarts⟩)
      · simp [applyLine_banList hLabel] at hEnds
      · obtain rfl : inList = true := h.inList_iff.mpr hBefore
        obtain ⟨hBranch, hStart⟩ := (startsWithAddress_iff line).mpr hStarts
        simp [applyLine_goesOn hBranch hStart] at hEnds
    have hNone : ∀ part, ¬IsListPart before line part := by
      rintro part (hLabel | ⟨hBefore, hStarts⟩)
      · exact hOther (inList_concat_iff.mpr (.inl ⟨part, hLabel⟩))
      · exact hOther (inList_concat_iff.mpr (.inr ⟨hBefore, hStarts⟩))
    obtain ⟨listed, hListed, hOld⟩ := h.banned_eq
    exact ⟨iff_of_false (by simp [hEnds]) hOther, (name_applyLine _ line).trans h.name_eq, listed,
      .other hListed hNone, hBanned.trans hOld⟩
  · rw [hAdded]
    exact h.addAddresses (.heading hLabel) (inList_concat_iff.mpr (.inl ⟨value, hLabel⟩))
  · rw [hAdded]
    have hBefore := h.inList_iff.mp hInside
    exact h.addAddresses (.further hBefore hStarts) (inList_concat_iff.mpr (.inr ⟨hBefore, hStarts⟩))

/-- Whatever lines are read, the jail has the addresses of their lists. -/
theorem hasRead_foldl (name : List Char) (all : List (List Char)) :
    HasRead name all (all.foldl applyLine (Jail.empty name, false)) := by
  induction all using List.reverseRecOn with
  | nil =>
      refine ⟨iff_of_false Bool.noConfusion ?_, rfl, [], .nil, rfl⟩
      rintro ⟨front, heading, value, run, hNone, -⟩
      simp at hNone
  | append_singleton before line ih =>
      rw [List.foldl_concat]
      exact ih.applyLine line

theorem isReached_addAddresses (h : jail.IsReached) (text : List Char) :
    (addAddresses jail text).IsReached :=
  List.foldlRecOn (motive := Jail.IsReached) _ _ h fun current hCurrent word _ =>
    hCurrent.change (.add (.listed word current.name))

/-- Every field leads from a reachable jail to one. -/
theorem isReached_applyField (h : jail.IsReached) (label value : List Char) :
    (applyField jail label value).1.IsReached := by
  unfold applyField
  split
  · exact h.report _ _ _
  split
  · exact h.report _ _ _
  split
  · exact h.report _ _ _
  split
  · exact h.change (.setFiles _)
  split
  · exact isReached_addAddresses h value
  · exact h

theorem isReached_applyLine {state : Jail × Bool} (h : state.1.IsReached) (line : List Char) :
    (applyLine state line).1.IsReached := by
  obtain ⟨jail, inList⟩ := state
  simp only [applyLine]
  split
  · exact h
  split
  · exact isReached_addAddresses h _
  split
  · exact h
  · exact isReached_applyField h _ _

/-- Reading a report does nothing to a jail that cannot be done to it. -/
theorem isReached_jailReport (name text : List Char) : (jailReport name text).IsReached :=
  List.foldlRecOn (motive := fun state : Jail × Bool => state.1.IsReached) _ _ (.empty name)
    fun _ hState line _ => isReached_applyLine hState line

/-- Reading a report invents nothing. Every address of the jail is one, and it stands as a word in a part
of a list of bans. The addresses are all different and come in the order in which the lists have them
first, each belongs to the jail and is known without a time and a country, and their number is the count
of the jail. In the same way every jail in an overview has a jail name, which stands on the first line
with the label of a list of jails. -/
theorem jailReport_inventsNothing (name text : List Char) :
    let jail := jailReport name text
    (∀ ip ∈ jail.ips, isAddressToken ip = true ∧ ∃ before line behind part,
      lines text = before ++ line :: behind ∧ IsListPart before line part ∧ HasWord ip part) ∧
    jail.ips.Nodup ∧
    (∃ listed, ListsWords (lines text) listed ∧ jail.ips = (listed.filter isAddressToken).eraseDups) ∧
    (∀ entry ∈ jail.banned, entry.jail = name ∧ entry.bannedAt = none ∧ entry.country = none) ∧
    jail.currentlyBanned = jail.ips.length ∧
    ∀ listed ∈ jailList text, isJailName listed = true ∧ ∃ before line behind value,
      lines text = before ++ line :: behind ∧
      (∀ other ∈ before, ∀ value, ¬HasLabel "jail list".toList other value) ∧
      HasLabel "jail list".toList line value ∧ HasItem isNameSeparator listed value := by
  intro jail
  obtain ⟨-, -, listed, hListed, hBanned⟩ := hasRead_foldl name (lines text)
  have hJail : jail.banned = (listed.filter isAddressToken).eraseDups.map fun ip => .listed ip name :=
    hBanned
  have hIps : jail.ips = (listed.filter isAddressToken).eraseDups := ips_of_listed hJail
  refine ⟨?_, (isReached_jailReport name text).nodup_ips, ⟨listed, hListed, hIps⟩, ?_,
    (Jail.length_ips jail).symm, fun _ hMem => exists_of_mem_jailList hMem⟩
  · intro ip hMem
    rw [hIps, List.mem_eraseDups, List.mem_filter] at hMem
    exact ⟨hMem.2, hListed.exists_part ip hMem.1⟩
  · rw [hJail]
    exact List.forall_mem_map.mpr fun ip _ => ⟨rfl, rfl, rfl⟩

end BanBoard.Status
