import BanBoard.Proofs.Status.Layout
import Mathlib.Data.List.TakeWhile

/-!
Lists of bans that go on over further lines. These lines have no label, so one is taken for a part of the
list only if it starts with an address. Words that are no addresses are skipped anywhere else, but one at
the beginning of such a line ends the list, and the addresses from there on are not found.
-/

namespace BanBoard.Status

open BanBoard.Net
open BanBoard.Text

/-- Whether an address comes first on a line, behind a plain part of the tree. -/
def StartsAddress (line : List Char) : Prop :=
  ∃ item items, isAddressToken item = true ∧ StartsWith item items line

instance : DecidablePred StartsAddress := fun line => decidable_of_iff _ (startsWithAddress_iff line)

/-- Whether a line has no label: it is not blank, no branch is drawn in front of it, and it starts with
an address or has no colon. -/
structure IsUnlabelled (line : List Char) : Prop where
  notBlank : isBlankText line = false
  isPlain : IsPlain (line.takeWhile isTreeChar)
  noLabel : StartsAddress line ∨ ':' ∉ line

instance : DecidablePred IsUnlabelled := fun line =>
  decidable_of_iff (isBlankText line = false ∧ hasBranch (line.takeWhile isTreeChar) = false ∧
      (StartsAddress line ∨ ':' ∉ line))
    ⟨fun ⟨notBlank, isPlain, noLabel⟩ => ⟨notBlank, (hasBranch_eq_false_iff _).mp isPlain, noLabel⟩,
      fun ⟨notBlank, isPlain, noLabel⟩ => ⟨notBlank, (hasBranch_eq_false_iff _).mpr isPlain, noLabel⟩⟩

/-- Of the lines behind a list of bans those over which the list goes on. -/
def wrappedLines (behind : List (List Char)) : List (List Char) :=
  behind.takeWhile (IsUnlabelled ·)

/-- Of the lines over which a list of bans goes on those that are read, up to the first one that starts
with no address. -/
def readLines (behind : List (List Char)) : List (List Char) :=
  (wrappedLines behind).takeWhile (StartsAddress ·)

/-- Whether a word stands on a line, with or without the tree in front of it. -/
def Shows (line word : List Char) : Prop := HasWord word line ∨ HasWord word (stripTree line)

/-- A word of a line is a word without the tree too. -/
theorem mem_words_stripTree {line ip : List Char} (hIp : isAddressToken ip = true)
    (h : Shows line ip) : ip ∈ words (stripTree line) := by
  rcases h with hLine | hStrip
  · have hStops : StopsBefore isTreeChar ip := fun c hHead =>
      isTreeChar_of_isTokenChar (isTokenChar_of_mem hIp (List.mem_of_mem_head? hHead))
    rw [stripTree, words_trimEnd, mem_words_iff]
    exact hLine.dropWhile hStops
  · exact mem_words_iff.mpr hStrip

/-- What is added are the words that are addresses. -/
theorem mem_ips_addAddresses {jail : Jail} {text ip : List Char} :
    ip ∈ (addAddresses jail text).ips ↔
      ip ∈ jail.ips ∨ (ip ∈ words text ∧ isAddressToken ip = true) := by
  rw [← List.mem_filter, ← Jail.mem_ips_foldl_addListed]
  rfl

/-- A line that begins with an address has no label. -/
theorem StartsAddress.isUnlabelled {line : List Char} (h : StartsAddress line) : IsUnlabelled line := by
  obtain ⟨hBranch, -⟩ := (startsWithAddress_iff line).mpr h
  refine ⟨?_, (hasBranch_eq_false_iff _).mp hBranch, .inl h⟩
  obtain ⟨item, items, hItem, tree, rest, -, -, -, -, rfl⟩ := h
  obtain ⟨hSome, hPlain⟩ := isWord_of_isAddressToken hItem
  obtain ⟨c, hMem⟩ := List.exists_mem_of_ne_nil item hSome
  refine Bool.eq_false_iff.mpr fun hBlank => ?_
  have hChar : isBlank c = true := List.all_eq_true.mp hBlank c (by simp [hMem])
  simp [hPlain c hMem] at hChar

/-- Every line that is read is one over which the list goes on. -/
theorem readLines_eq (behind : List (List Char)) :
    readLines behind = behind.takeWhile (StartsAddress ·) := by
  rw [readLines, wrappedLines, List.takeWhile_takeWhile]
  congr 1
  funext line
  have hBoth : StartsAddress line ∧ IsUnlabelled line ↔ StartsAddress line :=
    and_iff_left_of_imp StartsAddress.isUnlabelled
  simpa using hBoth

/-- A line without a label does nothing outside of a list. -/
theorem applyLine_unlabelled {line : List Char} (h : IsUnlabelled line) (jail : Jail) :
    applyLine (jail, false) line = (jail, false) := by
  refine applyLine_unknown (fun field hFound => ?_) jail
  obtain ⟨⟨label, rest⟩, hLabelled, rfl⟩ := Option.map_eq_some_iff.mp hFound
  obtain ⟨value, hLine⟩ := hasLabel_of_labelled? hLabelled
  rcases h.noLabel with hStarts | hColon
  · have hNo := startsWithAddress_hasLabel field.isHeading hLine
    simp [((startsWithAddress_iff line).mpr hStarts).2] at hNo
  · obtain ⟨tree, spelled, gap, -, -, -, rfl⟩ := hLine
    simp at hColon

/-- A line that does not begin with an address is read as if no list were open. -/
theorem applyLine_of_not_startsAddress {line : List Char} (h : ¬StartsAddress line) (jail : Jail)
    (inList : Bool) : applyLine (jail, inList) line = applyLine (jail, false) line := by
  refine applyLine_outside ?_ jail inList
  rw [StartsAddress, ← startsWithAddress_iff, not_and, Bool.not_eq_true] at h
  cases hBranch : isBranch line with
  | true => exact .inl rfl
  | false => exact .inr (h hBranch)

/-- A line leaves the list alone, or it has the label of a list, or a list goes on with it. -/
theorem applyLine_cases (jail : Jail) (inList : Bool) (line : List Char) :
    ((applyLine (jail, inList) line).1.banned = jail.banned ∧
        (applyLine (jail, inList) line).2 = false) ∨
    (∃ value, HasLabel (Field.label .banList) line value ∧
        applyLine (jail, inList) line = (addAddresses jail value, true)) ∨
    (inList = true ∧ StartsAddress line ∧
        applyLine (jail, inList) line = (addAddresses jail (stripTree line), true)) := by
  by_cases hHeading : ∃ value, HasLabel (Field.label .banList) line value
  · obtain ⟨value, hLine⟩ := hHeading
    exact .inr (.inl ⟨value, hLine, applyLine_banList hLine _⟩)
  by_cases hGoesOn : inList = true ∧ StartsAddress line
  · obtain ⟨rfl, hStarts⟩ := hGoesOn
    obtain ⟨hBranch, hStart⟩ := (startsWithAddress_iff line).mpr hStarts
    exact .inr (.inr ⟨rfl, hStarts, applyLine_goesOn hBranch hStart jail⟩)
  · have hOutside : applyLine (jail, inList) line = applyLine (jail, false) line := by
      cases inList with
      | false => rfl
      | true => exact applyLine_of_not_startsAddress (fun hStarts => hGoesOn ⟨rfl, hStarts⟩) jail true
    left
    rw [hOutside]
    simp only [applyLine, Bool.false_and, Bool.false_eq_true, if_false]
    split
    · exact ⟨rfl, rfl⟩
    · cases hLabelled : labelled? line with
      | none => exact ⟨rfl, rfl⟩
      | some found =>
          refine banned_applyField (fun hLabel => hHeading ?_) jail found.2
          have hList : found.1 = Field.label .banList := hLabel
          exact hList ▸ hasLabel_of_labelled? hLabelled

/-- What a line adds to the list are addresses, and it takes none away. -/
theorem ips_applyLine (state : Jail × Bool) (line : List Char) :
    ∃ added : List (List Char), (∀ ip ∈ added, isAddressToken ip = true) ∧
      ∀ ip, ip ∈ (applyLine state line).1.ips ↔ ip ∈ state.1.ips ∨ ip ∈ added := by
  obtain ⟨jail, inList⟩ := state
  have hAdds (text : List Char) : ∃ added : List (List Char), (∀ ip ∈ added, isAddressToken ip = true) ∧
      ∀ ip, ip ∈ (addAddresses jail text).ips ↔ ip ∈ jail.ips ∨ ip ∈ added :=
    ⟨(words text).filter isAddressToken, fun _ hMem => (List.mem_filter.mp hMem).2, fun _ => by
      rw [mem_ips_addAddresses, List.mem_filter]⟩
  rcases applyLine_cases jail inList line with ⟨hSame, -⟩ | ⟨value, -, hAdded⟩ | ⟨-, -, hAdded⟩
  · exact ⟨[], List.forall_mem_nil _, fun ip => by simp [Jail.ips, hSame]⟩
  · exact hAdded ▸ hAdds value
  · exact hAdded ▸ hAdds (stripTree line)

theorem ips_subset_foldl (lines : List (List Char)) (state : Jail × Bool) :
    state.1.ips ⊆ (lines.foldl applyLine state).1.ips := by
  induction lines generalizing state with
  | nil => exact List.Subset.refl _
  | cons line lines ih =>
      obtain ⟨added, -, hIps⟩ := ips_applyLine state line
      exact fun ip hMem => ih _ ((hIps ip).mpr (.inl hMem))

theorem isAddressToken_of_mem_foldl (lines : List (List Char)) {state : Jail × Bool}
    (h : ∀ ip ∈ state.1.ips, isAddressToken ip = true) :
    ∀ ip ∈ (lines.foldl applyLine state).1.ips, isAddressToken ip = true := by
  induction lines generalizing state with
  | nil => exact h
  | cons line lines ih =>
      obtain ⟨added, hAdded, hIps⟩ := ips_applyLine state line
      exact ih fun ip hMem => ((hIps ip).mp hMem).elim (h ip) (hAdded ip)

/-- A list that goes on over lines which all start with an address is read to its end. -/
theorem foldl_startsAddress {lines : List (List Char)} (h : ∀ line ∈ lines, StartsAddress line)
    (jail : Jail) :
    ∃ filled, lines.foldl applyLine (jail, true) = (filled, true) ∧ jail.ips ⊆ filled.ips ∧
      ∀ line ∈ lines, ∀ ip, isAddressToken ip = true → Shows line ip → ip ∈ filled.ips := by
  induction lines generalizing jail with
  | nil => exact ⟨jail, rfl, List.Subset.refl _, List.forall_mem_nil _⟩
  | cons line lines ih =>
      obtain ⟨hLine, hLines⟩ := List.forall_mem_cons.mp h
      obtain ⟨hBranch, hStart⟩ := (startsWithAddress_iff line).mpr hLine
      obtain ⟨filled, hFold, hKept, hAll⟩ := ih hLines (addAddresses jail (stripTree line))
      refine ⟨filled, ?_, fun ip hMem => hKept (mem_ips_addAddresses.mpr (.inl hMem)), ?_⟩
      · rw [List.foldl_cons, applyLine_goesOn hBranch hStart, hFold]
      · refine List.forall_mem_cons.mpr ⟨fun ip hIp hShows => hKept ?_, hAll⟩
        exact mem_ips_addAddresses.mpr (.inr ⟨mem_words_stripTree hIp hShows, hIp⟩)

/-- Whether lines stand behind a list does not matter when the first of them does not go on with it. -/
theorem foldl_of_not_startsAddress {lines : List (List Char)}
    (h : ∀ line ∈ lines.head?, ¬StartsAddress line) (jail : Jail) :
    (lines.foldl applyLine (jail, true)).1 = (lines.foldl applyLine (jail, false)).1 := by
  cases lines with
  | nil => rfl
  | cons line lines =>
      rw [List.foldl_cons, applyLine_of_not_startsAddress (h line rfl), List.foldl_cons]

/-- Lines without a label do nothing outside of a list, also those that start with an address. -/
theorem foldl_dropWhile_unlabelled (lines : List (List Char)) (jail : Jail) :
    (lines.dropWhile (IsUnlabelled ·)).foldl applyLine (jail, false) =
      lines.foldl applyLine (jail, false) := by
  induction lines with
  | nil => rfl
  | cons line lines ih =>
      by_cases hLine : IsUnlabelled line
      · rw [List.dropWhile_cons_of_pos (by simpa using hLine), ih, List.foldl_cons,
          applyLine_unlabelled hLine]
      · rw [List.dropWhile_cons_of_neg (by simpa using hLine)]

theorem not_of_mem_head?_dropWhile {P : List Char → Prop} [DecidablePred P]
    {lines : List (List Char)} {line : List Char} (h : line ∈ (lines.dropWhile (P ·)).head?) :
    ¬P line := by
  have hFirst := List.head?_dropWhile_not (P ·) lines
  rw [Option.mem_def.mp h] at hFirst
  exact of_decide_eq_false hFirst

/-- The list ends with a line that starts with no address, and the lines without a label behind that one
are lost. -/
theorem foldl_lost {lines : List (List Char)} (h : ∀ line ∈ lines.head?, ¬StartsAddress line)
    (jail : Jail) :
    ((lines.dropWhile (IsUnlabelled ·)).foldl applyLine (jail, true)).1 =
      (lines.foldl applyLine (jail, true)).1 := by
  have hBehind : ∀ line ∈ (lines.dropWhile (IsUnlabelled ·)).head?, ¬StartsAddress line :=
    fun line hLine hStarts => not_of_mem_head?_dropWhile hLine hStarts.isUnlabelled
  rw [foldl_of_not_startsAddress hBehind, foldl_dropWhile_unlabelled, foldl_of_not_startsAddress h]

/-- In a list of bans that goes on over further lines, every address is found on the line with the label
and on the lines up to the first one that starts with no address, and nothing but addresses is found. From
there on the lines without a label count for nothing, as if they were not in the text. So a list is read
completely when each of its lines starts with an address. -/
theorem jailReport_wrappedList (name : List Char) {text : List Char} {before behind : List (List Char)}
    {heading value : List Char} (hLines : lines text = before ++ heading :: behind)
    (hHeading : HasLabel (Field.label .banList) heading value) :
    (∀ ip, isAddressToken ip = true →
      HasWord ip value ∨ (∃ line ∈ readLines behind, Shows line ip) →
        ip ∈ (jailReport name text).ips) ∧
    (∀ ip ∈ (jailReport name text).ips, isAddressToken ip = true) ∧
    ∀ other, lines other =
        before ++ heading :: (readLines behind ++ behind.dropWhile (IsUnlabelled ·)) →
      jailReport name other = jailReport name text := by
  let rest := behind.dropWhile (StartsAddress ·)
  have hBehind : readLines behind ++ rest = behind := by
    rw [readLines_eq, List.takeWhile_append_dropWhile]
  have hStarts : ∀ line ∈ readLines behind, StartsAddress line := fun line hLine =>
    of_decide_eq_true (List.mem_takeWhile_imp (p := (StartsAddress ·)) hLine)
  have hAfter : (readLines behind ++ rest).dropWhile (IsUnlabelled ·) =
      rest.dropWhile (IsUnlabelled ·) :=
    List.dropWhile_append_of_pos fun line hLine => decide_eq_true (hStarts line hLine).isUnlabelled
  rw [hBehind] at hAfter
  -- What is read of the list fills the jail in the same way, whatever lines follow.
  obtain ⟨jail, hBefore⟩ : ∃ jail : Jail,
      before.foldl applyLine (Jail.empty name, false) = (jail, _) := ⟨_, rfl⟩
  obtain ⟨filled, hFilled, hKept, hAll⟩ := foldl_startsAddress hStarts (addAddresses jail value)
  have hReport {printed : List Char} {more : List (List Char)}
      (h : lines printed = before ++ heading :: (readLines behind ++ more)) :
      jailReport name printed = (more.foldl applyLine (filled, true)).1 := by
    rw [jailReport, h, List.foldl_append, List.foldl_cons, hBefore, applyLine_banList hHeading,
      List.foldl_append, hFilled]
  have hText := hReport (hBehind ▸ hLines)
  refine ⟨?_, ?_, ?_⟩
  · intro ip hIp hFound
    rw [hText]
    refine ips_subset_foldl rest _ ?_
    rcases hFound with hValue | ⟨line, hLine, hShows⟩
    · exact hKept (mem_ips_addAddresses.mpr (.inr ⟨mem_words_iff.mpr hValue, hIp⟩))
    · exact hAll line hLine ip hIp hShows
  · exact isAddressToken_of_mem_foldl _ (List.forall_mem_nil _)
  · intro other hOther
    rw [hText, hReport hOther, hAfter]
    exact foldl_lost (fun line => not_of_mem_head?_dropWhile) filled

/-- A list goes on over two lines, up to the next label. Words that are no addresses stand on each of its
lines, even first on the one with the label. -/
theorem jailReport_wrappedList_otherWords :
    let heading := "\x60- Banned IP list:\t??? 192.0.2.1".toList
    let first := "   2001:db8::1 not-an-ip 192.0.2.2".toList
    let second := "   192.0.2.3 -".toList
    let behind := [first, second, "|- Total failed:\t4".toList]
    let text := (heading :: behind).flatMap (· ++ ['\n'])
    HasLabel (Field.label .banList) heading "\t??? 192.0.2.1".toList ∧
    wrappedLines behind = [first, second] ∧ readLines behind = [first, second] ∧
    ∀ ip ∈ ["192.0.2.1".toList, "2001:db8::1".toList, "192.0.2.2".toList, "192.0.2.3".toList],
      ip ∈ (jailReport "sshd".toList text).ips := by
  intro heading first second behind text
  have hHeading : HasLabel (Field.label .banList) heading "\t??? 192.0.2.1".toList :=
    ⟨"\x60- ".toList, "Banned IP list".toList, [], List.all_eq_true.mp rfl, rfl, rfl, rfl⟩
  have hLines : lines text = [] ++ heading :: behind := lines_flatMap (by decide)
  have hRead : readLines behind = [first, second] := by decide
  have hShows {line ip : List Char} (h : ip ∈ words line) : Shows line ip := .inl (mem_words_iff.mp h)
  obtain ⟨hAll, -, -⟩ := jailReport_wrappedList "sshd".toList hLines hHeading
  refine ⟨hHeading, by decide, hRead, ?_⟩
  rw [hRead] at hAll
  simp only [List.forall_mem_cons]
  refine ⟨?_, ?_, ?_, ?_, List.forall_mem_nil _⟩
  · exact hAll _ (by decide) (.inl (mem_words_iff.mp (by decide)))
  · exact hAll _ (by decide) (.inr ⟨first, by simp, hShows (by decide)⟩)
  · exact hAll _ (by decide) (.inr ⟨first, by simp, hShows (by decide)⟩)
  · exact hAll _ (by decide) (.inr ⟨second, by simp, hShows (by decide)⟩)

/-- A word at the beginning of the first further line hides the address behind it and the next line. -/
theorem jailReport_losesWrapped :
    let heading := "\x60- Banned IP list:\t192.0.2.1".toList
    let first := "   not-an-ip 192.0.2.2".toList
    let second := "   192.0.2.3".toList
    let text := [heading, first, second].flatMap (· ++ ['\n'])
    HasLabel (Field.label .banList) heading "\t192.0.2.1".toList ∧
    wrappedLines [first, second] = [first, second] ∧
    Shows first "192.0.2.2".toList ∧ Shows second "192.0.2.3".toList ∧
    isAddressToken "192.0.2.2".toList = true ∧ isAddressToken "192.0.2.3".toList = true ∧
    (jailReport "sshd".toList text).ips = ["192.0.2.1".toList] := by
  intro heading first second text
  have hHeading : HasLabel (Field.label .banList) heading "\t192.0.2.1".toList :=
    ⟨"\x60- ".toList, "Banned IP list".toList, [], List.all_eq_true.mp rfl, rfl, rfl, rfl⟩
  have hShows {line ip : List Char} (h : ip ∈ words line) : Shows line ip := .inl (mem_words_iff.mp h)
  exact ⟨hHeading, by decide, hShows (by decide), hShows (by decide), by decide, by decide, by decide⟩

end BanBoard.Status
