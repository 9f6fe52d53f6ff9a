import BanBoard.Proofs.Status.Layout
import Mathlib.Data.List.Forall2

/-!
A report is read as the values it gives, in whatever order its fields stand and whatever stands between
them. Each field is taken by a change of the jail that does not get in the way of the others, so their
order has no say in the end.
-/

namespace BanBoard.Status

open BanBoard.Net
open BanBoard.Text

/-- A line with which a list of bans goes on by a row of addresses. -/
def Continues (row : List (List Char)) (line : List Char) : Prop :=
  ∃ item items, row = item :: items ∧ StartsWith item items line

namespace Report

/-- The counter in a field, unless the field is a list. -/
def counter? (report : Report) : Field → Option UInt64
  | .currentlyFailed => some report.currentlyFailed
  | .totalFailed => some report.totalFailed
  | .totalBanned => some report.totalBanned
  | .fileList => none
  | .banList => none

/-- The jail that is reported on. An address that is listed twice is banned once. -/
def jail (report : Report) (name : List Char) : Jail where
  name := name
  currentlyFailed := report.currentlyFailed
  totalFailed := report.totalFailed
  totalBanned := report.totalBanned
  banned := report.addresses.eraseDups.map fun ip => .listed ip name
  fileList := report.files

/-- A jail after one field of the report was read for it. -/
def take (report : Report) (jail : Jail) : Field → Jail
  | .currentlyFailed => { jail with currentlyFailed := report.currentlyFailed }
  | .totalFailed => { jail with totalFailed := report.totalFailed }
  | .totalBanned => { jail with totalBanned := report.totalBanned }
  | .fileList => jail.setFileList report.files
  | .banList => report.addresses.foldl Jail.addListed jail

end Report

/-- The lines about one field. Only a list of bans takes more than one. -/
inductive IsBlock (report : Report) : Field → List (List Char) → Prop
  | counter {field : Field} {n : UInt64} {line value : List Char}
      (hField : report.counter? field = some n) (hLabel : HasLabel field.label line value)
      (hValue : IsNumeral n value) : IsBlock report field [line]
  | fileList {line value : List Char} (hLabel : HasLabel (Field.label .fileList) line value)
      (hValue : IsRow report.files value) : IsBlock report .fileList [line]
  | banList {line value : List Char} {row : List (List Char)} {rows : List (List (List Char))}
      {more : List (List Char)} (hLabel : HasLabel (Field.label .banList) line value)
      (hValue : IsRow row value) (hMore : List.Forall₂ Continues rows more)
      (hAll : row ++ rows.flatten = report.addresses) : IsBlock report .banList (line :: more)

/-- A field in a report: its lines, and the lines behind them up to the next one. -/
structure Part where
  field : Field
  block : List (List Char)
  gap : List (List Char)

def Part.lines (part : Part) : List (List Char) := part.block ++ part.gap

/-- A text that reports the values, each field once. -/
def IsLayout (report : Report) (text : List Char) : Prop :=
  ∃ (head : List (List Char)) (parts : List Part),
    lines text = head ++ parts.flatMap Part.lines ∧ (∀ line ∈ head, IsGap line) ∧
    (∀ part ∈ parts, IsBlock report part.field part.block ∧ ∀ line ∈ part.gap, IsGap line) ∧
    (parts.map Part.field).Perm Field.all

variable {report : Report}

/-- A numeral with blanks around it gives its counter. -/
theorem counter_trimEnd {n : UInt64} {value : List Char} (h : IsNumeral n value) :
    counter (trimEnd value) = n := by
  obtain ⟨gap, rest, hGap, hRest, rfl⟩ := h
  have hTrim : trimEnd (gap ++ decimal n.toNat ++ rest) = gap ++ decimal n.toNat ++ [] := by
    rw [trimEnd_append_blank hRest, trimEnd_append_word (isWord_decimal _), List.append_nil]
  have hBound : n.toNat ≤ maxWord64 := Nat.le_pred_of_lt n.toNat_lt
  rw [hTrim, counter, firstNumber?_decimal hGap rfl hBound]
  simp

/-- A line with a counter takes that field over from the report and no other. -/
theorem applyField_counter {field : Field} {n : UInt64} (hField : report.counter? field = some n)
    {value : List Char} (hValue : counter value = n) (jail : Jail) :
    applyField jail field.label value = (report.take jail field, false) := by
  subst hValue
  cases field with
  | currentlyFailed =>
      rw [Report.take, Option.some.inj hField]
      rfl
  | totalFailed =>
      rw [Report.take, Option.some.inj hField]
      rfl
  | totalBanned =>
      rw [Report.take, Option.some.inj hField]
      rfl
  | fileList => cases hField
  | banList => cases hField

/-- The further lines of a list of bans are read one after the other. -/
theorem foldl_continues {rows : List (List (List Char))} {more : List (List Char)}
    (hMore : List.Forall₂ Continues rows more) (hTokens : ∀ ip ∈ rows.flatten, isAddressToken ip = true)
    (jail : Jail) :
    more.foldl applyLine (jail, true) = (rows.flatten.foldl Jail.addListed jail, true) := by
  induction hMore generalizing jail with
  | nil => rfl
  | cons hLine hMore ih =>
      obtain ⟨item, items, rfl, hStarts⟩ := hLine
      rw [List.flatten_cons, List.forall_mem_append] at hTokens
      rw [List.foldl_cons, applyLine_startsWith hStarts hTokens.1, ih hTokens.2, List.flatten_cons,
        List.foldl_append]

/-- The lines about a field change the jail as the field does, whatever stands before them. -/
theorem foldl_block {field : Field} {block : List (List Char)} (h : IsBlock report field block)
    (state : Jail × Bool) : (block.foldl applyLine state).1 = report.take state.1 field := by
  cases h with
  | counter hField hLabel hValue =>
      rw [List.foldl_cons, List.foldl_nil, applyLine_hasLabel field.isHeading hLabel,
        applyField_counter hField (counter_trimEnd hValue)]
  | @fileList line value hLabel hValue =>
      have hField (value : List Char) : applyField state.1 (Field.label .fileList) value =
          (state.1.setFileList (words value), false) := rfl
      rw [List.foldl_cons, List.foldl_nil, applyLine_hasLabel (Field.isHeading _) hLabel, hField,
        words_trimEnd, hValue.words_eq report.isWord_of_mem_files, Report.take]
  | @banList line value row rows more hLabel hValue hMore hAll =>
      have hTokens := report.isAddressToken_of_mem
      rw [← hAll, List.forall_mem_append] at hTokens
      have hWords : words value = row :=
        hValue.words_eq fun ip hMem => isWord_of_isAddressToken (hTokens.1 ip hMem)
      rw [List.foldl_cons, applyLine_banList hLabel, addAddresses_row hWords hTokens.1,
        foldl_continues hMore hTokens.2, ← List.foldl_append, hAll, Report.take]

/-- Lines that say nothing leave the jail as it is. -/
theorem foldl_gap {gap : List (List Char)} (h : ∀ line ∈ gap, IsGap line) (state : Jail × Bool) :
    (gap.foldl applyLine state).1 = state.1 := by
  induction gap generalizing state with
  | nil => rfl
  | cons line gap ih =>
      obtain ⟨hLine, hGap⟩ := List.forall_mem_cons.mp h
      rw [List.foldl_cons, applyLine_gap hLine, ih hGap]

/-- The parts of a report are taken over one after the other, whatever stands between them. -/
theorem foldl_parts {parts : List Part}
    (h : ∀ part ∈ parts, IsBlock report part.field part.block ∧ ∀ line ∈ part.gap, IsGap line)
    (state : Jail × Bool) :
    ((parts.flatMap Part.lines).foldl applyLine state).1 =
      (parts.map Part.field).foldl report.take state.1 := by
  induction parts generalizing state with
  | nil => rfl
  | cons part parts ih =>
      obtain ⟨⟨hBlock, hGap⟩, hParts⟩ := List.forall_mem_cons.mp h
      rw [List.flatMap_cons, List.foldl_append, ih hParts, Part.lines, List.foldl_append, foldl_gap hGap,
        foldl_block hBlock, List.map_cons, List.foldl_cons]

/-- No field gets in the way of another. -/
theorem Report.take_comm (report : Report) (jail : Jail) (a b : Field) :
    report.take (report.take jail a) b = report.take (report.take jail b) a := by
  cases a <;> cases b <;> simp [Report.take, Jail.foldl_addListed, Jail.withBanned, Jail.setFileList, Jail.ips]

/-- With all fields taken over, the jail is the reported one. -/
theorem Report.foldl_take_all (report : Report) (name : List Char) :
    Field.all.foldl report.take (Jail.empty name) = report.jail name := by
  have hAll : report.addresses.filter (fun _ => true) = report.addresses :=
    List.filter_eq_self.mpr fun _ _ => rfl
  simp [Field.all, Report.take, Report.jail, Jail.foldl_addListed, Jail.withBanned, Jail.setFileList,
    Jail.empty, Jail.ips, hAll]

/-- Reading a report gives back what it was laid out from. -/
theorem jailReport_isLayout (name : List Char) {text : List Char} (h : IsLayout report text) :
    jailReport name text = report.jail name := by
  obtain ⟨head, parts, hLines, hHead, hParts, hFields⟩ := h
  calc jailReport name text
      = ((head ++ parts.flatMap Part.lines).foldl applyLine (Jail.empty name, false)).1 := by
        rw [jailReport, hLines]
    _ = (parts.map Part.field).foldl report.take (Jail.empty name) := by
        rw [List.foldl_append, foldl_parts hParts, foldl_gap hHead]
    _ = Field.all.foldl report.take (Jail.empty name) :=
        hFields.foldl_eq' (fun a _ b _ jail => report.take_comm jail a b) _
    _ = report.jail name := report.foldl_take_all name

/-- A list of bans comes first and goes on over two lines, the other fields stand in an odd order and in
odd letters, and the count of banned addresses is wrong. -/
theorem jailReport_isLayout_wrapped :
    let report : Report := {
      currentlyFailed := 3
      totalFailed := 118
      totalBanned := 19
      files := ["/var/log/a:b".toList, "/var/log/c".toList]
      addresses := ["2001:DB8::1".toList, "192.0.2.7".toList, "2001:DB8::1".toList,
        "198.51.100.0/24".toList]
      isWord_of_mem_files := by decide
      isAddressToken_of_mem := by decide }
    let printed := ["Status for the jail: sshd".toList, "\x60- banned IP LIST:\t2001:DB8::1".toList,
      "      192.0.2.7 2001:DB8::1".toList, "  198.51.100.0/24".toList, "|- Filter".toList,
      "|  |- Total failed:\t118".toList, "|  |- CURRENTLY failed: 3 ".toList,
      "|- Currently banned:\t99".toList, "|- total Banned:19".toList,
      "|- File list:\t/var/log/a:b  /var/log/c".toList]
    let text := printed.flatMap (· ++ ['\n'])
    IsLayout report text ∧ jailReport "sshd".toList text = report.jail "sshd".toList := by
  intro report printed text
  have hRow {items : List (List Char)} {row : List Char} (h : words row = items) : IsRow items row :=
    h ▸ isRow_words row
  have hPlain (tree : List Char) (h : hasBranch tree = false) : IsPlain tree :=
    (hasBranch_eq_false_iff tree).mp h
  have hBans : HasLabel (Field.label .banList) "\x60- banned IP LIST:\t2001:DB8::1".toList
      "\t2001:DB8::1".toList :=
    ⟨"\x60- ".toList, "banned IP LIST".toList, [], List.all_eq_true.mp rfl, rfl, rfl, rfl⟩
  have hFirst : IsRow ["2001:DB8::1".toList] "\t2001:DB8::1".toList := hRow rfl
  have hSecond : Continues ["192.0.2.7".toList, "2001:DB8::1".toList]
      "      192.0.2.7 2001:DB8::1".toList :=
    ⟨_, _, rfl, "      ".toList, " 2001:DB8::1".toList, List.all_eq_true.mp rfl, hPlain _ rfl, by decide,
      hRow rfl, rfl⟩
  have hThird : Continues ["198.51.100.0/24".toList] "  198.51.100.0/24".toList :=
    ⟨_, _, rfl, "  ".toList, [], List.all_eq_true.mp rfl, hPlain _ rfl, by decide, hRow rfl, rfl⟩
  have hTotalFailed : HasLabel (Field.label .totalFailed) "|  |- Total failed:\t118".toList
      "\t118".toList :=
    ⟨"|  |- ".toList, "Total failed".toList, [], List.all_eq_true.mp rfl, rfl, rfl, rfl⟩
  have hFailed : HasLabel (Field.label .currentlyFailed) "|  |- CURRENTLY failed: 3 ".toList
      " 3 ".toList :=
    ⟨"|  |- ".toList, "CURRENTLY failed".toList, [], List.all_eq_true.mp rfl, rfl, rfl, rfl⟩
  have hTotalBanned : HasLabel (Field.label .totalBanned) "|- total Banned:19".toList "19".toList :=
    ⟨"|- ".toList, "total Banned".toList, [], List.all_eq_true.mp rfl, rfl, rfl, rfl⟩
  have hFiles : HasLabel (Field.label .fileList) "|- File list:\t/var/log/a:b  /var/log/c".toList
      "\t/var/log/a:b  /var/log/c".toList :=
    ⟨"|- ".toList, "File list".toList, [], List.all_eq_true.mp rfl, rfl, rfl, rfl⟩
  let parts : List Part :=
    [⟨.banList, ["\x60- banned IP LIST:\t2001:DB8::1".toList, "      192.0.2.7 2001:DB8::1".toList,
        "  198.51.100.0/24".toList], ["|- Filter".toList]⟩,
      ⟨.totalFailed, ["|  |- Total failed:\t118".toList], []⟩,
      ⟨.currentlyFailed, ["|  |- CURRENTLY failed: 3 ".toList], ["|- Currently banned:\t99".toList]⟩,
      ⟨.totalBanned, ["|- total Banned:19".toList], []⟩,
      ⟨.fileList, ["|- File list:\t/var/log/a:b  /var/log/c".toList], []⟩]
  have hParts : ∀ part ∈ parts,
      IsBlock report part.field part.block ∧ ∀ line ∈ part.gap, IsGap line := by
    simp only [parts, List.forall_mem_cons]
    exact ⟨⟨.banList hBans hFirst (.cons hSecond (.cons hThird .nil)) (by decide), by decide⟩,
      ⟨.counter rfl hTotalFailed ⟨"\t".toList, [], rfl, rfl, by decide⟩, by decide⟩,
      ⟨.counter rfl hFailed ⟨" ".toList, " ".toList, rfl, rfl, by decide⟩, by decide⟩,
      ⟨.counter rfl hTotalBanned ⟨[], [], rfl, rfl, by decide⟩, by decide⟩,
      ⟨.fileList hFiles (hRow rfl), by decide⟩, List.forall_mem_nil _⟩
  have hLines : lines text = ["Status for the jail: sshd".toList] ++ parts.flatMap Part.lines :=
    lines_flatMap (by decide)
  have hLayout : IsLayout report text := ⟨_, parts, hLines, by decide, hParts, by decide⟩
  exact ⟨hLayout, jailReport_isLayout "sshd".toList hLayout⟩

end BanBoard.Status
