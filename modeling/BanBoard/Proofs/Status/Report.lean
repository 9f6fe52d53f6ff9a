import BanBoard.Proofs.Client.Faithful
import BanBoard.Proofs.Jail.Basic
import BanBoard.Proofs.Net.Token
import BanBoard.Status.BanTimes
import BanBoard.Status.Report

/-!
The reports of a faithful daemon are read as what it printed: all jails by their names, and of each jail
the addresses banned in it. The times of bans are taken over without losing an address.
-/

namespace BanBoard.Status

open BanBoard.Client
open BanBoard.Client.Faithful
open BanBoard.Net
open BanBoard.Text

/-- A label that stands behind a part of the tree and is found again. -/
structure IsLabel (tree label : List Char) : Prop where
  tree : ∀ c ∈ tree, isTreeChar c = true
  stops : StopsBefore isTreeChar label
  ne_nil : label ≠ []
  colon : ':' ∉ label

instance (tree label : List Char) : Decidable (IsLabel tree label) :=
  decidable_of_iff (tree.all isTreeChar = true ∧ StopsBefore isTreeChar label ∧
      label ≠ [] ∧ ':' ∉ label)
    ⟨fun ⟨tree, stops, ne_nil, colon⟩ => ⟨List.all_eq_true.mp tree, stops, ne_nil, colon⟩,
      fun ⟨tree, stops, ne_nil, colon⟩ => ⟨List.all_eq_true.mpr tree, stops, ne_nil, colon⟩⟩

/-- The tree in front of a label and the blanks at the end are no part of a labelled value. -/
theorem stripTree_label {tree label : List Char} (h : IsLabel tree label) (value : List Char) :
    stripTree (tree ++ label ++ ':' :: value) = label ++ ':' :: trimEnd value := by
  obtain ⟨c, rest, rfl⟩ := List.exists_cons_of_ne_nil h.ne_nil
  have hStop : isTreeChar c = false := (stopsBefore_cons ..).mp h.stops
  rw [stripTree, List.append_assoc, List.dropWhile_append_of_pos h.tree, List.cons_append,
    List.dropWhile_cons_of_neg (by simp [hStop]), ← List.cons_append,
    trimEnd_append_cons (by decide)]

/-- A label between tree and colon is found, with its value. -/
theorem labelled?_label {tree label : List Char} (h : IsLabel tree label) (value : List Char) :
    labelled? (tree ++ label ++ ':' :: value) = some (lowerAscii (trim label), trimEnd value) := by
  rw [labelled?, stripTree_label h, splitOnce_append_cons h.colon]
  rfl

theorem isLine_decimal (n : Nat) : IsLine (decimal n) :=
  isLine_of_forall fun _ hMem => isBlank_of_isDigit (isDigit_of_mem_decimal hMem)

theorem isLine_name {name : List Char} (h : isJailName name = true) : IsLine name :=
  isLine_of_forall fun _ hMem => isBlank_of_isJailNameChar (isJailNameChar_of_mem h hMem)

theorem isLine_write (address : Address) : IsLine address.write :=
  isLine_of_forall fun _ => Address.isBlank_of_mem_write

/-- A field of a report is one line if its label and its value are. -/
theorem isLine_field {tree label : String} (hLabel : IsLine (tree.toList ++ label.toList))
    {value : List Char} (hValue : IsLine value) : IsLine (field tree label value) := by
  rw [field, isLine_append, isLine_cons, isLine_cons]
  exact ⟨hLabel, by decide, by decide, hValue⟩

/-- The items that stand behind a label, joined by cuts, are all found. -/
theorem filter_splitWhere_value {p : Char → Bool} {q : List Char → Bool} (hEmpty : q [] = false)
    (hBlank : ∀ c, isBlank c = true → p c = true) {separator : List Char}
    (hSeparator : ∀ c ∈ separator, p c = true) (hSome : separator ≠ []) {items : List (List Char)}
    (hItems : ∀ item ∈ items, (∀ c ∈ item, p c = false) ∧ q item = true) :
    (splitWhere p (trimEnd ('\t' :: separator.intercalate items))).filter q = items := by
  rw [filter_splitWhere_trimEnd hEmpty hBlank, filter_splitWhere_cons hEmpty (hBlank '\t' rfl),
    filter_splitWhere_intercalate hEmpty hSeparator hSome hItems]

/-- Whatever a text says, only jail names are read from it. -/
theorem isJailName_of_mem_jailList {text name : List Char} (h : name ∈ jailList text) :
    isJailName name = true := by
  rw [jailList] at h
  split at h
  · exact (List.mem_filter.mp h).2
  · cases h

/-- Names that are joined with commas are found again. -/
theorem namesIn_value {names : List (List Char)} (h : ∀ name ∈ names, isJailName name = true) :
    namesIn (trimEnd ('\t' :: ", ".toList.intercalate names)) = names := by
  have hItems : ∀ name ∈ names,
      (∀ c ∈ name, (decide (c = ',') || isBlank c) = false) ∧ isJailName name = true := by
    refine fun name hMem => ⟨fun c hChar => ?_, h name hMem⟩
    have hName := isJailNameChar_of_mem (h name hMem) hChar
    have hComma : c ≠ ',' := by
      rintro rfl
      exact absurd hName (by decide)
    simp [hComma, isBlank_of_isJailNameChar hName]
  refine filter_splitWhere_value rfl ?_ (List.all_eq_true.mp rfl) (by decide) hItems
  intro c hc
  simp [hc]

/-- All jails are found in the report on them. -/
theorem jailList_overview {jails : Jails} (h : jails.Valid) :
    jailList (overview jails) = jails.map Prod.fst := by
  have hNames : ∀ name ∈ jails.map Prod.fst, isJailName name = true :=
    List.forall_mem_map.mpr h.isJailName
  have hJoined : IsLine (", ".toList.intercalate (jails.map Prod.fst)) :=
    isLine_intercalate (by decide) fun name hMem => isLine_name (hNames name hMem)
  have hLines : ∀ line ∈ ["Status".toList, field "|- " "Number of jail" (decimal jails.length),
      field "\x60- " "Jail list" (", ".toList.intercalate (jails.map Prod.fst))], IsLine line := by
    rw [List.forall_mem_cons, List.forall_mem_cons, List.forall_mem_singleton]
    exact ⟨by decide, isLine_field (by decide) (isLine_decimal _),
      isLine_field (by decide) hJoined⟩
  have hStatus : labelled? "Status".toList = none := by decide
  have hNumber : IsLabel "|- ".toList "Number of jail".toList := by decide
  have hList : IsLabel "\x60- ".toList "Jail list".toList := by decide
  have hOther : lowerAscii (trim "Number of jail".toList) ≠ "jail list".toList := by decide
  have hFound : lowerAscii (trim "Jail list".toList) = "jail list".toList := by decide
  rw [jailList, overview, printed, lines_flatMap hLines]
  simp only [List.findSome?_cons, hStatus, field, labelled?_label hNumber,
    labelled?_label hList, Option.bind_none, Option.bind_some, if_neg hOther, if_pos hFound]
  exact namesIn_value hNames

/-- Addresses do not change the name of a jail. -/
theorem name_addAddresses (jail : Jail) (text : List Char) :
    (addAddresses jail text).name = jail.name :=
  List.foldlRecOn (motive := fun current : Jail => current.name = jail.name) _ _ rfl
    fun current hName _ _ => (current.name_addBanned _).trans hName

theorem name_applyField (jail : Jail) (label value : List Char) :
    (applyField jail label value).1.name = jail.name := by
  unfold applyField
  split
  · rfl
  split
  · rfl
  split
  · rfl
  split
  · rfl
  split
  · exact name_addAddresses jail value
  · rfl

/-- No field but the list of bans changes the list, and no list can go on behind another field. -/
theorem banned_applyField {label : List Char} (h : label ≠ "banned ip list".toList) (jail : Jail)
    (value : List Char) :
    (applyField jail label value).1.banned = jail.banned ∧ (applyField jail label value).2 = false := by
  rw [applyField, if_neg h]
  split
  · exact ⟨rfl, rfl⟩
  split
  · exact ⟨rfl, rfl⟩
  split
  · exact ⟨rfl, rfl⟩
  split
  · exact ⟨rfl, rfl⟩
  · exact ⟨rfl, rfl⟩

/-- The state of reading before the list of bans: no address has been read, and no list of addresses
can be continued. -/
structure Unlisted (name : List Char) (state : Jail × Bool) : Prop where
  name_eq : state.1.name = name
  banned_eq : state.1.banned = []
  inList_eq : state.2 = false

theorem Unlisted.applyField {name : List Char} {jail : Jail} {inList : Bool}
    (h : Unlisted name (jail, inList)) {label : List Char} (hLabel : label ≠ "banned ip list".toList)
    (value : List Char) : Unlisted name (applyField jail label value) := by
  obtain ⟨hSame, hEnds⟩ := banned_applyField hLabel jail value
  exact ⟨(name_applyField jail label value).trans h.name_eq, hSame.trans h.banned_eq, hEnds⟩

/-- A line with another label than that of the list reads no address. -/
theorem Unlisted.applyLine {name : List Char} {state : Jail × Bool} (h : Unlisted name state)
    {line : List Char}
    (hLine : ∀ label value, labelled? line = some (label, value) → label ≠ "banned ip list".toList) :
    Unlisted name (applyLine state line) := by
  obtain ⟨jail, inList⟩ := state
  obtain rfl : inList = false := h.inList_eq
  unfold Status.applyLine
  dsimp only
  split
  · exact h
  · rw [if_neg (by simp)]
    cases hLabelled : labelled? line with
    | none => exact h
    | some field => exact h.applyField (hLine field.1 field.2 hLabelled) field.2

theorem Unlisted.foldl {name : List Char} {lines : List (List Char)}
    (hLines : ∀ line ∈ lines, ∀ label value, labelled? line = some (label, value) →
      label ≠ "banned ip list".toList) {state : Jail × Bool} (h : Unlisted name state) :
    Unlisted name (lines.foldl Status.applyLine state) :=
  List.foldlRecOn lines Status.applyLine h fun _ hState line hMem =>
    hState.applyLine (hLines line hMem)

theorem addAddresses_row {row : List (List Char)} {text : List Char} (hWords : words text = row)
    (hRow : ∀ ip ∈ row, isAddressToken ip = true) (jail : Jail) :
    addAddresses jail text = row.foldl Jail.addListed jail := by
  rw [addAddresses, hWords, List.filter_eq_self.mpr hRow]
  rfl

/-- The addresses in the list of bans are taken over in order. -/
theorem addAddresses_value {jail : Jail} (hBanned : jail.banned = []) {ips : List (List Char)}
    (hNodup : ips.Nodup) (hCanonical : ∀ ip ∈ ips, ∃ address : Address, address.write = ip) :
    addAddresses jail (trimEnd ('\t' :: " ".toList.intercalate ips)) =
      jail.withBanned (ips.map fun ip => .listed ip jail.name) := by
  have hTokens : ∀ ip ∈ ips, isAddressToken ip = true := by
    intro ip hMem
    obtain ⟨address, rfl⟩ := hCanonical ip hMem
    exact isAddressToken_write address
  have hItems : ∀ ip ∈ ips, (∀ c ∈ ip, isBlank c = false) ∧ (!ip.isEmpty) = true := by
    intro ip hMem
    obtain ⟨hSome, hPlain⟩ := isWord_of_isAddressToken (hTokens ip hMem)
    exact ⟨hPlain, by simpa using hSome⟩
  have hWords : words (trimEnd ('\t' :: " ".toList.intercalate ips)) = ips :=
    filter_splitWhere_value rfl (fun c hc => hc) (List.all_eq_true.mp rfl) (by decide) hItems
  have hNew : ∀ ip ∈ ips, ip ∉ jail.ips := by
    intro ip _
    simp [Jail.ips, hBanned]
  rw [addAddresses_row hWords hTokens, Jail.foldl_addListed_of_nodup hNodup hNew, hBanned,
    List.nil_append]

/-- Outside of a list, a labelled line is taken by its label. -/
theorem applyLine_label {tree label : List Char} (h : IsLabel tree label) (jail : Jail)
    (value : List Char) :
    applyLine (jail, false) (tree ++ label ++ ':' :: value) =
      applyField jail (lowerAscii (trim label)) (trimEnd value) := by
  have hContent : (stripTree (tree ++ label ++ ':' :: value)).isEmpty = false := by
    rw [stripTree_label h]
    simp
  simp only [applyLine, hContent, Bool.false_and, Bool.false_eq_true, if_false, labelled?_label h]

/-- The line with the list of bans. -/
theorem applyLine_list {state : Jail × Bool} {name : List Char} (h : Unlisted name state)
    {ips : List (List Char)} (hNodup : ips.Nodup)
    (hCanonical : ∀ ip ∈ ips, ∃ address : Address, address.write = ip) :
    (applyLine state (field "   \x60- " "Banned IP list" (" ".toList.intercalate ips))).1 =
      state.1.withBanned (ips.map fun ip => .listed ip name) := by
  obtain ⟨jail, inList⟩ := state
  obtain ⟨rfl, hBanned, rfl⟩ := h
  have hLabel : IsLabel "   \x60- ".toList "Banned IP list".toList := by decide
  have hField (value : List Char) : applyField jail (lowerAscii (trim "Banned IP list".toList)) value =
      (addAddresses jail value, true) := rfl
  rw [field, applyLine_label hLabel, hField]
  exact addAddresses_value hBanned hNodup hCanonical

theorem isLine_of_mem_reportHead {name : List Char} (hName : isJailName name = true) (count : Nat) :
    ∀ line ∈ reportHead name count, IsLine line := by
  have hTitle : IsLine ("Status for the jail: ".toList ++ name) :=
    (isLine_append _ _).mpr ⟨by decide, isLine_name hName⟩
  simp only [reportHead, List.forall_mem_cons]
  exact ⟨hTitle, by decide, isLine_field (by decide) (by decide),
    isLine_field (by decide) (by decide),
    isLine_field (by decide) (by decide), by decide,
    isLine_field (by decide) (isLine_decimal _),
    isLine_field (by decide) (isLine_decimal _), List.forall_mem_nil _⟩

/-- None of the lines before the list of bans has its label. -/
theorem label_ne_of_mem_reportHead (name : List Char) (count : Nat) :
    ∀ line ∈ reportHead name count, ∀ label value, labelled? line = some (label, value) →
      label ≠ "banned ip list".toList := by
  have hOther {tree label : List Char} (h : IsLabel tree label)
      (hNe : lowerAscii (trim label) ≠ "banned ip list".toList) (value : List Char) :
      ∀ found rest, labelled? (tree ++ label ++ ':' :: value) = some (found, rest) →
        found ≠ "banned ip list".toList := by
    intro found rest hFound
    rw [labelled?_label h] at hFound
    rwa [← (Prod.mk.inj (Option.some.inj hFound)).1]
  have hPlain {line : List Char} (h : labelled? line = none) :
      ∀ found rest, labelled? line = some (found, rest) → found ≠ "banned ip list".toList := by
    intro found rest hFound
    rw [h] at hFound
    cases hFound
  have hTitle : IsLabel [] "Status for the jail".toList := by decide
  simp only [reportHead, List.forall_mem_cons]
  refine ⟨hOther hTitle (by decide) (' ' :: name), hPlain (by decide), ?_, ?_, ?_, hPlain (by decide),
    ?_, ?_, List.forall_mem_nil _⟩ <;>
  exact hOther (by decide) (by decide) _

/-- The report on a jail is read as that jail with the addresses banned in it. -/
theorem jailReport_report {name : List Char} (hName : isJailName name = true)
    {ips : List (List Char)} (hNodup : ips.Nodup)
    (hCanonical : ∀ ip ∈ ips, ∃ address : Address, address.write = ip) :
    (jailReport name (report name ips)).name = name ∧ (jailReport name (report name ips)).ips = ips := by
  have hIps : ∀ ip ∈ ips, IsLine ip := by
    intro ip hMem
    obtain ⟨address, rfl⟩ := hCanonical ip hMem
    exact isLine_write address
  have hList : IsLine (field "   \x60- " "Banned IP list" (" ".toList.intercalate ips)) :=
    isLine_field (by decide) (isLine_intercalate (by decide) hIps)
  have hLines : ∀ line ∈ reportHead name ips.length ++
      [field "   \x60- " "Banned IP list" (" ".toList.intercalate ips)], IsLine line := by
    rw [List.forall_mem_append, List.forall_mem_singleton]
    exact ⟨isLine_of_mem_reportHead hName ips.length, hList⟩
  have hHead : Unlisted name
      ((reportHead name ips.length).foldl applyLine (Jail.empty name, false)) :=
    Unlisted.foldl (label_ne_of_mem_reportHead name ips.length) ⟨rfl, rfl, rfl⟩
  rw [jailReport, report, printed, lines_flatMap hLines, List.foldl_append, List.foldl_cons,
    List.foldl_nil, applyLine_list hHead hNodup hCanonical]
  refine ⟨hHead.name_eq, ?_⟩
  rw [Jail.ips, Jail.withBanned_banned, List.map_map]
  exact List.map_id ips

theorem name_applyLine (state : Jail × Bool) (line : List Char) :
    (applyLine state line).1.name = state.1.name := by
  obtain ⟨jail, inList⟩ := state
  simp only [applyLine]
  split
  · rfl
  split
  · exact name_addAddresses jail _
  split
  · rfl
  · exact name_applyField jail _ _

/-- Whatever a report says, the jail has the name under which it was asked for. -/
theorem name_jailReport (name text : List Char) : (jailReport name text).name = name :=
  List.foldlRecOn (motive := fun state : Jail × Bool => state.1.name = name) _ _ rfl
    fun state hName line _ => (name_applyLine state line).trans hName

/-- Times change neither the name of a jail nor its addresses. -/
theorem attach_ips (times : List BanTime) (jail : Jail) :
    (attach times jail).2.name = jail.name ∧ (attach times jail).2.ips = jail.ips := by
  refine List.foldlRecOn (motive := fun (state : Nat × Jail) =>
    state.2.name = jail.name ∧ state.2.ips = jail.ips)
    times _ ⟨rfl, rfl⟩ ?_
  rintro ⟨count, current⟩ ⟨hName, hIps⟩ ⟨ip, t⟩ _
  exact ⟨(current.name_setBanTime ip t).trans hName, (current.ips_setBanTime ip t).trans hIps⟩

end BanBoard.Status
