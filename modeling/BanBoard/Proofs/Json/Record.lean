import BanBoard.Json.Decode
import BanBoard.Json.Value
import BanBoard.Proofs.Json.Text
import BanBoard.Proofs.Text.Decimal

/-!
Written records are cut into the texts of their members again. Every member of a stored record is a
literal or a natural number, so passing over one ends where its text ends.
-/

namespace BanBoard.Json

open BanBoard.Text

/-- What may follow a member: the comma before the next one, or the end of the record. -/
def EndsMember (s : List Char) : Prop := ∃ rest, s = ',' :: rest ∨ s = '\x7d' :: rest

/-- A value without parts that are values themselves. -/
def Value.IsPlain : Value → Prop
  | .array _ => False
  | .object _ => False
  | _ => True

/-- Passing over the whole part of a number stops behind a written numeral. -/
theorem skipWhole_decimal (n : Nat) {rest : List Char} (h : StopsBefore isDigit rest) :
    skipWhole (decimal n ++ rest) = some rest := by
  rcases Nat.eq_zero_or_pos n with rfl | hPos
  · have hZero : decimal 0 = ['0'] := rfl
    cases rest with
    | nil => rfl
    | cons c rest =>
        rw [stopsBefore_cons] at h
        simp [hZero, skipWhole, h]
  · have hHead := head_decimal_ne_zero hPos
    have hDigits : ∀ c ∈ decimal n, isDigit c = true := fun _ => isDigit_of_mem_decimal
    cases hDecimal : decimal n with
    | nil => exact (decimal_ne_nil n hDecimal).elim
    | cons c tail =>
        rw [hDecimal] at hHead hDigits
        have hFirst : c ≠ '0' := by simpa using hHead
        obtain ⟨hc, hTail⟩ := List.forall_mem_cons.mp hDigits
        simp [skipWhole, hFirst, skipDigits, hc, dropWhile_append hTail h]

/-- What ends a member is no digit, so no number runs on into it. -/
theorem EndsMember.stopsBefore {s : List Char} (h : EndsMember s) : StopsBefore isDigit s := by
  obtain ⟨rest, rfl | rfl⟩ := h <;> exact (stopsBefore_cons ..).mpr rfl

theorem skipNumber_decimal (n : Nat) {rest : List Char} (h : EndsMember rest) :
    skipNumber (decimal n ++ rest) = some rest := by
  have hWhole := skipWhole_decimal n h.stopsBefore
  have hEnd : (skipFraction rest).bind skipExponent = some rest := by
    obtain ⟨after, rfl | rfl⟩ := h <;> rfl
  obtain ⟨c, tail, hDecimal, hc⟩ := decimal_eq_cons n
  have hSign : c ≠ '-' := ne_of_isDigit hc rfl
  rw [hDecimal, List.cons_append] at hWhole ⊢
  simp [skipNumber, hSign, hWhole, hEnd]

theorem isSpace_of_isDigit {c : Char} (h : isDigit c = true) : isSpace c = false := by
  have hBlank : c ≠ ' ' := ne_of_isDigit h rfl
  have hNewline : c ≠ '\n' := ne_of_isDigit h rfl
  have hTab : c ≠ '\t' := ne_of_isDigit h rfl
  have hReturn : c ≠ '\r' := ne_of_isDigit h rfl
  simp [isSpace, hBlank, hNewline, hTab, hReturn]

/-- What starts with a digit can only be a number. -/
theorem skipScalar_of_isDigit {c : Char} (h : isDigit c = true) (rest : List Char) :
    skipScalar (c :: rest) = skipNumber (c :: rest) := by
  have hQuote : c ≠ '"' := ne_of_isDigit h rfl
  have hNull : c ≠ 'n' := ne_of_isDigit h rfl
  have hTrue : c ≠ 't' := ne_of_isDigit h rfl
  have hFalse : c ≠ 'f' := ne_of_isDigit h rfl
  simp [skipScalar, hQuote, hNull, hTrue, hFalse]

theorem write_text (s rest : List Char) :
    (Value.text s).write ++ rest = '"' :: (s.flatMap escape ++ '"' :: rest) := by
  simp [Value.write, writeText]

/-- A plain value starts with a character that opens no container and is no space. -/
theorem Value.write_eq_cons {v : Value} (h : v.IsPlain) :
    ∃ c tail, v.write = c :: tail ∧ c ≠ '[' ∧ c ≠ '\x7b' ∧ isSpace c = false := by
  cases v with
  | null => exact ⟨_, _, rfl, by decide, by decide, rfl⟩
  | bool b => cases b <;> exact ⟨_, _, rfl, by decide, by decide, rfl⟩
  | nat n =>
      obtain ⟨c, tail, hDecimal, hc⟩ := decimal_eq_cons n
      exact ⟨c, tail, hDecimal, ne_of_isDigit hc rfl, ne_of_isDigit hc rfl, isSpace_of_isDigit hc⟩
  | text s => exact ⟨_, _, rfl, by decide, by decide, rfl⟩
  | array elements => exact h.elim
  | object members => exact h.elim

/-- Passing over a plain value stops behind its text. -/
theorem skipScalar_write {v : Value} (h : v.IsPlain) {rest : List Char} (hRest : EndsMember rest) :
    skipScalar (v.write ++ rest) = some rest := by
  cases v with
  | null => rfl
  | bool b => cases b <;> rfl
  | nat n =>
      have hNumber := skipNumber_decimal n hRest
      obtain ⟨c, tail, hDecimal, hc⟩ := decimal_eq_cons n
      rw [Value.write]
      rw [hDecimal, List.cons_append] at hNumber ⊢
      rw [skipScalar_of_isDigit hc, hNumber]
  | text s =>
      rw [write_text]
      simp [skipScalar, skipText_flatMap_escape]
  | array elements => exact h.elim
  | object members => exact h.elim

theorem skipSpace_write {v : Value} (h : v.IsPlain) (rest : List Char) :
    skipSpace (v.write ++ rest) = v.write ++ rest := by
  obtain ⟨c, tail, hWrite, _, _, hSpace⟩ := Value.write_eq_cons h
  simp [skipSpace, hWrite, hSpace]

/-- A plain value is read as the text that was written for it. -/
theorem readRaw_write {v : Value} (h : v.IsPlain) {rest : List Char} (hRest : EndsMember rest) :
    readRaw (v.write ++ rest) = some (v.write, rest) := by
  have hSkip : skipValue (v.write ++ rest) = some rest := by
    have hSpace := skipSpace_write h rest
    have hScalar := skipScalar_write h hRest
    obtain ⟨c, tail, hWrite, hArray, hObject, _⟩ := Value.write_eq_cons h
    rw [hWrite, List.cons_append] at hSpace hScalar ⊢
    rw [skipValue, List.length_cons, Nat.mul_add, skipFrom, hSpace]
    simp [hArray, hObject, hScalar, skipFrom]
  rw [readRaw, skipSpace_write h, hSkip]
  simp

/-- The members of a record in the form in which they are read: names, and values as texts. -/
def Value.rawMembers (members : List (String × Value)) : List (List Char × List Char) :=
  members.map fun (name, v) => (name.toList, v.write)

/-- Behind a written name and its colon a member goes on with its value. -/
theorem membersFrom_name (rounds : Nat) (name s : List Char) :
    membersFrom (rounds + 1) (writeText name ++ ':' :: s) =
      (readRaw s).bind fun (raw, rest) =>
        match skipSpace rest with
        | ',' :: rest => do
          let (members, rest) ← membersFrom rounds rest
          some ((name, raw) :: members, rest)
        | '\x7d' :: rest => some ([(name, raw)], rest)
        | _ => none := by
  have hText : writeText name ++ ':' :: s = '"' :: (name.flatMap escape ++ '"' :: (':' :: s)) := by
    simp [writeText]
  have hQuote : ∀ s, readMark '"' ('"' :: s) = some s := fun _ => rfl
  rw [membersFrom, hText, hQuote, Option.bind_eq_bind, Option.bind_some, readText_flatMap_escape]
  rfl

/-- A member is read up to what follows it, which decides whether another round is needed. -/
theorem membersFrom_member (rounds : Nat) (name : List Char) {v : Value} (h : v.IsPlain)
    {rest : List Char} (hRest : EndsMember rest) :
    membersFrom (rounds + 1) (writeText name ++ ':' :: (v.write ++ rest)) =
      match skipSpace rest with
      | ',' :: rest => do
        let (members, rest) ← membersFrom rounds rest
        some ((name, v.write) :: members, rest)
      | '\x7d' :: rest => some ([(name, v.write)], rest)
      | _ => none := by
  rw [membersFrom_name, readRaw_write h hRest]
  rfl

/-- An object is read as the members that were written, in their order. -/
theorem membersFrom_writeMembers {members : List (String × Value)} (hMembers : members ≠ [])
    (hPlain : ∀ member ∈ members, member.2.IsPlain) {rounds : Nat} (hRounds : members.length ≤ rounds)
    (rest : List Char) :
    membersFrom rounds (Value.writeMembers members ++ '\x7d' :: rest) =
      some (Value.rawMembers members, rest) := by
  induction members generalizing rounds with
  | nil => exact (hMembers rfl).elim
  | cons member members ih =>
      obtain ⟨name, v⟩ := member
      have hv : v.IsPlain := hPlain (name, v) List.mem_cons_self
      cases rounds with
      | zero => simp at hRounds
      | succ rounds =>
          cases members with
          | nil =>
              have hStep := membersFrom_member rounds name.toList hv ⟨rest, Or.inr rfl⟩
              rw [Value.writeMembers, List.append_assoc, List.cons_append, hStep]
              rfl
          | cons next members =>
              have hTail := @ih (by simp) (fun m hm => hPlain m (List.mem_cons_of_mem _ hm)) rounds
                (by simpa using hRounds)
              have hStep := membersFrom_member rounds name.toList hv
                ⟨Value.writeMembers (next :: members) ++ '\x7d' :: rest, Or.inl rfl⟩
              have hSplit : Value.writeMembers ((name, v) :: next :: members) ++ '\x7d' :: rest =
                  writeText name.toList ++ ':' ::
                    (v.write ++ ',' :: (Value.writeMembers (next :: members) ++ '\x7d' :: rest)) := by
                simp [Value.writeMembers]
              have hComma : ∀ s, skipSpace (',' :: s) = ',' :: s := fun _ => rfl
              rw [hSplit, hStep, hComma]
              simp [hTail, Value.rawMembers]

/-- Every member takes at least one character, so there are rounds enough for all of them. -/
theorem length_le_length_writeMembers (members : List (String × Value)) :
    members.length ≤ (Value.writeMembers members).length := by
  induction members with
  | nil => simp
  | cons member members ih =>
      cases members with
      | nil =>
          simp [Value.writeMembers]
          omega
      | cons next members =>
          simp [Value.writeMembers] at ih ⊢
          omega

theorem writeMembers_eq_cons {members : List (String × Value)} (h : members ≠ []) :
    ∃ tail, Value.writeMembers members = '"' :: tail := by
  cases members with
  | nil => exact (h rfl).elim
  | cons member members => cases members <;> exact ⟨_, rfl⟩

/-- The members of a written object are read back as they were written. -/
theorem readMembers_write {members : List (String × Value)} (hMembers : members ≠ [])
    (hPlain : ∀ member ∈ members, member.2.IsPlain) (rest : List Char) :
    readMembers ((Value.object members).write ++ rest) = some (Value.rawMembers members, rest) := by
  have hText : (Value.object members).write ++ rest =
      '\x7b' :: (Value.writeMembers members ++ '\x7d' :: rest) := by simp [Value.write]
  have hBrace : ∀ s, readMark '\x7b' ('\x7b' :: s) = some s := fun _ => rfl
  have hQuote : ∀ s, skipSpace ('"' :: s) = '"' :: s := fun _ => rfl
  have hLength := length_le_length_writeMembers members
  have hRead := @membersFrom_writeMembers members hMembers hPlain
    (Value.writeMembers members ++ '\x7d' :: rest).length (by simp; omega) rest
  obtain ⟨tail, hTail⟩ := writeMembers_eq_cons hMembers
  rw [hText, readMembers, hBrace]
  rw [hTail, List.cons_append] at hRead ⊢
  simpa [hQuote] using hRead

/-- The fields of a record are found under their names in what was written for it. -/
theorem recordFields_write {members : List (String × Value)} (hMembers : members ≠ [])
    (hPlain : ∀ member ∈ members, member.2.IsPlain) (names : List String) :
    recordFields names (Value.object members).write =
      names.mapM fun name => memberNamed name.toList (Value.rawMembers members) := by
  have hRead := readMembers_write hMembers hPlain []
  have hText : (Value.object members).write = '\x7b' :: (Value.writeMembers members ++ ['\x7d']) := by
    simp [Value.write]
  have hBrace : ∀ s, skipSpace ('\x7b' :: s) = '\x7b' :: s := fun _ => rfl
  rw [List.append_nil] at hRead
  rw [hText] at hRead ⊢
  rw [recordFields, hBrace]
  simp [hRead, endOfText, skipSpace]

/-- An object whose first member was written starts with it, whatever stands behind. -/
theorem readMembers_first (name : List Char) {v : Value} (hPlain : v.IsPlain) {rest after : List Char}
    {members : List (List Char × List Char)}
    (h : readMembers ('\x7b' :: (writeText name ++ ':' :: (v.write ++ ',' :: rest))) =
      some (members, after)) :
    ∃ others, members = (name, v.write) :: others := by
  have hBrace : ∀ s, readMark '\x7b' ('\x7b' :: s) = some s := fun _ => rfl
  have hQuote : ∀ s, skipSpace (writeText name ++ s) = writeText name ++ s := fun _ => rfl
  have hComma : skipSpace (',' :: rest) = ',' :: rest := rfl
  rw [readMembers, hBrace, Option.bind_eq_bind, Option.bind_some, hQuote] at h
  change membersFrom (_ + 1) (writeText name ++ ':' :: (v.write ++ ',' :: rest)) = _ at h
  rw [membersFrom_member _ name hPlain ⟨rest, Or.inl rfl⟩, hComma] at h
  simp only [Option.bind_eq_bind, Option.bind_eq_some_iff] at h
  obtain ⟨read, _, h⟩ := h
  exact ⟨read.1, (congrArg Prod.fst (Option.some.inj h)).symm⟩

theorem eq_fst_of_endOfText {α : Type} {read : α × List Char} {x : α} (h : endOfText read = some x) :
    x = read.1 := by
  rw [endOfText] at h
  split at h
  · exact (Option.some.inj h).symm
  · cases h

/-- A field is the first member of its name, because there is no second one. -/
theorem memberNamed_cons_self {name raw : List Char} {members : List (List Char × List Char)}
    {field : Option (List Char)} (h : memberNamed name ((name, raw) :: members) = some field) :
    field = some raw := by
  rw [memberNamed, List.filter_cons_of_pos (by simp)] at h
  cases hOthers : members.filter fun member => member.1 = name with
  | nil =>
      rw [hOthers] at h
      exact (Option.some.inj h).symm
  | cons other others =>
      rw [hOthers] at h
      cases h

section Digits

variable {digits : List Char} (h : ∀ c ∈ digits, isDigit c = true)
include h

/-- From digits alone, nothing is left behind a number. -/
theorem skipWhole_digits {rest : List Char} (hSkip : skipWhole digits = some rest) : rest = [] := by
  cases digits with
  | nil => cases hSkip
  | cons c digits =>
      obtain ⟨hFirst, hTail⟩ := List.forall_mem_cons.mp h
      by_cases hZero : c = '0'
      · cases digits with
        | nil => simpa [skipWhole, hZero] using hSkip.symm
        | cons d digits => simp [skipWhole, hZero, hTail d List.mem_cons_self] at hSkip
      · have hAll : digits.dropWhile isDigit = [] := by
          simpa using dropWhile_append hTail (stopsBefore_nil isDigit)
        simpa [skipWhole, hZero, skipDigits, hFirst, hAll] using hSkip.symm

theorem skipNumber_digits {rest : List Char} (hSkip : skipNumber digits = some rest) : rest = [] := by
  cases digits with
  | nil => cases hSkip
  | cons c digits =>
      have hSign : c ≠ '-' := ne_of_isDigit (h c List.mem_cons_self) rfl
      cases hWhole : skipWhole (c :: digits) with
      | none => simp [skipNumber, hSign, hWhole] at hSkip
      | some after =>
          obtain rfl := skipWhole_digits h hWhole
          simpa [skipNumber, hSign, hWhole, skipFraction, skipExponent] using hSkip.symm

theorem readRaw_digits {raw rest : List Char} (hRead : readRaw digits = some (raw, rest)) :
    rest = [] := by
  cases digits with
  | nil => cases hRead
  | cons c digits =>
      have hFirst := h c List.mem_cons_self
      have hSpace : skipSpace (c :: digits) = c :: digits := by
        simp [skipSpace, isSpace_of_isDigit hFirst]
      have hArray : c ≠ '[' := ne_of_isDigit hFirst rfl
      have hObject : c ≠ '\x7b' := ne_of_isDigit hFirst rfl
      have hValue : skipValue (c :: digits) = skipNumber (c :: digits) := by
        rw [skipValue, List.length_cons, Nat.mul_add, skipFrom, hSpace]
        simp [hArray, hObject, skipScalar_of_isDigit hFirst, skipFrom]
      rw [readRaw, hSpace, hValue] at hRead
      obtain ⟨after, hSkip, hPair⟩ := Option.map_eq_some_iff.mp hRead
      obtain ⟨-, rfl⟩ := Prod.mk.inj hPair
      exact skipNumber_digits h hSkip

/-- An object that ends in the numeral of its first member is not read. -/
theorem readMembers_numeral (name : List Char) :
    readMembers ('\x7b' :: (writeText name ++ ':' :: digits)) = none := by
  have hBrace : ∀ s, readMark '\x7b' ('\x7b' :: s) = some s := fun _ => rfl
  have hQuote : ∀ s, skipSpace (writeText name ++ s) = writeText name ++ s := fun _ => rfl
  rw [readMembers, hBrace, Option.bind_eq_bind, Option.bind_some, hQuote]
  change membersFrom (_ + 1) (writeText name ++ ':' :: digits) = none
  rw [membersFrom_name]
  cases hRaw : readRaw digits with
  | none => rfl
  | some read =>
      obtain ⟨raw, rest⟩ := read
      obtain rfl := readRaw_digits h hRaw
      rfl

end Digits

/-- A literal is decoded as the text it was written for. -/
theorem decodeText?_write (s : List Char) : decodeText? (Value.text s).write = some s := by
  have hQuote : ∀ s, readMark '"' ('"' :: s) = some s := fun _ => rfl
  have hRead := readText_flatMap_escape s []
  have hText := write_text s []
  rw [List.append_nil] at hText
  rw [hText, decodeText?, hQuote]
  simp [hRead, endOfText, skipSpace]

/-- A numeral of at most sixty-four bits is decoded as its number. -/
theorem decodeWord64?_write {n : Nat} (h : n ≤ maxWord64) :
    decodeWord64? (Value.nat n).write = some n := by
  have hPlain : (Value.nat n).IsPlain := trivial
  have hSpace := skipSpace_write hPlain []
  have hWhole := skipWhole_decimal n (stopsBefore_nil isDigit)
  simp only [List.append_nil] at hSpace hWhole
  rw [decodeWord64?, hSpace, Value.write, hWhole]
  simp [h, endOfText, skipSpace]

/-- A text is never taken for a missing value. -/
theorem decodeNull?_write_text (s : List Char) : decodeNull? (Value.text s).write = none := by
  rfl

/-- An optional literal is decoded as it was written, missing when it was left out. -/
theorem decodeOptional?_write {α : Type} {decode : List Char → Option α} {toText : α → List Char}
    (h : ∀ x, decode (Value.text (toText x)).write = some x) (value : Option α) :
    decodeOptional? decode (value.map fun x => (Value.text (toText x)).write) = some value := by
  cases value with
  | none => rfl
  | some x => simp [decodeOptional?, decodeNull?_write_text, h]

/-- An optional field with a value was decoded from some text. -/
theorem exists_of_decodeOptional? {α : Type} {decode : List Char → Option α}
    {field : Option (List Char)} {x : α} (h : decodeOptional? decode field = some (some x)) :
    ∃ s, decode s = some x := by
  cases field with
  | none => simp [decodeOptional?] at h
  | some s =>
      rw [decodeOptional?] at h
      split at h
      · simp at h
      · exact ⟨s, by simpa using h⟩

/-- A word of an enumeration is decoded as it was written. -/
theorem decodeWord?_write {α : Type} {ofWord? : List Char → Option α} {word : List Char} {x : α}
    (h : ofWord? word = some x) : decodeWord? ofWord? (Value.text word).write = some x := by
  change (decodeText? (Value.text word).write).bind ofWord? = some x
  rw [decodeText?_write]
  exact h

end BanBoard.Json
