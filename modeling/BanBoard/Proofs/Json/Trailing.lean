import BanBoard.Json.Decode
import BanBoard.Proofs.Json.Rounds

/-!
Space behind a text. A reader that stops inside a text stops in the same place when space is put behind
it, and one that runs out of text finds nothing it could go on with in space. So a record is decoded
alike with space behind it, a carriage return in particular.
-/

namespace BanBoard.Json

open BanBoard.Text

theorem eq_of_isSpace {c : Char} (h : isSpace c = true) :
    c = ' ' ∨ c = '\n' ∨ c = '\t' ∨ c = '\r' := by
  simpa [isSpace, or_assoc] using h

theorem isDigit_of_isSpace {c : Char} (h : isSpace c = true) : isDigit c = false := by
  rcases eq_of_isSpace h with rfl | rfl | rfl | rfl <;> rfl

/-- A character that is not dropped stops the dropping, also at the end. -/
theorem dropWhile_concat {p : Char → Bool} {c : Char} (h : p c = false) (s : List Char) :
    (s ++ [c]).dropWhile p = s.dropWhile p ++ [c] := by
  induction s with
  | nil => simp [h]
  | cons d s ih =>
      cases hd : p d with
      | true => simpa [hd] using ih
      | false => simp [hd]

/-- A reader that leaves space behind the text where it is, and reads the same before it. -/
def LeavesSpace (skip : List Char → Option (List Char)) : Prop :=
  ∀ s c, isSpace c = true → skip (s ++ [c]) = (skip s).map (· ++ [c])

/-- The same for a reader that has a result. -/
def ReadsBefore {α : Type} (read : List Char → Option (α × List Char)) : Prop :=
  ∀ s c, isSpace c = true → read (s ++ [c]) = (read s).map fun (x, rest) => (x, rest ++ [c])

/-- Two readers that leave a space behind leave it one after the other. -/
theorem LeavesSpace.bind {first second : List Char → Option (List Char)} (hFirst : LeavesSpace first)
    (hSecond : LeavesSpace second) : LeavesSpace fun s => (first s).bind second := by
  intro s c hSpace
  dsimp only
  rw [hFirst s c hSpace]
  cases first s with
  | none => rfl
  | some rest => exact hSecond rest c hSpace

theorem leavesSpace_skipDigits : LeavesSpace skipDigits := by
  intro s c hSpace
  have hDigit := isDigit_of_isSpace hSpace
  cases s with
  | nil => simp [skipDigits, hDigit]
  | cons d s => cases hd : isDigit d <;> simp [skipDigits, hd, dropWhile_concat hDigit]

theorem leavesSpace_skipFraction : LeavesSpace skipFraction := by
  intro s c hSpace
  cases s with
  | nil => rcases eq_of_isSpace hSpace with rfl | rfl | rfl | rfl <;> rfl
  | cons d s =>
      by_cases hd : d = '.'
      · subst hd
        exact leavesSpace_skipDigits s c hSpace
      · simp [skipFraction, hd]

theorem leavesSpace_skipExponent : LeavesSpace skipExponent := by
  intro s c hSpace
  cases s with
  | nil => rcases eq_of_isSpace hSpace with rfl | rfl | rfl | rfl <;> rfl
  | cons d s =>
      by_cases hd : d = 'e' ∨ d = 'E'
      · cases s with
        | nil =>
            rcases eq_of_isSpace hSpace with rfl | rfl | rfl | rfl <;>
              simp [skipExponent, hd, skipDigits, isDigit]
        | cons sign s =>
            by_cases hPlus : sign = '+'
            · simp [skipExponent, hd, hPlus, leavesSpace_skipDigits s c hSpace]
            · by_cases hMinus : sign = '-'
              · simp [skipExponent, hd, hMinus, leavesSpace_skipDigits s c hSpace]
              · have hDigits := leavesSpace_skipDigits (sign :: s) c hSpace
                simpa [skipExponent, hd, hPlus, hMinus] using hDigits
      · simp [skipExponent, hd]

theorem leavesSpace_skipWhole : LeavesSpace skipWhole := by
  intro s c hSpace
  have hDigit := isDigit_of_isSpace hSpace
  cases s with
  | nil => rcases eq_of_isSpace hSpace with rfl | rfl | rfl | rfl <;> rfl
  | cons d s =>
      by_cases hd : d = '0'
      · cases s with
        | nil => simp [skipWhole, hd, hDigit]
        | cons e s => cases he : isDigit e <;> simp [skipWhole, hd, he]
      · simpa [skipWhole, hd] using leavesSpace_skipDigits (d :: s) c hSpace

theorem leavesSpace_skipNumber : LeavesSpace skipNumber := by
  have hUnsigned := (leavesSpace_skipWhole.bind leavesSpace_skipFraction).bind leavesSpace_skipExponent
  intro s c hSpace
  cases s with
  | nil => rcases eq_of_isSpace hSpace with rfl | rfl | rfl | rfl <;> rfl
  | cons d s =>
      by_cases hd : d = '-'
      · simpa [skipNumber, hd, Option.bind_assoc] using hUnsigned s c hSpace
      · simpa [skipNumber, hd, Option.bind_assoc] using hUnsigned (d :: s) c hSpace

theorem leavesSpace_skipWord {word : List Char} (h : ∀ c ∈ word, isSpace c = false) :
    LeavesSpace (skipWord word) := by
  induction word with
  | nil => exact fun _ _ _ => rfl
  | cons d word ih =>
      obtain ⟨hHead, hTail⟩ := List.forall_mem_cons.mp h
      intro s c hSpace
      cases s with
      | nil =>
          have hOther : d ≠ c := by
            rintro rfl
            simp [hHead] at hSpace
          simp [skipWord, hOther]
      | cons e s =>
          by_cases hSame : d = e
          · simpa [skipWord, hSame] using ih hTail s c hSpace
          · simp [skipWord, hSame]

theorem readsBefore_readHex (count acc : Nat) : ReadsBefore (readHex count acc) := by
  intro s c hSpace
  have hNone : digitValue? 16 c = none := by
    rcases eq_of_isSpace hSpace with rfl | rfl | rfl | rfl <;> rfl
  induction count generalizing acc s with
  | zero => rfl
  | succ count ih =>
      cases s with
      | nil => simp [readHex, hNone]
      | cons d s => cases hd : digitValue? 16 d <;> simp [readHex, hd, ih]

theorem readsBefore_readUnit : ReadsBefore readUnit := by
  intro s c hSpace
  cases s with
  | nil => rcases eq_of_isSpace hSpace with rfl | rfl | rfl | rfl <;> rfl
  | cons d s =>
      by_cases hd : d = 'u'
      · simpa [readUnit, hd] using readsBefore_readHex 4 0 s c hSpace
      · cases hShort : shortEscape? d <;> simp [readUnit, hd, hShort]

theorem readPair_eq_none {high : Nat} {s : List Char} (h : ∀ rest, s ≠ '\\' :: 'u' :: rest) :
    readPair high s = none := by
  fun_cases readPair high s with
  | case1 rest hHex => exact (h rest rfl).elim
  | case2 rest low after hHex hLow => exact (h rest rfl).elim
  | case3 rest low after hHex hLow => exact (h rest rfl).elim
  | case4 => rfl

/-- A pair ends with its second escape, before any space. -/
theorem readsBefore_readPair (high : Nat) : ReadsBefore (readPair high) := by
  intro s c hSpace
  have hOther : c ≠ '\\' ∧ c ≠ 'u' := by
    rcases eq_of_isSpace hSpace with rfl | rfl | rfl | rfl <;> decide
  by_cases hPair : ∃ rest, s = '\\' :: 'u' :: rest
  · obtain ⟨rest, rfl⟩ := hPair
    have hHex := readsBefore_readHex 4 0 rest c hSpace
    cases hRead : readHex 4 0 rest with
    | none => simp [readPair, hHex, hRead]
    | some read => cases hLow : isLowSurrogate read.1 <;> simp [readPair, hHex, hRead, hLow]
  · have hNone : ∀ rest, s ++ [c] ≠ '\\' :: 'u' :: rest := by
      rintro rest hEq
      rcases s with _ | ⟨d, _ | ⟨e, s⟩⟩
      · simp [hOther.1] at hEq
      · simp [hOther.2] at hEq
      · exact hPair ⟨s, by simp_all⟩
    rw [readPair_eq_none hNone, readPair_eq_none fun rest hEq => hPair ⟨rest, hEq⟩]
    rfl

/-- An escape is read the same with a space behind the text. -/
theorem readsBefore_readEscape : ReadsBefore readEscape := by
  intro s c hSpace
  have hUnit := readsBefore_readUnit s c hSpace
  cases hRead : readUnit s with
  | none => simp [readEscape, hUnit, hRead]
  | some read =>
      cases hHigh : isHighSurrogate read.1 with
      | true => simp [readEscape, hUnit, hRead, hHigh, readsBefore_readPair read.1 read.2 c hSpace]
      | false => cases hLow : isLowSurrogate read.1 <;> simp [readEscape, hUnit, hRead, hHigh, hLow]

/-- A backslash without an escape is an error, and a space behind it does not mend it. -/
theorem readText_stray {s : List Char} (h : readEscape s = none) : readText ('\\' :: s) = none := by
  rw [readText]
  simp only [Char.reduceEq, if_false, if_true]
  split
  · rfl
  · simp_all

theorem skipText_stray {s : List Char} (h : readUnit s = none) : skipText ('\\' :: s) = none := by
  rw [skipText]
  simp only [Char.reduceEq, if_false, if_true]
  split
  · rfl
  · simp_all

/-- A text ends with its quote, before any space. -/
theorem readsBefore_readText : ReadsBefore readText := by
  intro s c hSpace
  fun_induction readText s with
  | case1 =>
      rw [List.nil_append, readText]
      rcases eq_of_isSpace hSpace with rfl | rfl | rfl | rfl <;> simp [isControl, readText]
  | case2 rest => simp [readText_quote]
  | case3 rest hEscape _ =>
      have hStill := readsBefore_readEscape rest c hSpace
      rw [hEscape] at hStill
      rw [List.cons_append, readText_stray hStill]
      rfl
  | case4 rest d after hEscape _ ih =>
      have hStill := readsBefore_readEscape rest c hSpace
      rw [hEscape] at hStill
      rw [List.cons_append, readText_backslash hStill, ih]
      simp [Function.comp_def]
  | case5 d rest hQuote hBackslash hControl =>
      rw [List.cons_append, readText]
      simp [hQuote, hBackslash, hControl]
  | case6 d rest hQuote hBackslash hControl ih =>
      rw [List.cons_append, readText_plain hQuote hBackslash (by simpa using hControl), ih]
      simp [Function.comp_def]

theorem leavesSpace_skipText : LeavesSpace skipText := by
  intro s c hSpace
  fun_induction skipText s with
  | case1 =>
      rw [List.nil_append, skipText]
      rcases eq_of_isSpace hSpace with rfl | rfl | rfl | rfl <;> simp [isControl, skipText]
  | case2 rest => simp [skipText_quote]
  | case3 rest hUnit _ =>
      have hStill := readsBefore_readUnit rest c hSpace
      rw [hUnit] at hStill
      rw [List.cons_append, skipText_stray hStill]
      rfl
  | case4 rest unit after hUnit _ ih =>
      have hStill := readsBefore_readUnit rest c hSpace
      rw [hUnit] at hStill
      rw [List.cons_append, skipText_backslash hStill, ih]
  | case5 d rest hQuote hBackslash hControl =>
      rw [List.cons_append, skipText]
      simp [hQuote, hBackslash, hControl]
  | case6 d rest hQuote hBackslash hControl ih =>
      rw [List.cons_append, skipText]
      simp [hQuote, hBackslash, hControl, ih]

theorem leavesSpace_skipScalar : LeavesSpace skipScalar := by
  intro s c hSpace
  cases s with
  | nil => rcases eq_of_isSpace hSpace with rfl | rfl | rfl | rfl <;> rfl
  | cons d s =>
      have hNumber := leavesSpace_skipNumber (d :: s) c hSpace
      have hWord {word : List Char} (h : ∀ c ∈ word, isSpace c = false) :=
        leavesSpace_skipWord h s c hSpace
      rw [List.cons_append] at hNumber
      simp only [List.cons_append, skipScalar]
      split
      · exact leavesSpace_skipText s c hSpace
      · split
        · exact hWord (by simp [isSpace])
        · split
          · exact hWord (by simp [isSpace])
          · split
            · exact hWord (by simp [isSpace])
            · exact hNumber

/-- A space at the end is skipped only with everything before it. -/
theorem skipSpace_concat {c : Char} (h : isSpace c = true) (s : List Char) :
    skipSpace (s ++ [c]) = if (skipSpace s).isEmpty then [] else skipSpace s ++ [c] := by
  induction s with
  | nil => simp [skipSpace, h]
  | cons d s ih =>
      cases hd : isSpace d with
      | true => simpa [skipSpace, hd] using ih
      | false => simp [skipSpace, hd]

theorem leavesSpace_readMark (mark : Char) : LeavesSpace (readMark mark) := by
  intro s c hSpace
  rw [readMark, readMark, skipSpace_concat hSpace]
  cases skipSpace s with
  | nil => rfl
  | cons d rest => by_cases hd : d = mark <;> simp [hd]

theorem leavesSpace_skipName : LeavesSpace skipName := by
  have hName := (leavesSpace_readMark '"').bind (leavesSpace_skipText.bind (leavesSpace_readMark ':'))
  intro s c hSpace
  simpa [skipName] using hName s c hSpace

/-- A round takes no notice of space behind the text. -/
theorem skipStep_concat {c : Char} (hSpace : isSpace c = true) (pos : Position)
    (stack : List Container) (s : List Char) :
    skipStep pos stack (s ++ [c]) =
      (skipStep pos stack s).map fun (pos, stack, rest) => (pos, stack, rest ++ [c]) := by
  have hSkip := skipSpace_concat hSpace s
  cases hs : skipSpace s with
  -- There is only space, and no position goes on with that.
  | nil =>
      rw [hs, List.isEmpty_nil, if_pos rfl] at hSkip
      rcases pos with _ | _ | _ <;> rcases stack with _ | ⟨_ | _, stack⟩ <;>
        simp only [skipStep, hs, hSkip] <;> rfl
  | cons d rest =>
      rw [hs, List.isEmpty_cons, if_neg Bool.false_ne_true] at hSkip
      have hScalar := leavesSpace_skipScalar (d :: rest) c hSpace
      have hName (s : List Char) := leavesSpace_skipName s c hSpace
      have hMember := hName (d :: rest)
      rw [List.cons_append] at hScalar hMember hSkip
      cases pos with
      | value =>
          by_cases hArray : d = '['
          · simp [skipStep, hs, hSkip, hArray]
          · by_cases hObject : d = '\x7b'
            · simp [skipStep, hs, hSkip, hObject]
            · simp [skipStep, hs, hSkip, hArray, hObject, hScalar, Function.comp_def]
      | first =>
          rcases stack with _ | ⟨_ | _, stack⟩
          · rfl
          · by_cases hEnd : d = ']' <;> simp [skipStep, hs, hSkip, hEnd]
          · by_cases hEnd : d = '\x7d' <;>
              simp [skipStep, hs, hSkip, hEnd, hMember, Function.comp_def]
      | after =>
          rcases stack with _ | ⟨_ | _, stack⟩
          · rfl
          · by_cases hComma : d = ','
            · simp [skipStep, hs, hSkip, hComma]
            · by_cases hEnd : d = ']' <;> simp [skipStep, hs, hSkip, hComma, hEnd]
          · by_cases hComma : d = ','
            · simp [skipStep, hs, hSkip, hComma, hName, Function.comp_def]
            · by_cases hEnd : d = '\x7d' <;> simp [skipStep, hs, hSkip, hComma, hEnd]

/-- A container ends before a space too, by induction on the rounds. -/
theorem leavesSpace_skipFrom (rounds : Nat) (pos : Position) (stack : List Container) :
    LeavesSpace (skipFrom rounds pos stack) := by
  intro s c hSpace
  induction rounds generalizing pos stack s with
  | zero => rfl
  | succ rounds ih =>
      by_cases hOpen : pos ≠ .after ∨ stack ≠ []
      · rw [skipFrom_succ _ hOpen, skipFrom_succ _ hOpen, skipStep_concat hSpace]
        cases skipStep pos stack s with
        | none => rfl
        | some step => exact ih step.1 step.2.1 step.2.2
      · obtain ⟨rfl, rfl⟩ : pos = .after ∧ stack = [] := by simpa using hOpen
        rw [skipFrom_closed, skipFrom_closed, Option.map_some]

theorem leavesSpace_skipValue : LeavesSpace skipValue := by
  intro s c hSpace
  -- The longer text is given two rounds more, which are not used.
  have hRounds : 2 * (s ++ [c]).length + 2 = (2 * s.length + 2) + 2 := by
    rw [List.length_append, List.length_singleton]
    omega
  have hEnough : roundsFor .value s.length ≤ 2 * s.length + 2 := Nat.le_succ _
  rw [skipValue, skipValue, hRounds, leavesSpace_skipFrom _ _ _ s c hSpace, skipFrom_add hEnough]

/-- What a value is written with has no space behind it. -/
theorem readsBefore_readRaw : ReadsBefore readRaw := by
  intro s c hSpace
  have hSkip := skipSpace_concat hSpace s
  cases hs : skipSpace s with
  | nil =>
      rw [hs, List.isEmpty_nil, if_pos rfl] at hSkip
      rw [readRaw, readRaw, hSkip, hs]
      rfl
  | cons d text =>
      rw [hs, List.isEmpty_cons, if_neg Bool.false_ne_true] at hSkip
      simp only [readRaw, hSkip, hs, leavesSpace_skipValue (d :: text) c hSpace, Option.map_map]
      refine Option.map_congr fun rest hRest => ?_
      have hLess : rest.length ≤ (d :: text).length := length_skipFrom_le hRest
      have hCut : ((d :: text) ++ [c]).length - (rest ++ [c]).length =
          (d :: text).length - rest.length := by
        simp only [List.length_append, List.length_singleton]
        omega
      simp only [Function.comp_apply, hCut]
      rw [List.take_append_of_le_length (Nat.sub_le _ _)]

section Parts

variable {α : Type} {read : List Char → Option (α × List Char)} (start close : Char)

/-- Parts of a sequence end with the mark that closes it. -/
theorem readsBefore_partsFrom (hRead : ReadsBefore read) (rounds : Nat) :
    ReadsBefore (partsFrom read close rounds) := by
  intro s c hSpace
  induction rounds generalizing s with
  | zero => rfl
  | succ rounds ih =>
      rw [partsFrom, partsFrom, hRead s c hSpace]
      cases read s with
      | none => rfl
      | some first =>
          simp only [Option.map_some, Option.bind_some, skipSpace_concat hSpace]
          cases skipSpace first.2 with
          | nil => rfl
          | cons mark rest =>
              by_cases hComma : mark = ','
              · simp [hComma, ih, Function.comp_def]
              · simp only [hComma, if_false, List.isEmpty_cons, Bool.false_eq_true, List.cons_append]
                split <;> rfl

/-- A sequence is read the same with a space behind it. -/
theorem readsBefore_readParts (hRead : ReadsBefore read) (hNone : read [] = none)
    (hShorter : ∀ s part rest, read s = some (part, rest) → rest.length ≤ s.length) :
    ReadsBefore (readParts read start close) := by
  intro s c hSpace
  rw [readParts, readParts, leavesSpace_readMark start s c hSpace]
  cases readMark start s with
  | none => rfl
  | some s =>
      simp only [Option.map_some, Option.bind_some, skipSpace_concat hSpace]
      cases skipSpace s with
      | nil => rfl
      | cons mark rest =>
          have hLength : (mark :: (rest ++ [c])).length = (mark :: rest).length + 1 := by simp
          have hParts := readsBefore_partsFrom close hRead ((mark :: rest).length + 1) (mark :: rest)
            c hSpace
          rw [partsFrom_add close hNone hShorter (Nat.le_refl _), List.cons_append] at hParts
          simp only [List.isEmpty_cons, Bool.false_eq_true, if_false, List.cons_append, hLength, hParts]
          split <;> rfl

end Parts

theorem readsBefore_readElements : ReadsBefore readElements := by
  rw [funext readElements_eq]
  exact readsBefore_readParts _ _ readsBefore_readRaw rfl length_readRaw_le

theorem readsBefore_readMember : ReadsBefore readMember := by
  intro s c hSpace
  simp only [readMember, Option.bind_eq_bind, leavesSpace_readMark _ s c hSpace]
  cases readMark '"' s with
  | none => rfl
  | some s =>
      simp only [Option.map_some, Option.bind_some, readsBefore_readText s c hSpace]
      cases readText s with
      | none => rfl
      | some name =>
          simp only [Option.map_some, Option.bind_some, leavesSpace_readMark _ name.2 c hSpace]
          cases readMark ':' name.2 with
          | none => rfl
          | some s =>
              simp only [Option.map_some, Option.bind_some, readsBefore_readRaw s c hSpace]
              cases readRaw s <;> rfl

theorem readsBefore_readMembers : ReadsBefore readMembers := by
  rw [funext readMembers_eq]
  exact readsBefore_readParts _ _ readsBefore_readMember rfl length_readMember_le

/-- Behind the value, one space more makes no difference. -/
theorem endOfText_concat {α : Type} {c : Char} (hSpace : isSpace c = true) (x : α)
    (rest : List Char) : endOfText (x, rest ++ [c]) = endOfText (x, rest) := by
  rw [endOfText, endOfText, skipSpace_concat hSpace]
  cases skipSpace rest <;> rfl

/-- A whole text is read the same with a space behind it. -/
theorem ReadsBefore.endOfText {α : Type} {read : List Char → Option (α × List Char)}
    (hRead : ReadsBefore read) {c : Char} (hSpace : isSpace c = true) (s : List Char) :
    (read (s ++ [c])).bind endOfText = (read s).bind endOfText := by
  rw [hRead s c hSpace]
  cases read s with
  | none => rfl
  | some first => exact endOfText_concat hSpace first.1 first.2

/-- A record has the same fields with a space behind it, whichever form it is in. -/
theorem recordFields_concat (names : List String) {c : Char} (hSpace : isSpace c = true)
    (s : List Char) : recordFields names (s ++ [c]) = recordFields names s := by
  have hElements := readsBefore_readElements.endOfText hSpace s
  have hMembers := readsBefore_readMembers.endOfText hSpace s
  rw [recordFields, recordFields, hElements, hMembers, skipSpace_concat hSpace]
  cases skipSpace s with
  | nil => rfl
  | cons mark rest => by_cases hArray : mark = '[' <;> simp [hArray]

end BanBoard.Json
