import BanBoard.Json.Raw
import BanBoard.Proofs.Json.Text

/-!
Enough rounds. A reader leaves a shorter text than it was given, so as many rounds as the readers of
values and containers are given are never used up, and further ones change nothing. A value is passed
over by steps on the stack of open containers, and arrays and objects are read by the same loop over
parts.
-/

namespace BanBoard.Json

open BanBoard.Text

section Shorter

variable {s rest : List Char}

theorem length_skipDigits_lt (h : skipDigits s = some rest) : rest.length < s.length := by
  cases s with
  | nil => cases h
  | cons c s =>
      have hLess := (List.dropWhile_suffix isDigit (l := s)).length_le
      grind [skipDigits]

theorem length_skipFraction_le (h : skipFraction s = some rest) : rest.length ≤ s.length := by
  unfold skipFraction at h
  split at h
  · exact Nat.le_succ_of_le (Nat.le_of_lt (length_skipDigits_lt h))
  · exact Nat.le_of_eq (congrArg List.length (Option.some.inj h)).symm

theorem length_skipExponent_le (h : skipExponent s = some rest) : rest.length ≤ s.length := by
  have hDigits {s : List Char} (h : skipDigits s = some rest) := length_skipDigits_lt h
  unfold skipExponent at h
  grind

theorem length_skipWhole_lt (h : skipWhole s = some rest) : rest.length < s.length := by
  have hDigits {s : List Char} (h : skipDigits s = some rest) := length_skipDigits_lt h
  unfold skipWhole at h
  grind

theorem length_skipNumber_lt (h : skipNumber s = some rest) : rest.length < s.length := by
  simp only [skipNumber, Option.bind_eq_bind, Option.bind_eq_some_iff] at h
  obtain ⟨afterWhole, hWhole, afterFraction, hFraction, hExponent⟩ := h
  have hWholeLess := length_skipWhole_lt hWhole
  have hFractionLess := length_skipFraction_le hFraction
  have hExponentLess := length_skipExponent_le hExponent
  split at hWholeLess
  · simp only [List.length_cons]
    omega
  · omega

theorem length_skipWord_le {word : List Char} (h : skipWord word s = some rest) :
    rest.length ≤ s.length := by
  fun_induction skipWord word s with
  | case1 s => exact Nat.le_of_eq (congrArg List.length (Option.some.inj h)).symm
  | case2 => cases h
  | case3 word d s ih => exact Nat.le_succ_of_le (ih h)
  | case4 => cases h

theorem length_skipText_lt (h : skipText s = some rest) : rest.length < s.length := by
  fun_induction skipText s with
  | case1 => cases h
  | case2 s => simp [Option.some.inj h]
  | case3 => cases h
  | case4 s unit after hUnit _ ih =>
      have hLess := length_readUnit_lt hUnit
      have hRest := ih h
      simp only [List.length_cons]
      omega
  | case5 => cases h
  | case6 c s _ _ _ ih => exact Nat.lt_succ_of_lt (ih h)

theorem length_readText_lt {text : List Char} (h : readText s = some (text, rest)) :
    rest.length < s.length := by
  fun_induction readText s generalizing text with
  | case1 => cases h
  | case2 s =>
      obtain ⟨-, rfl⟩ := Prod.mk.inj (Option.some.inj h)
      exact Nat.lt_succ_self _
  | case3 => cases h
  | case4 s c after hEscape _ ih =>
      obtain ⟨read, hRead, hPair⟩ := Option.map_eq_some_iff.mp h
      obtain ⟨-, rfl⟩ := Prod.mk.inj hPair
      have hLess := length_readEscape_lt hEscape
      have hRest := ih hRead
      simp only [List.length_cons]
      omega
  | case5 => cases h
  | case6 c s _ _ _ ih =>
      obtain ⟨read, hRead, hPair⟩ := Option.map_eq_some_iff.mp h
      obtain ⟨-, rfl⟩ := Prod.mk.inj hPair
      exact Nat.lt_succ_of_lt (ih hRead)

theorem length_skipScalar_lt (h : skipScalar s = some rest) : rest.length < s.length := by
  cases s with
  | nil => cases h
  | cons c s =>
      simp only [skipScalar] at h
      split at h
      · exact Nat.lt_succ_of_lt (length_skipText_lt h)
      · split at h
        · exact Nat.lt_succ_of_le (length_skipWord_le h)
        · split at h
          · exact Nat.lt_succ_of_le (length_skipWord_le h)
          · split at h
            · exact Nat.lt_succ_of_le (length_skipWord_le h)
            · exact length_skipNumber_lt h

theorem length_skipSpace_le (s : List Char) : (skipSpace s).length ≤ s.length :=
  (List.dropWhile_suffix isSpace).length_le

theorem length_readMark_lt {mark : Char} (h : readMark mark s = some rest) :
    rest.length < s.length := by
  have hLess := length_skipSpace_le s
  grind [readMark]

theorem length_skipName_lt (h : skipName s = some rest) : rest.length < s.length := by
  simp only [skipName, Option.bind_eq_bind, Option.bind_eq_some_iff] at h
  obtain ⟨afterQuote, hQuote, afterName, hName, hColon⟩ := h
  have hQuoteLess := length_readMark_lt hQuote
  have hNameLess := length_skipText_lt hName
  have hColonLess := length_readMark_lt hColon
  omega

end Shorter

/-- One round of passing over a value, which is over when nothing is left to be closed. -/
def skipStep : Position → List Container → List Char →
    Option (Position × List Container × List Char)
  | .value, stack, s =>
    match skipSpace s with
    | '[' :: rest => some (.first, .array :: stack, rest)
    | '\x7b' :: rest => some (.first, .object :: stack, rest)
    | s => (skipScalar s).map fun rest => (.after, stack, rest)
  | .first, [], _ => none
  | .first, .array :: stack, s =>
    match skipSpace s with
    | ']' :: rest => some (.after, stack, rest)
    | _ => some (.value, .array :: stack, s)
  | .first, .object :: stack, s =>
    match skipSpace s with
    | '\x7d' :: rest => some (.after, stack, rest)
    | s => (skipName s).map fun rest => (.value, .object :: stack, rest)
  | .after, [], _ => none
  | .after, .array :: stack, s =>
    match skipSpace s with
    | ',' :: rest => some (.value, .array :: stack, rest)
    | ']' :: rest => some (.after, stack, rest)
    | _ => none
  | .after, .object :: stack, s =>
    match skipSpace s with
    | ',' :: rest => (skipName rest).map fun rest => (.value, .object :: stack, rest)
    | '\x7d' :: rest => some (.after, stack, rest)
    | _ => none

theorem skipSpace_skipSpace (s : List Char) : skipSpace (skipSpace s) = skipSpace s :=
  (stopsBefore_dropWhile isSpace s).dropWhile_eq

theorem skipFrom_value_skipSpace (rounds : Nat) (stack : List Container) (s : List Char) :
    skipFrom rounds .value stack (skipSpace s) = skipFrom rounds .value stack s := by
  cases rounds with
  | zero => rfl
  | succ rounds => rw [skipFrom, skipFrom, skipSpace_skipSpace]

/-- With no container open, a value that is over is the end. -/
theorem skipFrom_closed (rounds : Nat) (s : List Char) : skipFrom (rounds + 1) .after [] s = some s := by
  simp [skipFrom]

/-- One round is one step, as long as there is something to do. -/
theorem skipFrom_succ (rounds : Nat) {pos : Position} {stack : List Container}
    (h : pos ≠ .after ∨ stack ≠ []) (s : List Char) :
    skipFrom (rounds + 1) pos stack s =
      (skipStep pos stack s).bind fun (pos, stack, rest) => skipFrom rounds pos stack rest := by
  fun_cases skipStep pos stack s with
  | case3 | case8 | case13 =>
      simp only [skipFrom, Option.bind_map, *]
      rfl
  -- The first element is looked for behind the space that was passed over already.
  | case6 => simp [skipFrom, skipFrom_value_skipSpace, *]
  | case9 => simp at h
  | _ => simp [skipFrom, *]

/-- How many rounds suffice from a position. -/
def roundsFor : Position → Nat → Nat
  | .first, length => 2 * length + 2
  | _, length => 2 * length + 1

/-- A round reads a character, except for the one that only turns from an opened container to its first
value. -/
theorem roundsFor_skipStep {pos next : Position} {stack open_ : List Container} {s rest : List Char}
    (h : skipStep pos stack s = some (next, open_, rest)) :
    roundsFor next rest.length < roundsFor pos s.length ∧ rest.length ≤ s.length := by
  have hLess := length_skipSpace_le s
  fun_cases skipStep pos stack s with
  -- A value that is no container.
  | case3 =>
      simp only [skipStep, *] at h
      obtain ⟨_, hScalar, hEq⟩ := Option.map_eq_some_iff.mp h
      have hScalar := length_skipScalar_lt hScalar
      grind [roundsFor]
  -- The name of a first or of a later member.
  | case8 | case13 =>
      simp only [skipStep, *] at h
      obtain ⟨_, hName, hEq⟩ := Option.map_eq_some_iff.mp h
      have hName := length_skipName_lt hName
      grind [roundsFor]
  | _ => grind [skipStep, roundsFor]

/-- More rounds than suffice change nothing. -/
theorem skipFrom_add {rounds : Nat} {pos : Position} {stack : List Container} {s : List Char}
    (h : roundsFor pos s.length ≤ rounds) (extra : Nat) :
    skipFrom (rounds + extra) pos stack s = skipFrom rounds pos stack s := by
  induction rounds generalizing pos stack s with
  | zero => cases pos <;> simp [roundsFor] at h
  | succ rounds ih =>
      rw [Nat.add_right_comm]
      by_cases hOpen : pos ≠ .after ∨ stack ≠ []
      · rw [skipFrom_succ _ hOpen, skipFrom_succ _ hOpen]
        refine Option.bind_congr fun step hStep => ih ?_
        have hLess := (roundsFor_skipStep hStep).1
        omega
      · obtain ⟨rfl, rfl⟩ : pos = .after ∧ stack = [] := by simpa using hOpen
        rw [skipFrom_closed, skipFrom_closed]

theorem length_skipFrom_le {rounds : Nat} {pos : Position} {stack : List Container}
    {s rest : List Char} (h : skipFrom rounds pos stack s = some rest) : rest.length ≤ s.length := by
  induction rounds generalizing pos stack s with
  | zero => cases h
  | succ rounds ih =>
      by_cases hOpen : pos ≠ .after ∨ stack ≠ []
      · rw [skipFrom_succ _ hOpen] at h
        obtain ⟨step, hStep, hRest⟩ := Option.bind_eq_some_iff.mp h
        exact Nat.le_trans (ih hRest) (roundsFor_skipStep hStep).2
      · obtain ⟨rfl, rfl⟩ : pos = .after ∧ stack = [] := by simpa using hOpen
        rw [skipFrom_closed] at h
        exact Nat.le_of_eq (congrArg List.length (Option.some.inj h)).symm

/-- A raw part is a beginning of what stood there. -/
theorem length_readRaw_le (s part rest : List Char) (h : readRaw s = some (part, rest)) :
    rest.length ≤ s.length := by
  obtain ⟨_, hValue, hPair⟩ := Option.map_eq_some_iff.mp h
  obtain ⟨-, rfl⟩ := Prod.mk.inj hPair
  exact Nat.le_trans (length_skipFrom_le hValue) (length_skipSpace_le s)

section Parts

variable {α : Type}

/-- Read parts with commas between them, up to a closing mark. -/
def partsFrom (read : List Char → Option (α × List Char)) (close : Char) :
    (rounds : Nat) → List Char → Option (List α × List Char)
  | 0, _ => none
  | rounds + 1, s =>
    (read s).bind fun (part, s) =>
      match skipSpace s with
      | [] => none
      | mark :: rest =>
        if mark = ',' then
          (partsFrom read close rounds rest).map fun (parts, rest) => (part :: parts, rest)
        else if mark = close then some ([part], rest)
        else none

def readParts (read : List Char → Option (α × List Char)) (start close : Char) (s : List Char) :
    Option (List α × List Char) :=
  (readMark start s).bind fun s =>
    match skipSpace s with
    | [] => none
    | mark :: rest =>
      if mark = close then some ([], rest)
      else partsFrom read close (mark :: rest).length (mark :: rest)

variable {read : List Char → Option (α × List Char)} (close : Char)

/-- More rounds than characters change nothing. -/
theorem partsFrom_add (hNone : read [] = none)
    (hShorter : ∀ s part rest, read s = some (part, rest) → rest.length ≤ s.length) {rounds : Nat}
    {s : List Char} (h : s.length ≤ rounds) (extra : Nat) :
    partsFrom read close (rounds + extra) s = partsFrom read close rounds s := by
  induction rounds generalizing s with
  | zero =>
      obtain rfl := List.eq_nil_of_length_eq_zero (Nat.le_zero.mp h)
      cases extra <;> simp [partsFrom, hNone]
  | succ rounds ih =>
      rw [Nat.add_right_comm, partsFrom, partsFrom]
      refine Option.bind_congr fun first hFirst => ?_
      have hLess := hShorter s first.1 first.2 hFirst
      have hSkip := length_skipSpace_le first.2
      dsimp only
      cases hMark : skipSpace first.2 with
      | nil => rfl
      | cons mark rest =>
          have hRest : rest.length ≤ rounds := by
            rw [hMark, List.length_cons] at hSkip
            omega
          simp only [ih hRest]

end Parts

/-- Elements are parts of a sequence with their own mark at the end. -/
theorem elementsFrom_eq (rounds : Nat) (s : List Char) :
    elementsFrom rounds s = partsFrom readRaw ']' rounds s := by
  induction rounds generalizing s with
  | zero => rfl
  | succ rounds ih =>
      rw [elementsFrom, partsFrom]
      refine Option.bind_congr fun first _ => ?_
      dsimp only
      cases skipSpace first.2 with
      | nil => rfl
      | cons mark rest =>
          by_cases hComma : mark = ','
          · simp only [hComma, ih, Option.map_eq_bind, if_true]
            rfl
          · by_cases hClose : mark = ']' <;> simp [hComma, hClose]

/-- The elements of an array are read as parts between brackets. -/
theorem readElements_eq (s : List Char) : readElements s = readParts readRaw '[' ']' s := by
  rw [readElements, readParts]
  refine Option.bind_congr fun s _ => ?_
  cases hs : skipSpace s with
  | nil => rfl
  | cons mark rest => by_cases hClose : mark = ']' <;> simp [hClose, elementsFrom_eq]

/-- Read a member as its name and the text of its value. -/
def readMember (s : List Char) : Option ((List Char × List Char) × List Char) := do
  let s ← readMark '"' s
  let (name, s) ← readText s
  let s ← readMark ':' s
  let (raw, s) ← readRaw s
  some ((name, raw), s)

/-- Members are parts of a sequence like the elements, only with another mark. -/
theorem membersFrom_eq (rounds : Nat) (s : List Char) :
    membersFrom rounds s = partsFrom readMember '\x7d' rounds s := by
  induction rounds generalizing s with
  | zero => rfl
  | succ rounds ih =>
      simp only [membersFrom, partsFrom, readMember, Option.bind_eq_bind, Option.bind_assoc,
        Option.bind_some]
      refine Option.bind_congr fun s _ => Option.bind_congr fun name _ =>
        Option.bind_congr fun s _ => Option.bind_congr fun raw _ => ?_
      cases skipSpace raw.2 with
      | nil => rfl
      | cons mark rest =>
          by_cases hComma : mark = ','
          · simp only [hComma, ih, Option.map_eq_bind, if_true]
            rfl
          · by_cases hClose : mark = '\x7d' <;> simp [hComma, hClose]

/-- The members of an object are read as parts between braces. -/
theorem readMembers_eq (s : List Char) : readMembers s = readParts readMember '\x7b' '\x7d' s := by
  rw [readMembers, readParts]
  refine Option.bind_congr fun s _ => ?_
  cases hs : skipSpace s with
  | nil => rfl
  | cons mark rest => by_cases hClose : mark = '\x7d' <;> simp [hClose, membersFrom_eq]

theorem length_readMember_le (s : List Char) (part : List Char × List Char) (rest : List Char)
    (h : readMember s = some (part, rest)) : rest.length ≤ s.length := by
  simp only [readMember, Option.bind_eq_bind, Option.bind_eq_some_iff] at h
  obtain ⟨afterQuote, hQuote, name, hName, afterColon, hColon, raw, hRaw, hEq⟩ := h
  obtain ⟨-, rfl⟩ := Prod.mk.inj (Option.some.inj hEq)
  have hQuoteLess := length_readMark_lt hQuote
  have hNameLess := length_readText_lt hName
  have hColonLess := length_readMark_lt hColon
  have hRawLess := length_readRaw_le _ _ _ hRaw
  omega

end BanBoard.Json
