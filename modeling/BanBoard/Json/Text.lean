import BanBoard.Text.Decimal

/-!
The string literals of JSON. Writing escapes only what has to be escaped, and reading gives back
every character that writing can produce, together with the spellings that writing does not use.
-/

namespace BanBoard.Json

open BanBoard.Text

/-- A character that a literal may not hold as it is: quotes and backslashes aside, the control
characters of ASCII. -/
def isControl (c : Char) : Bool := c.toNat < 0x20

/-- Two lower-case hexadecimal digits of a number below two hundred and fifty-six. -/
def hexPair (n : Nat) : List Char := [Nat.digitChar (n / 16), Nat.digitChar (n % 16)]

/-- A character as it stands in a literal. Five control characters have a short escape of their
own. -/
def escape (c : Char) : List Char :=
  if c = '"' then ['\\', '"']
  else if c = '\\' then ['\\', '\\']
  else if c = '\x08' then ['\\', 'b']
  else if c = '\x0C' then ['\\', 'f']
  else if c = '\n' then ['\\', 'n']
  else if c = '\r' then ['\\', 'r']
  else if c = '\t' then ['\\', 't']
  else if isControl c then '\\' :: 'u' :: '0' :: '0' :: hexPair c.toNat
  else [c]

def writeText (s : List Char) : List Char := '"' :: s.flatMap escape ++ ['"']

/-- Read `count` hexadecimal digits onto the number read so far. -/
def readHex : (count acc : Nat) → List Char → Option (Nat × List Char)
  | 0, acc, rest => some (acc, rest)
  | _ + 1, _, [] => none
  | count + 1, acc, c :: rest =>
    match digitValue? 16 c with
    | none => none
    | some d => readHex count (acc * 16 + d) rest

theorem length_readHex_le {count acc value : Nat} {s rest : List Char}
    (read : readHex count acc s = some (value, rest)) : rest.length ≤ s.length := by
  fun_induction readHex count acc s with
  | case1 => simp_all
  | case2 => simp at read
  | case3 => simp at read
  | case4 count acc c tail d _ ih =>
    have bound := ih read
    simp only [List.length_cons]
    omega

/-- The character that a single letter after a backslash stands for. -/
def shortEscape? (c : Char) : Option Char :=
  if c = '"' then some '"'
  else if c = '\\' then some '\\'
  else if c = '/' then some '/'
  else if c = 'b' then some '\x08'
  else if c = 'f' then some '\x0C'
  else if c = 'n' then some '\n'
  else if c = 'r' then some '\r'
  else if c = 't' then some '\t'
  else none

/-- Read what follows a backslash as one unit of sixteen bits. Half of a surrogate pair is a unit,
although no character. -/
def readUnit : List Char → Option (Nat × List Char)
  | [] => none
  | c :: rest =>
    if c = 'u' then readHex 4 0 rest
    else (shortEscape? c).map fun d => (d.toNat, rest)

theorem length_readUnit_lt {s rest : List Char} {unit : Nat}
    (read : readUnit s = some (unit, rest)) : rest.length < s.length := by
  cases s with
  | nil => simp [readUnit] at read
  | cons c tail =>
    simp only [readUnit] at read
    split at read
    · have bound := length_readHex_le read
      simp only [List.length_cons]
      omega
    · simp only [Option.map_eq_some_iff, Prod.mk.injEq] at read
      obtain ⟨_, _, _, rfl⟩ := read
      simp

def isHighSurrogate (unit : Nat) : Bool := 0xD800 ≤ unit && unit ≤ 0xDBFF

def isLowSurrogate (unit : Nat) : Bool := 0xDC00 ≤ unit && unit ≤ 0xDFFF

/-- The character that a surrogate pair encodes. -/
def pairedChar (high low : Nat) : Char :=
  Char.ofNat (0x10000 + (high - 0xD800) * 0x400 + (low - 0xDC00))

/-- Read the second half of a pair, which has to follow as an escape of its own. -/
def readPair (high : Nat) : List Char → Option (Char × List Char)
  | '\\' :: 'u' :: rest =>
    match readHex 4 0 rest with
    | none => none
    | some (low, after) => if isLowSurrogate low then some (pairedChar high low, after) else none
  | _ => none

theorem length_readPair_le {high : Nat} {s rest : List Char} {c : Char}
    (read : readPair high s = some (c, rest)) : rest.length ≤ s.length := by
  fun_cases readPair high s with
  | case1 tail hHex => simp [readPair, hHex] at read
  | case2 tail low after hHex hLow =>
    have bound := length_readHex_le hHex
    simp only [readPair, hHex, hLow, if_true, Option.some.injEq, Prod.mk.injEq] at read
    obtain ⟨_, rfl⟩ := read
    simp only [List.length_cons]
    omega
  | case3 tail low after hHex hLow => simp [readPair, hHex, hLow] at read
  | case4 => simp_all [readPair]

/-- Read what follows a backslash as a character. Surrogates count only in pairs. -/
def readEscape (s : List Char) : Option (Char × List Char) :=
  match readUnit s with
  | none => none
  | some (unit, rest) =>
    if isHighSurrogate unit then readPair unit rest
    else if isLowSurrogate unit then none
    else some (Char.ofNat unit, rest)

theorem length_readEscape_lt {s rest : List Char} {c : Char}
    (read : readEscape s = some (c, rest)) : rest.length < s.length := by
  unfold readEscape at read
  split at read
  · simp at read
  · rename_i unit after hUnit
    have bound := length_readUnit_lt hUnit
    split at read
    · have paired := length_readPair_le read
      omega
    · split at read
      · simp at read
      · simp only [Option.some.injEq, Prod.mk.injEq] at read
        obtain ⟨_, rfl⟩ := read
        exact bound

/-- Read a literal after its opening quote. -/
def readText : List Char → Option (List Char × List Char)
  | [] => none
  | c :: rest =>
    if c = '"' then some ([], rest)
    else if c = '\\' then
      match _escape : readEscape rest with
      | none => none
      | some (d, after) => (readText after).map fun (text, end_) => (d :: text, end_)
    else if isControl c then none
    else (readText rest).map fun (text, end_) => (c :: text, end_)
termination_by s => s.length
decreasing_by
  · have bound := length_readEscape_lt _escape
    simp only [List.length_cons]
    omega
  · simp

/-- Pass over a literal after its opening quote. Nothing is decoded, so halves of surrogate pairs
may stand alone here. -/
def skipText : List Char → Option (List Char)
  | [] => none
  | c :: rest =>
    if c = '"' then some rest
    else if c = '\\' then
      match _unit : readUnit rest with
      | none => none
      | some (_, after) => skipText after
    else if isControl c then none
    else skipText rest
termination_by s => s.length
decreasing_by
  · have bound := length_readUnit_lt _unit
    simp only [List.length_cons]
    omega
  · simp

end BanBoard.Json
