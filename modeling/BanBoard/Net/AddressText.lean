import BanBoard.Net.Address

/-!
Reading internet addresses. Octets have no leading zeros, groups have at most four hexadecimal
digits, one double colon stands for at least one zero group, and the last two groups may be written
as an address of version four.
-/

namespace BanBoard.Net

open BanBoard.Text

/-- Read an octet in decimal. A leading zero is refused, because elsewhere it would mean octal. -/
def readOctet (s : List Char) : Option (UInt8 × List Char) :=
  let digits := s.takeWhile isDigit
  let value := digitsValue digits
  if digits.isEmpty || 3 < digits.length || 255 < value then none
  else if digits.head? = some '0' && 1 < digits.length then none
  else some (value.toUInt8, s.dropWhile isDigit)

def readChar (c : Char) : List Char → Option (List Char)
  | d :: rest => if d = c then some rest else none
  | [] => none

def readOctets (s : List Char) : Option ((UInt8 × UInt8 × UInt8 × UInt8) × List Char) := do
  let (a, s) ← readOctet s
  let s ← readChar '.' s
  let (b, s) ← readOctet s
  let s ← readChar '.' s
  let (c, s) ← readOctet s
  let s ← readChar '.' s
  let (d, s) ← readOctet s
  some ((a, b, c, d), s)

def isHexDigit (c : Char) : Bool := (digitValue? 16 c).isSome

def hexValue (digits : List Char) : Nat :=
  digits.foldl (fun acc c => acc * 16 + (digitValue? 16 c).getD 0) 0

/-- Read a group of one to four hexadecimal digits. -/
def readGroup (s : List Char) : Option (UInt16 × List Char) :=
  let digits := s.takeWhile isHexDigit
  if digits.isEmpty || 4 < digits.length then none
  else some ((hexValue digits).toUInt16, s.dropWhile isHexDigit)

def groupOf (high low : UInt8) : UInt16 := (high.toNat * 256 + low.toNat).toUInt16

def readSeparator (first : Bool) (s : List Char) : Option (List Char) :=
  if first then some s else readChar ':' s

/-- What a row of groups holds: the groups, and whether the last two of them were written as an
address of version four, which ends the row. -/
structure GroupRow where
  groups : List UInt16
  embedded : Bool

/-- Read as many groups as there are, at most `room` of them. What cannot be read as a group, its
colon included, is left in the rest. -/
def readGroups : (room : Nat) → (first : Bool) → List Char → GroupRow × List Char
  | 0, _, s => (⟨[], false⟩, s)
  | room + 1, first, s =>
    match if room = 0 then none else (readSeparator first s).bind readOctets with
    | some ((a, b, c, d), rest) => (⟨[groupOf a b, groupOf c d], true⟩, rest)
    | none =>
      match (readSeparator first s).bind readGroup with
      | none => (⟨[], false⟩, s)
      | some (g, rest) =>
        let (row, after) := readGroups room false rest
        (⟨g :: row.groups, row.embedded⟩, after)

/-- Eight groups, when there are exactly as many. -/
def groupsOf? (groups : List UInt16) : Option Groups :=
  if h : groups.length = 8 then some ⟨groups, h⟩ else none

/-- Read an address of version six. The double colon is looked for only where eight groups did not
come together before it. -/
def readV6 (s : List Char) : Option (Groups × List Char) :=
  let (row, rest) := readGroups 8 true s
  if row.groups.length = 8 then (groupsOf? row.groups).map fun groups => (groups, rest)
  else if row.embedded then none
  else
    match rest with
    | ':' :: ':' :: rest =>
      let (tail, after) := readGroups (7 - row.groups.length) true rest
      let zeros := List.replicate (8 - row.groups.length - tail.groups.length) 0
      (groupsOf? (row.groups ++ zeros ++ tail.groups)).map fun groups => (groups, after)
    | _ => none

/-- Read a text that is an address from end to end. -/
def Address.parse? (s : List Char) : Option Address :=
  match readOctets s with
  | some ((a, b, c, d), rest) => if rest.isEmpty then some (.v4 a b c d) else none
  | none =>
    match readV6 s with
    | some (groups, rest) => if rest.isEmpty then some (.v6 groups) else none
    | none => none

end BanBoard.Net
