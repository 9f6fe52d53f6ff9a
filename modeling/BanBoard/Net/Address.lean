import BanBoard.Text.Decimal

/-!
Internet addresses and the text form in which each is written. Every address has one canonical text,
while reading accepts all the spellings that the two address families allow.
-/

namespace BanBoard.Net

open BanBoard.Text

/-- The eight groups of an address of version six, the first one the most significant. -/
abbrev Groups := { groups : List UInt16 // groups.length = 8 }

inductive Address where
  | v4 (a b c d : UInt8)
  | v6 (groups : Groups)
  deriving DecidableEq

namespace Address

def version : Address → Nat
  | .v4 .. => 4
  | .v6 _ => 6

def writeOctets (a b c d : UInt8) : List Char :=
  decimal a.toNat ++ '.' :: decimal b.toNat ++ '.' :: decimal c.toNat ++ '.' :: decimal d.toNat

/-- A group in lower-case hexadecimal, without leading zeros. -/
def writeGroup (g : UInt16) : List Char := Nat.toDigits 16 g.toNat

def writeGroups : List UInt16 → List Char
  | [] => []
  | [g] => writeGroup g
  | g :: gs => writeGroup g ++ ':' :: writeGroups gs

/-- How many zero groups stand at the beginning. -/
def leadingZeros : List UInt16 → Nat
  | [] => 0
  | g :: gs => if g = 0 then leadingZeros gs + 1 else 0

/-- The longest run of zero groups as its position and its length, the first one where two are
equally long. The length is zero when no group is zero. -/
def longestZeros : List UInt16 → Nat × Nat
  | [] => (0, 0)
  | g :: gs =>
    let here := leadingZeros (g :: gs)
    let (position, length) := longestZeros gs
    if length ≤ here then (0, here) else (position + 1, length)

/-- The two groups of a mapped address of version four, behind five zeros and one group of ones. -/
def mapped? : List UInt16 → Option (UInt16 × UInt16)
  | [0, 0, 0, 0, 0, 0xFFFF, high, low] => some (high, low)
  | _ => none

/-- The upper and the lower octet of a group. -/
def octets (g : UInt16) : UInt8 × UInt8 := ((g.toNat / 256).toUInt8, (g.toNat % 256).toUInt8)

/-- The canonical text of an address of version six. A run of at least two zero groups is left out
once, and only mapped addresses show an address of version four. -/
def writeV6 (groups : List UInt16) : List Char :=
  match mapped? groups with
  | some (high, low) =>
    let (a, b) := octets high
    let (c, d) := octets low
    "::ffff:".toList ++ writeOctets a b c d
  | none =>
    let (position, length) := longestZeros groups
    if 1 < length then
      writeGroups (groups.take position) ++ ':' :: ':' ::
        writeGroups (groups.drop (position + length))
    else writeGroups groups

def write : Address → List Char
  | .v4 a b c d => writeOctets a b c d
  | .v6 groups => writeV6 groups.val

end Address

end BanBoard.Net
