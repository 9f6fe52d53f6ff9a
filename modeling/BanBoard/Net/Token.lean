import BanBoard.Net.AddressText
import BanBoard.Text.Blank

/-!
Address tokens: the words of a banned list. A token is an address, or a network given as an address
and the length of its mask.
-/

namespace BanBoard.Net

open BanBoard.Text

/-- The length of a whole address in bits. -/
def Address.bits : Address → Nat
  | .v4 .. => 32
  | .v6 _ => 128

/-- Whether a text is the length of a mask for an address. The numeral is read as a byte, with the
plus sign that such numerals may have. -/
def isMaskLength (address : Address) (s : List Char) : Bool :=
  match readUnsigned 10 maxByte s with
  | .ok length => length ≤ address.bits
  | .error _ => false

/-- Whether a word is an address or a network. -/
def isAddressToken (token : List Char) : Bool :=
  match splitOnce '/' token with
  | none => (Address.parse? token).isSome
  | some (front, mask) =>
    match Address.parse? front with
    | none => false
    | some address => isMaskLength address mask

end BanBoard.Net
