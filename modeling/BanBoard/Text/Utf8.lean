/-!
Bytes and the text they encode. Strict decoding refuses a byte sequence that is not UTF-8, and
lenient decoding puts one replacement character for each maximal part that no character can hold.
-/

namespace BanBoard.Text

def encodeUtf8 (s : List Char) : List UInt8 := s.flatMap String.utf8EncodeChar

/-- The text that a byte sequence encodes, if all of it is UTF-8. -/
def decodeUtf8? (bytes : List UInt8) : Option (List Char) :=
  (String.fromUTF8? ⟨bytes.toArray⟩).map String.toList

/-- The character that stands for bytes which are no UTF-8. -/
def replacement : Char := Char.ofNat 0xFFFD

/-- What a leading byte asks for: the bits that it carries itself, how many bytes follow, and the
range of the first of them. The narrower ranges keep out overlong forms, surrogates and numbers above
the last code point. -/
def leadingByte? (b : UInt8) : Option (Nat × Nat × UInt8 × UInt8) :=
  if b < 0x80 then some (b.toNat, 0, 0x80, 0xBF)
  else if 0xC2 ≤ b && b ≤ 0xDF then some (b.toNat % 32, 1, 0x80, 0xBF)
  else if b == 0xE0 then some (b.toNat % 16, 2, 0xA0, 0xBF)
  else if b == 0xED then some (b.toNat % 16, 2, 0x80, 0x9F)
  else if 0xE1 ≤ b && b ≤ 0xEF then some (b.toNat % 16, 2, 0x80, 0xBF)
  else if b == 0xF0 then some (b.toNat % 8, 3, 0x90, 0xBF)
  else if 0xF1 ≤ b && b ≤ 0xF3 then some (b.toNat % 8, 3, 0x80, 0xBF)
  else if b == 0xF4 then some (b.toNat % 8, 3, 0x80, 0x8F)
  else none

/-- Read `count` continuation bytes, the first of them between `low` and `high`, onto the bits read
so far. The code point is missing when a byte does not fit, and that byte is left unread. -/
def continuations : (count : Nat) → (low high : UInt8) → (bits : Nat) → List UInt8 →
    Option Nat × List UInt8
  | 0, _, _, bits, rest => (some bits, rest)
  | _ + 1, _, _, _, [] => (none, [])
  | count + 1, low, high, bits, b :: rest =>
    if low ≤ b && b ≤ high then
      continuations count 0x80 0xBF (bits * 64 + b.toNat % 64) rest
    else (none, b :: rest)

theorem length_continuations_le (count : Nat) (low high : UInt8) (bits : Nat)
    (bytes : List UInt8) :
    (continuations count low high bits bytes).2.length ≤ bytes.length := by
  fun_induction continuations count low high bits bytes with
  | case1 => simp
  | case2 => simp
  | case3 count low high bits b rest _ ih => simp only [List.length_cons]; omega
  | case4 => simp

/-- The first character of a byte sequence and the bytes after it. A leading byte and the bytes that
fit behind it are replaced together when the character is not finished. -/
def firstChar (b : UInt8) (rest : List UInt8) : Char × List UInt8 :=
  match leadingByte? b with
  | none => (replacement, rest)
  | some (bits, count, low, high) =>
    match continuations count low high bits rest with
    | (some code, after) => (Char.ofNat code, after)
    | (none, after) => (replacement, after)

theorem length_firstChar_le (b : UInt8) (rest : List UInt8) :
    (firstChar b rest).2.length ≤ rest.length := by
  unfold firstChar
  split
  · exact Nat.le_refl _
  · rename_i bits count low high _
    have bound := length_continuations_le count low high bits rest
    split <;> simp_all

/-- Decode leniently, so that every byte sequence has a text. It is the encoded text wherever the
bytes are UTF-8. -/
def decodeLossy : List UInt8 → List Char
  | [] => []
  | b :: rest =>
    (firstChar b rest).1 :: decodeLossy (firstChar b rest).2
termination_by bytes => bytes.length
decreasing_by
  have bound := length_firstChar_le b rest
  simp only [List.length_cons]
  omega

end BanBoard.Text
