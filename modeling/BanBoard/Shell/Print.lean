import BanBoard.Shell.Word
import BanBoard.Text.Decimal
import BanBoard.Text.Utf8

/-!
The printing commands of a shell: the plain one that joins its words, and the one with a format. Both
write bytes, because an octal escape may stand for a byte that is no text.
-/

namespace BanBoard.Shell

open BanBoard.Text

def escapeByte? (c : Char) : Option UInt8 :=
  if c = 'a' then some 0x07
  else if c = 'b' then some 0x08
  else if c = 'f' then some 0x0C
  else if c = 'n' then some 0x0A
  else if c = 'r' then some 0x0D
  else if c = 't' then some 0x09
  else if c = 'v' then some 0x0B
  else if c = '\\' then some 0x5C
  else none

def isOctal (c : Char) : Bool := '0' ≤ c && c ≤ '7'

def octalByte (digits : List Char) : UInt8 :=
  (digits.foldl (fun n c => n * 8 + (c.toNat - '0'.toNat)) 0).toUInt8

def octalDigits (s : List Char) : List Char := (s.take 3).takeWhile isOctal

/-- Undo the escapes of a text. The flag tells whether an escape ended all output. With `leadingZero`
an octal escape may have a zero in front of its three digits. -/
def unescapeText (leadingZero : Bool) : (rounds : Nat) → List Char → List UInt8 × Bool
  | 0, _ => ([], false)
  | _, [] => ([], false)
  | rounds + 1, c :: rest =>
    let continue_ (bytes : List UInt8) (rest : List Char) :=
      let (more, stopped) := unescapeText leadingZero rounds rest
      (bytes ++ more, stopped)
    if c = '\\' then
      match rest with
      | [] => (encodeUtf8 ['\\'], false)
      | d :: after =>
        if d = 'c' then ([], true)
        else
          match escapeByte? d with
          | some b => continue_ [b] after
          | none =>
            if isOctal d then
              let digits :=
                if leadingZero && d = '0' then octalDigits after else octalDigits rest
              let rest := if leadingZero && d = '0' then after else rest
              continue_ [octalByte digits] (rest.drop digits.length)
            else continue_ (encodeUtf8 ['\\', d]) after
    else continue_ (encodeUtf8 [c]) rest

/-- Print words joined by spaces and ended by a newline, escapes undone when wanted. -/
def echo (escapes : Bool) (words : List (List Char)) : List UInt8 :=
  let (newline, words) := match words with
    | ['-', 'n'] :: rest => (false, rest)
    | _ => (true, words)
  let line := joinWords words
  let (bytes, stopped) :=
    if escapes then unescapeText true (line.length + 1) line else (encodeUtf8 line, false)
  if newline && !stopped then bytes ++ [0x0A] else bytes

/-- Print words as a program of its own does: options choose whether escapes are undone. -/
def echoProgram (words : List (List Char)) : List UInt8 :=
  let isOption (w : List Char) :=
    match w with
    | '-' :: d :: rest => (d :: rest).all fun c => c = 'n' || c = 'e' || c = 'E'
    | _ => false
  let options := words.takeWhile isOption
  let words := words.dropWhile isOption
  let letters := options.flatten.filter fun c => c = 'e' || c = 'E'
  echo (letters.getLast? = some 'e')
    (if options.any fun w => w.contains 'n' then ['-', 'n'] :: words
    else if words.head? = some ['-', 'n'] then [] :: words
    else words)

structure Conversion where
  leftAligned : Bool
  zeroPadded : Bool
  width : Nat
  precision : Option Nat
  letter : Char

def readConversion (s : List Char) : Option (Conversion × List Char) :=
  let flags := s.takeWhile fun c => c = '-' || c = '0' || c = '+' || c = ' ' || c = '#'
  let s := s.drop flags.length
  let width := s.takeWhile isDigit
  let s := s.drop width.length
  let (precision, s) := match s with
    | '.' :: rest =>
      (some (digitsValue (rest.takeWhile isDigit)), rest.dropWhile isDigit)
    | _ => (none, s)
  match s with
  | letter :: rest =>
    some (⟨flags.contains '-', flags.contains '0', digitsValue width, precision, letter⟩, rest)
  | [] => none

def pad (conversion : Conversion) (bytes : List UInt8) : List UInt8 :=
  let missing := conversion.width - bytes.length
  if conversion.leftAligned then bytes ++ List.replicate missing 0x20
  else if conversion.zeroPadded && conversion.letter ≠ 's' then List.replicate missing 0x30 ++ bytes
  else List.replicate missing 0x20 ++ bytes

/-- The integer that a word denotes, zero when it denotes none. -/
def integerOf (word : List Char) : Int :=
  match word with
  | '-' :: digits => -(digitsValue (digits.takeWhile isDigit) : Int)
  | '+' :: digits => digitsValue (digits.takeWhile isDigit)
  | _ => digitsValue (word.takeWhile isDigit)

def writeInteger (base : Nat) (n : Int) : List Char :=
  if n < 0 then '-' :: Nat.toDigits base (-n).toNat else Nat.toDigits base n.toNat

/-- The natural number in front of a text, in hexadecimal behind `0x` and in octal behind a zero, and
what follows it. -/
def readNumber (s : List Char) : Nat × List Char :=
  let digits (base : Nat) (s : List Char) :=
    let ds := s.takeWhile fun c => (digitValue? base c).isSome
    (ds.foldl (fun n c => n * base + (digitValue? base c).getD 0) 0, s.drop ds.length)
  match s with
  | '0' :: x :: d :: rest =>
    if (x = 'x' || x = 'X') && (digitValue? 16 d).isSome then digits 16 (d :: rest)
    else digits 8 s
  | '0' :: _ => digits 8 s
  | _ => digits 10 s

inductive NumberFault where
  | notNumeric
  | trailing
  deriving DecidableEq

/-- The number that a word stands for in a format, and what is wrong with it. A quote in front of a
character stands for its code. -/
def numberOf (word : List Char) : Int × Option NumberFault :=
  match word with
  | [] => (0, none)
  | '\'' :: c :: _ => (c.toNat, none)
  | '"' :: c :: _ => (c.toNat, none)
  | _ =>
    let bare := word.dropWhile isSeparator
    let (negative, digits) := match bare with
      | '-' :: rest => (true, rest)
      | '+' :: rest => (false, rest)
      | _ => (false, bare)
    let (n, rest) := readNumber digits
    let value : Int := if negative then -n else n
    if rest.isEmpty && !digits.isEmpty then (value, none)
    else if rest.length = digits.length then (0, some .notNumeric)
    else (value, some .trailing)

/-- What a format makes of one word: its bytes, whether an escape ended all output, and what is wrong
with the word as a number. -/
structure Converted where
  bytes : List UInt8
  stopped : Bool
  fault : Option NumberFault

def convert (conversion : Conversion) (word : List Char) : Converted :=
  let cut (bytes : List UInt8) := match conversion.precision with
    | some n => bytes.take n
    | none => bytes
  let number (write : Int → List Char) : Converted :=
    let (n, fault) := numberOf word
    ⟨pad conversion (encodeUtf8 (write n)), false, fault⟩
  let unsigned (n : Int) : Int := if n < 0 then n + 2 ^ 64 else n
  match conversion.letter with
  | 'd' => number (writeInteger 10)
  | 'i' => number (writeInteger 10)
  | 'u' => number fun n => writeInteger 10 (unsigned n)
  | 'x' => number fun n => writeInteger 16 (unsigned n)
  | 'X' => number fun n => (writeInteger 16 (unsigned n)).map Char.toUpper
  | 'o' => number fun n => writeInteger 8 (unsigned n)
  | 'c' => ⟨pad conversion ((encodeUtf8 word).take 1), false, none⟩
  | 'b' =>
    let (bytes, stopped) := unescapeText true (word.length + 1) word
    ⟨pad conversion (cut bytes), stopped, none⟩
  | _ => ⟨pad conversion (cut (encodeUtf8 word)), false, none⟩

/-- What a format has printed so far: the bytes, the words that are left, whether all output was
ended, and the words that are no numbers. -/
structure Printed where
  bytes : List UInt8
  left : List (List Char)
  stopped : Bool
  faults : List (List Char × NumberFault)

def Printed.after (p : Printed) (bytes : List UInt8) (faults : List (List Char × NumberFault)) :
    Printed :=
  { p with bytes := bytes ++ p.bytes, faults := faults ++ p.faults }

def formatPass : (rounds : Nat) → (format : List Char) → (words : List (List Char)) → Printed
  | 0, _, words => ⟨[], words, false, []⟩
  | _, [], words => ⟨[], words, false, []⟩
  | rounds + 1, c :: rest, words =>
    let continue_ (bytes : List UInt8) (rest : List Char) :=
      (formatPass rounds rest words).after bytes []
    if c = '%' then
      match rest with
      | '%' :: rest => continue_ [0x25] rest
      | _ =>
        match readConversion rest with
        | none => continue_ [0x25] rest
        | some (conversion, rest) =>
          let word := words.head?.getD []
          let converted := convert conversion word
          let faults := match converted.fault with
            | some fault => [(word, fault)]
            | none => []
          if converted.stopped then ⟨converted.bytes, words.drop 1, true, faults⟩
          else (formatPass rounds rest (words.drop 1)).after converted.bytes faults
    else if c = '\\' then
      match rest with
      | [] => continue_ [0x5C] []
      | d :: after =>
        if d = 'c' then ⟨[], words, true, []⟩
        else if d = '"' then continue_ [0x22] after
        else
          match escapeByte? d with
          | some b => continue_ [b] after
          | none =>
            if isOctal d then
              let digits := octalDigits rest
              continue_ [octalByte digits] (rest.drop digits.length)
            else continue_ (encodeUtf8 ['\\', d]) after
    else continue_ (encodeUtf8 [c]) rest

/-- Print words with a format, which is used again as long as it takes words and some are left. -/
def formatAll : (rounds : Nat) → (format : List Char) → (words : List (List Char)) → Printed
  | 0, _, words => ⟨[], words, false, []⟩
  | rounds + 1, format, words =>
    let pass := formatPass (format.length + 1) format words
    if pass.stopped || pass.left.isEmpty || pass.left.length = words.length then pass
    else (formatAll rounds format pass.left).after pass.bytes pass.faults

end BanBoard.Shell
