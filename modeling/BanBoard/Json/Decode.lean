import BanBoard.Json.Raw
import BanBoard.Time.Lenient

/-!
Decoding JSON texts into the fields of known records. A record is an object whose unknown members
are ignored, or an array of its fields in order; an enumeration is one of its words, alone or as the
only member of an object with the value null.
-/

namespace BanBoard.Json

open BanBoard.Text

/-- What is left after a whole text has been read has to be space. -/
def endOfText {α : Type} (read : α × List Char) : Option α :=
  if (skipSpace read.2).isEmpty then some read.1 else none

def decodeText? (s : List Char) : Option (List Char) := do
  let s ← readMark '"' s
  (readText s).bind endOfText

/-- Decode a natural number of at most sixty-four bits. Signs, fractions and exponents are refused
whatever number they would make. -/
def decodeWord64? (s : List Char) : Option Nat := do
  let s := skipSpace s
  let rest ← skipWhole s
  let n := digitsValue (s.take (s.length - rest.length))
  if n ≤ maxWord64 then endOfText (n, rest) else none

def decodeNull? (s : List Char) : Option Unit :=
  (skipWord ['n', 'u', 'l', 'l'] (skipSpace s)).bind fun rest => endOfText ((), rest)

def decodeInstant? (s : List Char) : Option Time.Instant :=
  (decodeText? s).bind Time.Instant.parseLenient?

/-- The value of an optional field: unset when the field is missing or null. -/
def decodeOptional? {α : Type} (decode : List Char → Option α) :
    Option (List Char) → Option (Option α)
  | none => some none
  | some raw => if (decodeNull? raw).isSome then some none else (decode raw).map some

def decodeWord? {α : Type} (ofWord? : List Char → Option α) (s : List Char) : Option α :=
  match skipSpace s with
  | '\x7b' :: _ => do
    let (members, rest) ← readMembers s
    match members with
    | [(name, raw)] => do
      let _ ← decodeNull? raw
      endOfText ((← ofWord? name), rest)
    | _ => none
  | _ => (decodeText? s).bind ofWord?

/-- The text of the only member with a given name. The outer result is missing when there are
several. -/
def memberNamed (name : List Char) (members : List (List Char × List Char)) :
    Option (Option (List Char)) :=
  match members.filter fun member => member.1 = name with
  | [] => some none
  | [member] => some (some member.2)
  | _ => none

/-- The texts of the named fields of a record, in the order of the names. -/
def recordFields (names : List String) (s : List Char) : Option (List (Option (List Char))) :=
  match skipSpace s with
  | '[' :: _ => do
    let elements ← (readElements s).bind endOfText
    if elements.length ≤ names.length then
      some (elements.map some ++ List.replicate (names.length - elements.length) none)
    else none
  | _ => do
    let members ← (readMembers s).bind endOfText
    names.mapM fun name => memberNamed name.toList members

end BanBoard.Json
