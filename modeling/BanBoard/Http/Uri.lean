import BanBoard.Jail.Name
import BanBoard.Net.AddressText
import BanBoard.Text.Utf8

/-!
The targets of requests: a path of segments and a query of pairs. Both are escaped with percent signs,
and a sign that is no escape stands for itself.
-/

namespace BanBoard.Http

open BanBoard.Text

/-- The path and the query of a target. A fragment belongs to neither. -/
def splitTarget (target : List Char) : List Char × Option (List Char) :=
  let target := target.takeWhile (· ≠ '#')
  match splitOnce '?' target with
  | some (path, query) => (path, some query)
  | none => (target, none)

/-- Undo the escapes of a text. The result is bytes, which need not be text. -/
def unescape : List Char → List UInt8
  | [] => []
  | '%' :: a :: b :: rest =>
    match digitValue? 16 a, digitValue? 16 b with
    | some high, some low => (high * 16 + low).toUInt8 :: unescape rest
    | _, _ => encodeUtf8 ['%'] ++ unescape (a :: b :: rest)
  | c :: rest => encodeUtf8 [c] ++ unescape rest

/-- The segments of a path that starts with a slash. -/
def segments (path : List Char) : List (List Char) :=
  match path with
  | '/' :: rest => splitWhere (· = '/') rest
  | _ => []

/-- A name or a value of a query. A plus sign is a space, and bytes that are no text are replaced. -/
def formText (s : List Char) : List Char :=
  decodeLossy (unescape (s.map fun c => if c = '+' then ' ' else c))

/-- The pairs of a query. A name without a value has the empty one. -/
def queryPairs (query : List Char) : List (List Char × List Char) :=
  ((splitWhere (· = '&') query).filter fun piece => !piece.isEmpty).map fun piece =>
    match splitOnce '=' piece with
    | some (name, value) => (formText name, formText value)
    | none => (formText piece, [])

end BanBoard.Http
