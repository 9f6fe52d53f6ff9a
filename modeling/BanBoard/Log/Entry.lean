import BanBoard.Json.Decode
import BanBoard.Json.Value
import BanBoard.Time.Rfc3339

/-!
Entries of the action log. Each records one ban or unban with its outcome, and is written as one line
of JSON.
-/

namespace BanBoard

open BanBoard.Json
open BanBoard.Text
open BanBoard.Time (Instant)

inductive Action where
  | ban
  | unban
  deriving DecidableEq

namespace Action

def word : Action → String
  | .ban => "ban"
  | .unban => "unban"

/-- The action that a word names. Case matters here. -/
def ofWord? (s : List Char) : Option Action :=
  if s = Action.ban.word.toList then some .ban
  else if s = Action.unban.word.toList then some .unban
  else none

def decode? (s : List Char) : Option Action := decodeWord? ofWord? s

def toValue (action : Action) : Value := .text action.word.toList

/-- Read the word for an action in any case and with blanks around it. The message for any other
word shows it in lower case. -/
def parse (s : List Char) : Except (List Char) Action :=
  let word := lowerAscii (trim s)
  match ofWord? word with
  | some action => .ok action
  | none => .error ("unknown action '".toList ++ word ++ "' (expected ban or unban)".toList)

end Action

inductive Outcome where
  | success
  | failure
  deriving DecidableEq

namespace Outcome

def word : Outcome → String
  | .success => "success"
  | .failure => "failure"

def ofWord? (s : List Char) : Option Outcome :=
  if s = Outcome.success.word.toList then some .success
  else if s = Outcome.failure.word.toList then some .failure
  else none

def decode? (s : List Char) : Option Outcome := decodeWord? ofWord? s

def toValue (outcome : Outcome) : Value := .text outcome.word.toList

end Outcome

namespace Log

/-- An action that was attempted, as whoever attempted it knows it. Nothing here ties the error to the
outcome, since an entry read back may hold any pair of them. -/
structure Attempt where
  action : Action
  jail : List Char
  ip : List Char
  outcome : Outcome
  error : Option (List Char)
  deriving DecidableEq

def Attempt.success (action : Action) (jail ip : List Char) : Attempt :=
  ⟨action, jail, ip, .success, none⟩

def Attempt.failure (action : Action) (jail ip reason : List Char) : Attempt :=
  ⟨action, jail, ip, .failure, some reason⟩

/-- An attempt with the number and the time under which it is logged. -/
structure Entry where
  id : UInt64
  timestamp : Instant
  attempt : Attempt
  deriving DecidableEq

namespace Entry

def succeeded (entry : Entry) : Bool := entry.attempt.outcome = .success

def toValue (entry : Entry) : Value :=
  .object <|
    [("id", .nat entry.id.toNat), ("timestamp", .text entry.timestamp.write),
      ("action", entry.attempt.action.toValue), ("jail", .text entry.attempt.jail),
      ("ip", .text entry.attempt.ip), ("outcome", entry.attempt.outcome.toValue)] ++
      Value.optional "error" (entry.attempt.error.map .text)

/-- The entry as one line of JSON, without the newline that ends it in the log. -/
def encode (entry : Entry) : List Char := entry.toValue.write

def decode? (s : List Char) : Option Entry := do
  let fields ← recordFields ["id", "timestamp", "action", "jail", "ip", "outcome", "error"] s
  match fields with
  | [some id, some timestamp, some action, some jail, some ip, some outcome, error] => do
    some ⟨(← decodeWord64? id).toUInt64, (← decodeInstant? timestamp),
      ⟨(← Action.decode? action), (← decodeText? jail), (← decodeText? ip),
        (← Outcome.decode? outcome), (← decodeOptional? decodeText? error)⟩⟩
  | _ => none

end Entry

end Log

end BanBoard
