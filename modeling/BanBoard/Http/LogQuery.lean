import BanBoard.Http.Uri
import BanBoard.Log.Store
import BanBoard.Service.Basic
import BanBoard.Time.Rfc3339

/-!
The parameters of a question to the log. A blank parameter counts as missing, and of several bad ones
the first in the order of the fields is reported.
-/

namespace BanBoard.Http

open BanBoard.Text
open BanBoard.Time (Instant)

/-- The values of the parameters as they were sent. -/
structure LogParams where
  since : Option (List Char)
  limit : Option (List Char)
  jail : Option (List Char)
  action : Option (List Char)
  deriving DecidableEq

def defaultLogLimit : Nat := 100

/-- The greatest limit. -/
def maxLogLimit : Nat := 1000

/-- A value that is more than blanks. -/
def present? (value : Option (List Char)) : Option (List Char) :=
  value.filter fun text => !isBlankText text

/-- Read an optional parameter, if it is present. -/
def optionally {α : Type} (value : Option (List Char))
    (read : List Char → Except (List Char) α) : Except Service.Error (Option α) :=
  match present? value with
  | none => .ok none
  | some raw =>
    match read raw with
    | .ok x => .ok (some x)
    | .error message => .error (.validation message)

/-- Read the instant from which entries are wanted. -/
def readSince (raw : List Char) : Except (List Char) Instant :=
  match Instant.parse (trim raw) with
  | .ok t => .ok t
  | .error e =>
    .error ("Invalid since '".toList ++ raw ++ "': ".toList ++ e.message.toList)

/-- Read the number of entries that are wanted. -/
def readLimit (raw : List Char) : Except (List Char) Nat :=
  match readUnsigned 10 maxWord64 (trim raw) with
  | .ok n => if 1 ≤ n && n ≤ maxLogLimit then .ok n else .error message
  | .error _ => .error message
where
  message : List Char :=
    "Invalid limit '".toList ++ raw ++ "': expected 1 to ".toList ++ decimal maxLogLimit

def readJailName (raw : List Char) : Except (List Char) (List Char) :=
  match checkJailName (trim raw) with
  | .ok () => .ok (trim raw)
  | .error e => .error e.message

/-- The question that the parameters ask. It always has a limit. -/
def LogParams.toQuery (params : LogParams) : Except Service.Error Log.Query := do
  let since ← optionally params.since readSince
  let limit ← optionally params.limit readLimit
  let jail ← optionally params.jail readJailName
  let action ← optionally params.action Action.parse
  .ok ⟨since, some (limit.getD defaultLogLimit), jail, action⟩

def logParamNames : List String := ["since", "limit", "jail", "action"]

/-- The first name of a parameter that is there for a second time. -/
def repeated? : (seen : List (List Char)) → List (List Char × List Char) → Option (List Char)
  | _, [] => none
  | seen, (name, _) :: pairs =>
    if (logParamNames.map String.toList).contains name then
      if seen.contains name then some name else repeated? (name :: seen) pairs
    else repeated? seen pairs

def valueOf? (pairs : List (List Char × List Char)) (name : String) : Option (List Char) :=
  (pairs.find? fun pair => pair.1 = name.toList).map Prod.snd

/-- The parameters in a query. Other names are ignored, and a repeated parameter is an error that
names it. -/
def LogParams.ofQuery (query : Option (List Char)) : Except (List Char) LogParams :=
  let pairs := queryPairs (query.getD [])
  match repeated? [] pairs with
  | some name => .error name
  | none =>
    .ok ⟨valueOf? pairs "since", valueOf? pairs "limit", valueOf? pairs "jail",
      valueOf? pairs "action"⟩

end BanBoard.Http
