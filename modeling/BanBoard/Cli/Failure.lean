import BanBoard.Config.Load
import BanBoard.Jail.Name
import BanBoard.Log.Store
import BanBoard.Service.Basic

/-!
Failures of the program as they are told to whoever runs it: what was being done, and under it the
causes, the nearest first.
-/

namespace BanBoard.Cli

open BanBoard.Text

structure Failure where
  message : List Char
  causes : List (List Char)
  deriving DecidableEq

namespace Failure

def hang (indent : List Char) (s : List Char) : List Char :=
  s.flatMap fun c => if c = '\n' then '\n' :: indent else [c]

def numbered : (number : Nat) → List (List Char) → List Char
  | _, [] => []
  | number, cause :: causes =>
    '\n' :: padLeft 5 (decimal number) ++ ':' :: ' ' ::
      hang (List.replicate 7 ' ') cause ++ numbered (number + 1) causes

def writeCauses : List (List Char) → List Char
  | [] => []
  | [cause] =>
    let indent := List.replicate 4 ' '
    "\n\nCaused by:\n".toList ++ indent ++ hang indent cause
  | causes => "\n\nCaused by:".toList ++ numbered 0 causes

def write (failure : Failure) : List Char :=
  "Error: ".toList ++ failure.message ++ writeCauses failure.causes ++ ['\n']

def ofLog (e : Log.Error) : Failure :=
  ⟨e.message, match e with
    | .io _ cause => [cause.message]
    | .overflow => []⟩

def ofService (e : Service.Error) : Failure := ⟨e.message, []⟩

def ofValidation (e : ValidationError) : Failure := ⟨e.message, []⟩

def ofConfig (e : Config.Error) : Failure :=
  ⟨e.message, match e.cause? with
    | some cause => [cause]
    | none => []⟩

def during (doing : List Char) (failure : Failure) : Failure :=
  ⟨doing, failure.message :: failure.causes⟩

end Failure

end BanBoard.Cli
