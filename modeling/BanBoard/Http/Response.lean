import BanBoard.Json.Value
import BanBoard.Service.Basic

/-!
Responses to requests: a status, a body, and the methods that would have been allowed when the method
was not.
-/

namespace BanBoard.Http

open BanBoard.Json (Value)
open BanBoard.Text

structure Response where
  status : Nat
  body : List UInt8
  allow : Option String

namespace Response

def bare (status : Nat) : Response := ⟨status, [], none⟩

def json (status : Nat) (value : Value) : Response := ⟨status, encodeUtf8 value.write, none⟩

def text (status : Nat) (text : List Char) : Response := ⟨status, encodeUtf8 text, none⟩

/-- No response: the connection is closed. -/
def closed : Response := bare 0

/-- The response to a method that is not allowed. -/
def notAllowed (methods : String) : Response := ⟨405, [], some methods⟩

def ofError : Service.Error → Response
  | .panic => closed
  | e => json e.status (.object [("error", .text e.message), ("kind", .text e.kind.toList)])

def withoutBody (response : Response) : Response := { response with body := [] }

end Response

end BanBoard.Http
