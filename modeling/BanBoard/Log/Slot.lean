import BanBoard.Files.Fault
import BanBoard.Text.Utf8

/-!
The file that a log is kept in, and what stands in its place when there is no such file. A write may be
fated to fail after any part of its bytes has reached the file.
-/

namespace BanBoard.Log

open BanBoard.Files (Fault)
open BanBoard.Text

/-- What stands at the path of a log. -/
inductive Slot where
  | missing
  | file (bytes : List UInt8)
  | directory
  deriving DecidableEq

/-- How a write ends. A failing one leaves the part of the bytes that reached the file, unless the
file is cut back after it. -/
inductive WriteFate where
  | succeeds
  | fails (reached : Nat) (cause : Fault) (rollsBack : Bool)

def newline : UInt8 := 0x0A

/-- Whether the last byte of a file ends a line. An empty file has no last byte. -/
def endsLine (bytes : List UInt8) : Bool := bytes.getLast? = some newline

/-- The position behind the last newline, which is searched for from the end. It is zero when there is
no newline. -/
def behindNewline (bytes : List UInt8) : Nat :=
  match bytes.reverse.findIdx? (· = newline) with
  | none => 0
  | some fromEnd => bytes.length - fromEnd

/-- The length of a file without a torn line at its end. A file whose last byte ends a line is not
searched. -/
def wholeLength (bytes : List UInt8) : Nat :=
  if 0 < bytes.length && !endsLine bytes then behindNewline bytes else bytes.length

/-- What is left of a file when a torn line at its end is cut off. -/
def wholeLines (bytes : List UInt8) : List UInt8 := bytes.take (wholeLength bytes)

namespace Slot

/-- The bytes of the file, which is created when there is none, with a torn line at its end cut
off. -/
def repaired : Slot → Except Fault (List UInt8)
  | .missing => .ok []
  | .file bytes => .ok (wholeLines bytes)
  | .directory => .error .isDirectory

/-- The text of the file. A missing file has the empty text. -/
def text : Slot → Except Fault (List Char)
  | .missing => .ok []
  | .file bytes =>
    match decodeUtf8? bytes with
    | some text => .ok text
    | none => .error .notText
  | .directory => .error .isDirectory

/-- Add a line at the end of whole lines. -/
def write (whole line : List UInt8) : WriteFate → Except Fault Unit × Slot
  | .succeeds => (.ok (), .file (whole ++ line))
  | .fails _ cause true => (.error cause, .file whole)
  | .fails reached cause false => (.error cause, .file (whole ++ line.take reached))

/-- Add bytes at the end, behind the back of whoever keeps the log. A directory takes none. -/
def addRaw (bytes : List UInt8) : Slot → Slot
  | .missing => .file bytes
  | .file before => .file (before ++ bytes)
  | .directory => .directory

def truncate (length : Nat) : Slot → Slot
  | .file bytes => .file (bytes.take length)
  | slot => slot

end Slot

end BanBoard.Log
