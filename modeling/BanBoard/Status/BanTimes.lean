import BanBoard.Jail.Basic
import BanBoard.Net.Token
import BanBoard.Time.Lenient
import BanBoard.Time.Zone

/-!
The times of bans as the daemon's client lists them, one address a line with the wall-clock time of
its ban, and their entry into a jail.
-/

namespace BanBoard.Status

open BanBoard.Text
open BanBoard.Net (isAddressToken)
open BanBoard.Time (Instant Zone)

/-- An address together with the instant of its ban. -/
abbrev BanTime := List Char × Instant

/-- A character that a list may put around or between its items. -/
def isListMark (c : Char) : Bool :=
  c = '[' || c = ']' || c = '\'' || c = '"' || c = ','

/-- The beginning of a text that takes a given number of bytes. There is none when the text is
shorter or a character would be cut. -/
def bytePrefix? : (count : Nat) → List Char → Option (List Char)
  | 0, _ => some []
  | _ + 1, [] => none
  | count + 1, c :: rest =>
    if c.utf8Size ≤ count + 1 then (bytePrefix? (count + 1 - c.utf8Size) rest).map (c :: ·)
    else none
termination_by _ s => s.length

/-- Cut at the first blank, which belongs to neither side. -/
def splitBlank : List Char → Option (List Char × List Char)
  | [] => none
  | c :: rest =>
    if isBlank c then some ([], rest)
    else (splitBlank rest).map fun (before, after) => (c :: before, after)

/-- The address and the time on a line. A stamp has nineteen bytes, and what follows them does not
matter. -/
def banTime? (zone : Zone) (line : List Char) : Option BanTime := do
  let (ip, rest) ← splitBlank (trimWhere isListMark (trim line))
  if isAddressToken ip then
    let stamp ← bytePrefix? 19 (trimStart rest)
    let reading ← Instant.parseStamp? stamp
    let instant ← zone.earliest? reading
    some (ip, instant)
  else none

/-- The times that a text lists, read on a clock in a zone. Lines without one are passed over. -/
def banTimes (zone : Zone) (text : List Char) : List BanTime :=
  (lines text).filterMap (banTime? zone)

/-- Enter times into a jail, one after the other, and count those whose address is listed. -/
def attach (times : List BanTime) (jail : Jail) : Nat × Jail :=
  times.foldl (fun (count, jail) (ip, instant) =>
    let (found, jail) := jail.setBanTime ip instant
    (if found then count + 1 else count, jail)) (0, jail)

end BanBoard.Status
