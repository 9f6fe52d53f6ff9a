import BanBoard.Json.Decode
import BanBoard.Json.Value
import BanBoard.Time.Rfc3339

/-!
Jails and the addresses banned in them. A jail lists every address once, under its own name, in the
order in which the addresses came. How many are banned is kept beside the list, and no jail can be made
in which the two disagree.
-/

namespace BanBoard

open BanBoard.Json
open BanBoard.Time (Instant)

/-- One address banned in a jail. The time is known only when the daemon reports it. -/
structure BannedAddress where
  ip : List Char
  jail : List Char
  bannedAt : Option Instant
  country : Option (List Char)
  deriving DecidableEq

/-- A jail. The three counters that are words are those that the daemon reports and need not agree with
the list. -/
structure Jail where
  name : List Char
  currentlyFailed : UInt64
  totalFailed : UInt64
  totalBanned : UInt64
  banned : List BannedAddress
  currentlyBanned : Nat := banned.length
  fileList : List (List Char)
  counted : currentlyBanned = banned.length := by rfl
  deriving DecidableEq

namespace Jail

def empty (name : List Char) : Jail where
  name := name
  currentlyFailed := 0
  totalFailed := 0
  totalBanned := 0
  banned := []
  currentlyBanned := 0
  fileList := []

/-- The jail with another list of bans, which is counted anew. -/
def withBanned (jail : Jail) (banned : List BannedAddress) : Jail :=
  { jail with banned := banned, currentlyBanned := banned.length, counted := rfl }

def isBanned (jail : Jail) (ip : List Char) : Bool := jail.banned.any fun entry => entry.ip = ip

def ips (jail : Jail) : List (List Char) := jail.banned.map BannedAddress.ip

/-- Add an address at the end. The jail takes over the entry under its own name, and refuses an
address that it lists already. -/
def addBanned (jail : Jail) (entry : BannedAddress) : Bool × Jail :=
  if jail.isBanned entry.ip then (false, jail)
  else (true, jail.withBanned (jail.banned ++ [{ entry with jail := jail.name }]))

/-- Remove an address. The answer tells whether the list became shorter. -/
def removeBanned (jail : Jail) (ip : List Char) : Bool × Jail :=
  let kept := jail.banned.filter fun entry => entry.ip ≠ ip
  (jail.banned.length != kept.length, jail.withBanned kept)

/-- Put a time on the first entry of an address. -/
def withTime (ip : List Char) (at_ : Instant) : List BannedAddress → List BannedAddress
  | [] => []
  | entry :: rest =>
    if entry.ip = ip then { entry with bannedAt := some at_ } :: rest
    else entry :: withTime ip at_ rest

theorem length_withTime (ip : List Char) (at_ : Instant) (banned : List BannedAddress) :
    (withTime ip at_ banned).length = banned.length := by
  induction banned with
  | nil => rfl
  | cons entry rest ih =>
      rw [withTime]
      split
      · rfl
      · rw [List.length_cons, ih, List.length_cons]

/-- Record when an address was banned. The answer tells whether it is listed. Nothing is counted anew,
because the list stays as long as it was. -/
def setBanTime (jail : Jail) (ip : List Char) (at_ : Instant) : Bool × Jail :=
  (jail.isBanned ip, { jail with
    banned := withTime ip at_ jail.banned
    counted := jail.counted.trans (length_withTime ip at_ jail.banned).symm })

def setFileList (jail : Jail) (files : List (List Char)) : Jail := { jail with fileList := files }

end Jail

namespace BannedAddress

/-- An entry as it comes from a list of addresses: without a time and without a country. -/
def listed (ip jail : List Char) : BannedAddress := ⟨ip, jail, none, none⟩

/-- The entry as a JSON value. Unset fields are left out. -/
def toValue (entry : BannedAddress) : Value :=
  .object <|
    [("ip", .text entry.ip), ("jail", .text entry.jail)] ++
      Value.optional "bannedAt" (entry.bannedAt.map fun t => .text t.write) ++
      Value.optional "country" (entry.country.map .text)

def decode? (s : List Char) : Option BannedAddress := do
  let fields ← recordFields ["ip", "jail", "bannedAt", "country"] s
  match fields with
  | [some ip, some jail, bannedAt, country] => do
    some ⟨(← decodeText? ip), (← decodeText? jail), (← decodeOptional? decodeInstant? bannedAt),
      (← decodeOptional? decodeText? country)⟩
  | _ => none

end BannedAddress

/-- The jail as a JSON value. An empty list of files is left out. -/
def Jail.toValue (jail : Jail) : Value :=
  .object <|
    [("name", .text jail.name), ("currentlyFailed", .nat jail.currentlyFailed.toNat),
      ("currentlyBanned", .nat jail.currentlyBanned), ("totalFailed", .nat jail.totalFailed.toNat),
      ("totalBanned", .nat jail.totalBanned.toNat),
      ("banned", .array (jail.banned.map BannedAddress.toValue))] ++
      if jail.fileList.isEmpty then [] else [("fileList", .array (jail.fileList.map .text))]

end BanBoard
