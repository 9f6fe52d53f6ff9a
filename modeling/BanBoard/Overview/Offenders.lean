import BanBoard.Jail.Basic
import BanBoard.Text.Blank

/-!
The ranking of banned addresses: by the number of jails that hold one, then by its latest ban, then by
the address itself. The ranking depends only on which bans there are, not on the order of the jails.
-/

namespace BanBoard.Overview

open BanBoard.Json
open BanBoard.Text (le)
open BanBoard.Time (Instant)

/-- An address with the jails that hold it. -/
structure Offender where
  ip : List Char
  jails : List (List Char)
  lastBanned : Option Instant
  country : Option (List Char)
  deriving DecidableEq

namespace Offender

def jailCount (offender : Offender) : Nat := offender.jails.length

end Offender

/-- Insert a word into an ascending list of distinct words. -/
def insertWord (w : List Char) : List (List Char) → List (List Char)
  | [] => [w]
  | v :: rest =>
    if w = v then v :: rest else if le w v then w :: v :: rest else v :: insertWord w rest

def distinctWords (words : List (List Char)) : List (List Char) := words.foldr insertWord []

/-- A ban: the name of a jail and an entry in its list. -/
abbrev Ban := List Char × BannedAddress

def bansOf (jails : List Jail) : List Ban :=
  jails.flatMap fun jail => jail.banned.map fun entry => (jail.name, entry)

/-- Whether one time is no later than another. An unknown time comes before every known one. -/
def timeLe : Option Instant → Option Instant → Bool
  | none, _ => true
  | some _, none => false
  | some a, some b => a.le b

/-- The later of two times, of which either may be unknown. -/
def laterTime (a b : Option Instant) : Option Instant := if timeLe a b then b else a

def latestBan (bans : List Ban) : Option Instant :=
  (bans.map fun ban => ban.2.bannedAt).foldl laterTime none

/-- What a country is known from: the time of the ban, the jail and the country itself. -/
structure CountrySource where
  time : Option Instant
  jail : List Char
  country : List Char
  deriving DecidableEq

namespace CountrySource

def ofBan? (ban : Ban) : Option CountrySource :=
  ban.2.country.map fun country => ⟨ban.2.bannedAt, ban.1, country⟩

/-- Whether one source counts for no more than another. The later ban counts for more, then the lower
name of the jail, then the higher name of the country. -/
def le (a b : CountrySource) : Bool :=
  if a.time = b.time then
    if a.jail = b.jail then Text.le a.country b.country else Text.le b.jail a.jail
  else timeLe a.time b.time

end CountrySource

def bestSource (best : Option CountrySource) (source : CountrySource) : Option CountrySource :=
  match best with
  | none => some source
  | some current => if source.le current then some current else some source

/-- The country of an address, from the bans of that address. -/
def countryOf (bans : List Ban) : Option (List Char) :=
  ((bans.filterMap CountrySource.ofBan?).foldl bestSource none).map CountrySource.country

def offenderOf (bans : List Ban) (ip : List Char) : Offender :=
  let own := bans.filter fun ban => ban.2.ip = ip
  ⟨ip, distinctWords (own.map Prod.fst), latestBan own, countryOf own⟩

def rankLe (a b : Offender) : Bool :=
  if a.jailCount = b.jailCount then
    if a.lastBanned = b.lastBanned then le a.ip b.ip else timeLe b.lastBanned a.lastBanned
  else b.jailCount < a.jailCount

def ranking (jails : List Jail) : List Offender :=
  let bans := bansOf jails
  ((distinctWords (bans.map fun ban => ban.2.ip)).map (offenderOf bans)).mergeSort rankLe

def topOffenders (jails : List Jail) (limit : Nat) : List Offender := (ranking jails).take limit

def Offender.toValue (offender : Offender) : Value :=
  .object <|
    [("ip", .text offender.ip), ("jails", .array (offender.jails.map .text)),
      ("jailCount", .nat offender.jailCount)] ++
      Value.optional "lastBanned" (offender.lastBanned.map fun t => .text t.write) ++
      Value.optional "country" (offender.country.map .text)

end BanBoard.Overview
