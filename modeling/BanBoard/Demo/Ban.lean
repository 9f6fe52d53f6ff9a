import BanBoard.Random.Draw
import BanBoard.Text.Decimal

/-!
Synthetic bans, drawn from a stream of random words: an address that looks public, a country, and how many
minutes ago the ban was.
-/

namespace BanBoard.Demo

open BanBoard.Random
open BanBoard.Text (decimal)

/-- The jails that synthetic data shows, in order. -/
def jailNames : List String :=
  ["sshd", "nginx-http-auth", "postfix", "dovecot", "apache-auth", "recidive"]

/-- The countries that synthetic bans come from. -/
def countries : List String := ["CN", "RU", "US", "BR", "IN", "KR", "DE", "FR", "VN", "ID"]

def maxBans : Nat := 8

/-- The number of addresses that several jails may share. -/
def poolSize : Nat := 4

/-- The probability that a ban is of a shared address, three in ten. -/
def sharedChance : Nat := 0x4ccccccccccccc00

structure Origin where
  ip : List Char
  country : List Char
  deriving DecidableEq

/-- A ban of so many minutes ago. -/
structure PlannedBan where
  origin : Origin
  minutesAgo : Nat
  deriving DecidableEq

/-- First octets that do not look like those of a public address. -/
def isPrivateOctet (octet : Nat) : Bool :=
  octet = 10 || octet = 127 || octet = 172 || octet = 192

/-- Draw the first octet of an address, again and again while it does not look public. -/
def drawFirstOctet (tries : Nat) : (octets : Nat) → Draw Nat
  | 0 => fun _ => none
  | octets + 1 => do
    let octet ← rangeByte tries 1 223
    if isPrivateOctet octet then drawFirstOctet tries octets else return octet

/-- Draw an address of version four that looks public. -/
def drawAddress (tries : Nat) : Draw (List Char) := do
  let a ← drawFirstOctet tries tries
  let b ← anyByte
  let c ← anyByte
  let d ← rangeByte tries 1 254
  return decimal a ++ '.' :: decimal b ++ '.' :: decimal c ++ '.' :: decimal d

/-- Draw an address and then its country. -/
def drawOrigin (tries : Nat) : Draw Origin := do
  let ip ← drawAddress tries
  let country ← pick tries [] (countries.map String.toList)
  return ⟨ip, country⟩

/-- Draw a ban, of a shared address or of a new one. -/
def drawBan (tries : Nat) (pool : List Origin) : Draw PlannedBan := do
  let shared ← chance sharedChance
  let origin ← if shared then pick tries ⟨[], []⟩ pool else drawOrigin tries
  let minutesAgo ← range64 tries 1 (23 * 60)
  return ⟨origin, minutesAgo⟩

end BanBoard.Demo
