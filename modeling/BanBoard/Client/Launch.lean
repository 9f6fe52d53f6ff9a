import BanBoard.Client.Command
import BanBoard.Config.Basic
import BanBoard.Shell.Word

/-!
How the daemon's client is launched: directly, with the rights of the superuser, or on another host,
where a shell splits the words again.
-/

namespace BanBoard.Client

open BanBoard.Text

/-- The way in which a client is launched. The timeout is in milliseconds. -/
structure Launch where
  client : List Char
  useSudo : Bool
  ssh : Option SshTarget
  timeout : Nat
  deriving DecidableEq

namespace Launch

def ofConfig (config : Config) : Launch :=
  ⟨config.client, config.useSudo, config.ssh, config.commandTimeout.toNat * 1000⟩

/-- A direct launch with the usual timeout of ten seconds. -/
def direct (client : List Char) : Launch := ⟨client, false, none, 10000⟩

def keyWords : Option (List Char) → Words
  | none => []
  | some key => ["-i".toList, key]

def remoteLine (launch : Launch) (words : Words) : List Char :=
  Shell.joinWords ((launch.client :: words).map Shell.quote)

def commandLine (launch : Launch) (words : Words) : List Char × Words :=
  match launch.ssh with
  | some target =>
    ("ssh".toList,
      ["-o".toList, "BatchMode=yes".toList, "-o".toList,
          "ConnectTimeout=".toList ++ decimal (max (launch.timeout / 1000) 1)] ++
        keyWords target.key ++ [target.user ++ '@' :: target.host, launch.remoteLine words])
  | none =>
    if launch.useSudo then ("sudo".toList, "-n".toList :: launch.client :: words)
    else (launch.client, words)

def describe (launch : Launch) : List Char :=
  match launch.ssh with
  | some target =>
    launch.client ++ " via ssh ".toList ++ target.user ++ '@' :: target.host
  | none => if launch.useSudo then "sudo ".toList ++ launch.client else launch.client

end Launch

end BanBoard.Client
