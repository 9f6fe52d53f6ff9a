import BanBoard.Mode
import BanBoard.Text.Decimal

/-!
The configuration of the dashboard, and where it stands before any source has been read.
-/

namespace BanBoard

open BanBoard.Text

structure SshTarget where
  host : List Char
  user : List Char
  key : Option (List Char)
  deriving DecidableEq

/-- The whole configuration. The timeout of a command is in seconds. -/
structure Config where
  bind : List Char
  port : UInt16
  demo : DemoSetting
  client : List Char
  useSudo : Bool
  ssh : Option SshTarget
  logPath : List Char
  commandTimeout : UInt64
  staticDir : Option (List Char)
  deriving DecidableEq

namespace Config

def defaultSshUser : List Char := "root".toList

/-- A path below a directory. A slash that ends the directory is not doubled. -/
def below (directory path : List Char) : List Char :=
  if directory.getLast? = some '/' then directory ++ path else directory ++ '/' :: path

/-- The path of the log below a directory for data, or below the current directory when there is none
for data. -/
def defaultLogPath (dataDir : Option (List Char)) : List Char :=
  below (dataDir.getD ['.']) "f2b-dashboard/actions.jsonl".toList

/-- The configuration that holds where no source says otherwise. -/
def default (dataDir : Option (List Char)) : Config where
  bind := "0.0.0.0".toList
  port := 8502
  demo := .auto
  client := "fail2ban-client".toList
  useSudo := true
  ssh := none
  logPath := defaultLogPath dataDir
  commandTimeout := 10
  staticDir := none

/-- The host to listen on, as it stands before the port. An address with colons goes into brackets,
unless it has one in front already. -/
def listenHost (config : Config) : List Char :=
  if config.bind.contains ':' && config.bind.head? ≠ some '[' then '[' :: config.bind ++ [']']
  else config.bind

def listenAddress (config : Config) : List Char :=
  config.listenHost ++ ':' :: decimal config.port.toNat

def isRemote (config : Config) : Bool := config.ssh.isSome

end Config

/-- The variables of an environment that are set. -/
abbrev Environment := List (List Char × List Char)

def Environment.get? (env : Environment) (name : String) : Option (List Char) :=
  (env.find? fun entry => entry.1 = name.toList).map Prod.snd

/-- The home that an environment names, or else the one that the machine has for the account. An empty one
is none. -/
def Environment.home? (env : Environment) (accountHome : Option (List Char)) : Option (List Char) :=
  ((env.get? "HOME").filter fun home => !home.isEmpty).or
    (accountHome.filter fun home => !home.isEmpty)

/-- The directory for data that an environment names, or one below the home. A relative one is no such
directory. -/
def Environment.dataDir? (env : Environment) (accountHome : Option (List Char)) :
    Option (List Char) :=
  match env.get? "XDG_DATA_HOME" with
  | some ('/' :: rest) => some ('/' :: rest)
  | _ => (env.home? accountHome).map fun home => Config.below home ".local/share".toList

end BanBoard
