import BanBoard.Config.Basic
import BanBoard.Yaml.Typed

/-!
The settings that a configuration file gives. Every one of them may be missing, but a file may name no
other, and none twice.
-/

namespace BanBoard.Config

open BanBoard.Text (maxWord16 maxWord64)
open BanBoard.Yaml (Document Node Scalar)

structure FileSettings where
  bind : Option (List Char)
  port : Option UInt16
  demo : Option DemoSetting
  client : Option (List Char)
  useSudo : Option Bool
  sshHost : Option (List Char)
  sshUser : Option (List Char)
  sshKey : Option (List Char)
  logPath : Option (List Char)
  commandTimeout : Option UInt64
  staticDir : Option (List Char)
  deriving DecidableEq

def FileSettings.none_ : FileSettings :=
  ⟨none, none, none, none, none, none, none, none, none, none, none⟩

def settingNames : List String :=
  ["bind", "port", "demo", "client", "use_sudo", "ssh_host", "ssh_user", "ssh_key", "log_path",
    "command_timeout_secs", "static_dir"]

def member? (document : Document) (entry : Node × Node) : Option (List Char × Node) :=
  match document.resolve entry.1 with
  | .scalar key => some (key.text, document.resolve entry.2)
  | _ => none

/-- The members of a document, if each is a setting and none is there twice. An empty root is a
mapping without members. -/
def members? (document : Document) : Option (List (List Char × Node)) :=
  match document.root with
  | .mapping entries => do
    let members ← entries.mapM (member? document)
    let names := members.map Prod.fst
    if names.all (fun name => (settingNames.map String.toList).contains name) && names.Nodup then
      some members
    else none
  | .scalar s => if s.text.isEmpty && s.style = .plain then some [] else none
  | _ => none

/-- The setting of a given name, read from a scalar that is not null. The outer result is missing when
the value cannot be read. -/
def setting? {α : Type} (members : List (List Char × Node)) (name : String)
    (read : Scalar → Option α) : Option (Option α) :=
  match members.find? fun member => member.1 = name.toList with
  | none => some none
  | some (_, .scalar s) => do
    if ← s.isNull? then some none else (read s).map some
  | some _ => none

/-- Read a text. Every scalar has one, whatever else it may denote. -/
def readText (s : Scalar) : Option (List Char) := some s.text

def readPort (s : Scalar) : Option UInt16 := (s.natural? maxWord16).map Nat.toUInt16

def readSeconds (s : Scalar) : Option UInt64 := (s.natural? maxWord64).map Nat.toUInt64

/-- Read the setting of the mode: a truth value, or one of its words. A plain number is neither. -/
def readDemo (s : Scalar) : Option DemoSetting :=
  match s.tag with
  | some tag =>
    if tag = Yaml.standardTag "bool" then (Yaml.boolWord? s.text).map .ofBool
    else if tag = Yaml.standardTag "int" || tag = Yaml.standardTag "float" ||
        tag = Yaml.standardTag "null" || tag.head? = some '!' then none
    else DemoSetting.ofText? s.text
  | none =>
    if s.style = .plain then
      match Yaml.boolWord? s.text with
      | some b => some (.ofBool b)
      | none =>
        if (Yaml.natural? maxWord64 s.text).isSome then none else DemoSetting.ofText? s.text
    else DemoSetting.ofText? s.text

def FileSettings.ofDocument? (document : Document) : Option FileSettings := do
  let members ← members? document
  some {
    bind := ← setting? members "bind" readText
    port := ← setting? members "port" readPort
    demo := ← setting? members "demo" readDemo
    client := ← setting? members "client" readText
    useSudo := ← setting? members "use_sudo" Scalar.bool?
    sshHost := ← setting? members "ssh_host" readText
    sshUser := ← setting? members "ssh_user" readText
    sshKey := ← setting? members "ssh_key" readText
    logPath := ← setting? members "log_path" readText
    commandTimeout := ← setting? members "command_timeout_secs" readSeconds
    staticDir := ← setting? members "static_dir" readText }

/-- The settings of a text. A text without a document gives none. -/
def FileSettings.ofText? (text : List Char) : Option FileSettings := do
  match ← Yaml.readText? text with
  | none => some .none_
  | some document => FileSettings.ofDocument? document

/-- Take the settings of a file into a configuration. The user and the key of a remote host count only
together with that host, and an empty host is none. -/
def applyFile (config : Config) (file : FileSettings) : Config where
  bind := file.bind.getD config.bind
  port := file.port.getD config.port
  demo := file.demo.getD config.demo
  client := file.client.getD config.client
  useSudo := file.useSudo.getD config.useSudo
  ssh :=
    match file.sshHost.filter fun host => !host.isEmpty with
    | some host => some ⟨host, file.sshUser.getD defaultSshUser, file.sshKey⟩
    | none => config.ssh
  logPath := file.logPath.getD config.logPath
  commandTimeout := file.commandTimeout.getD config.commandTimeout
  staticDir := file.staticDir.or config.staticDir

end BanBoard.Config
