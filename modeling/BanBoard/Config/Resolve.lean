import BanBoard.Config.File
import BanBoard.Text.Blank

/-!
The resolution of a configuration from its sources. A file overrides what is built in, and the
environment overrides the file; a variable that is blank counts as unset.
-/

namespace BanBoard.Config

open BanBoard.Text

/-- Why there is no configuration. -/
inductive Error where
  | io (path : List Char) (reason : List Char)
  | yaml
  | invalidValue (key : String) (value : List Char) (reason : String)
  deriving DecidableEq

/-- The wording of an error. That of a malformed document says only what it is. -/
def Error.message : Error → List Char
  | .io path reason => "Failed to read config file ".toList ++ path ++ ':' :: ' ' :: reason
  | .yaml => "Invalid config file".toList
  | .invalidValue key value reason =>
    "Invalid value for ".toList ++ key.toList ++ ": '".toList ++ value ++ "' (".toList ++
      reason.toList ++ [')']

/-- A variable that is set to more than blanks. -/
def nonBlank? (env : Environment) (name : String) : Option (List Char) :=
  (env.get? name).filter fun value => !isBlankText value

/-- A value read from a variable, or the present one when the variable is unset. -/
def override {α : Type} (env : Environment) (name : String) (present : α)
    (read : List Char → Except String α) : Except Error α :=
  match nonBlank? env name with
  | none => .ok present
  | some value =>
    match read value with
    | .ok x => .ok x
    | .error reason => .error (.invalidValue name value reason)

/-- Read a bounded number, blanks around it ignored. -/
def readBounded (bound : Nat) (value : List Char) : Except String Nat :=
  match readUnsigned 10 bound (trim value) with
  | .ok n => .ok n
  | .error reason => .error reason.message

def readDemoSetting (value : List Char) : Except String DemoSetting :=
  match DemoSetting.ofText? value with
  | some setting => .ok setting
  | none => .error DemoSetting.expected

/-- Read a yes or no, in any case and with blanks around it. -/
def readYesNo (value : List Char) : Except String Bool :=
  match yesNo? (lowerAscii (trim value)) with
  | some b => .ok b
  | none => .error "expected true or false"

/-- The remote host after the environment has been taken into account. A host from the environment
keeps the user and the key of the host it replaces. -/
def overrideSsh (env : Environment) (present : Option SshTarget) : Option SshTarget :=
  let target : Option SshTarget :=
    match nonBlank? env "F2B_SSH_HOST" with
    | some host =>
      some ⟨host, (present.map SshTarget.user).getD defaultSshUser, present.bind SshTarget.key⟩
    | none => present
  target.map fun target =>
    ⟨target.host, (nonBlank? env "F2B_SSH_USER").getD target.user,
      (nonBlank? env "F2B_SSH_KEY").or target.key⟩

/-- Take the environment into a configuration. Of several bad values the one that stands first here is
reported. -/
def applyEnvironment (config : Config) (env : Environment) : Except Error Config := do
  let port ← override env "F2B_PORT" config.port fun value =>
    (readBounded maxWord16 value).map Nat.toUInt16
  let demo ← override env "F2B_DEMO" config.demo readDemoSetting
  let useSudo ← override env "F2B_USE_SUDO" config.useSudo readYesNo
  let commandTimeout ← override env "F2B_COMMAND_TIMEOUT" config.commandTimeout fun value =>
    (readBounded maxWord64 value).map Nat.toUInt64
  if commandTimeout = 0 then
    .error (.invalidValue "command_timeout" ['0'] "must be at least one second")
  else
    .ok {
      bind := (nonBlank? env "F2B_BIND").getD config.bind
      port := port
      demo := demo
      client := (nonBlank? env "F2B_CLIENT").getD config.client
      useSudo := useSudo
      ssh := overrideSsh env config.ssh
      logPath := ((nonBlank? env "F2B_LOG_PATH").or (nonBlank? env "F2B_DB_PATH")).getD
        config.logPath
      commandTimeout := commandTimeout
      staticDir := (nonBlank? env "F2B_STATIC_DIR").or config.staticDir }

/-- The configuration that settings of a file and an environment give. -/
def resolve (base : Config) (file : FileSettings) (env : Environment) : Except Error Config :=
  (base.applyFile file).applyEnvironment env

/-- The configuration that a document, if there is one, and an environment give. -/
def ofSources (base : Config) (text : Option (List Char)) (env : Environment) :
    Except Error Config :=
  match text with
  | none => base.resolve .none_ env
  | some text =>
    match FileSettings.ofText? text with
    | none => .error .yaml
    | some file => base.resolve file env

end BanBoard.Config
