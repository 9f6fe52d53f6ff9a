import BanBoard.Config.Load
import BanBoard.Proofs.Config.SshTarget

/-!
Blank settings. A blank variable counts for no more than one that is not set, but a blank text in a file
stays what it is wherever no variable replaces it; only the empty name of a remote host is none there. The
variable that names the file is taken as it is as well.
-/

namespace BanBoard

open BanBoard.Text

/-- Whether a text is kept, or was blank and is gone. -/
def DropsBlank (text text' : Option (List Char)) : Prop :=
  text' = text ∨ text' = none ∧ ∃ blank ∈ text, isBlankText blank = true

/-- Whether an environment is another one without some of its blank variables. -/
def Environment.DropsBlanks (env env' : Environment) : Prop :=
  ∀ name, DropsBlank (env.get? name) (env'.get? name)

section Text

variable {text text' : Option (List Char)}

/-- With blanks left out, nothing tells the two texts apart. -/
theorem DropsBlank.filter_eq (h : DropsBlank text text') :
    (text'.filter fun value => !isBlankText value) = text.filter fun value => !isBlankText value := by
  obtain rfl | ⟨rfl, blank, hText, hBlank⟩ := h
  · rfl
  · rw [Option.mem_def.mp hText, Option.filter_none, Option.filter_some_neg (by simp [hBlank])]

/-- A blank text that is gone is missed, since what is built in is not blank. -/
theorem DropsBlank.getD_eq_iff (h : DropsBlank text text') (builtIn : List Char) {builtIn' : List Char}
    (hSome : isBlankText builtIn' = false) :
    text.getD builtIn = text'.getD builtIn' ↔
      text' = text ∧ (text' = none → builtIn' = builtIn) := by
  obtain rfl | ⟨rfl, blank, hText, hBlank⟩ := h
  · cases text' <;> simp [eq_comm]
  · obtain rfl := Option.mem_def.mp hText
    have hOther : blank ≠ builtIn' := fun hSame => by
      rw [hSame, hSome] at hBlank
      contradiction
    simp [hOther]

/-- A built-in text in its place tells them apart, unless nothing was dropped. -/
theorem DropsBlank.getD_eq_getD_iff (h : DropsBlank text text') {builtIn : List Char}
    (hSome : isBlankText builtIn = false) : text.getD builtIn = text'.getD builtIn ↔ text' = text := by
  rw [h.getD_eq_iff builtIn hSome, and_iff_left fun _ => rfl]

end Text

section Environment

variable {env env' : Environment}

/-- Blank variables are not looked at, so dropping them changes no lookup. -/
theorem Environment.DropsBlanks.nonBlank?_eq (h : env.DropsBlanks env') (name : String) :
    Config.nonBlank? env' name = Config.nonBlank? env name :=
  (h name).filter_eq

/-- Without an absolute directory for data of its own an environment has one below its home. -/
theorem Environment.dataDir?_of_relative
    (h : ∀ rest, env.get? "XDG_DATA_HOME" ≠ some ('/' :: rest)) (accountHome : Option (List Char)) :
    env.dataDir? accountHome =
      (env.home? accountHome).map fun home => Config.below home ".local/share".toList := by
  unfold Environment.dataDir?
  split
  · rename_i rest hRest
    exact (h rest hRest).elim
  · rfl

/-- The directory for data changes only when it is one below a home, and then there is none or another one
below a home. -/
theorem Environment.DropsBlanks.dataDir?_cases (h : env.DropsBlanks env')
    (accountHome : Option (List Char)) :
    env'.dataDir? accountHome = env.dataDir? accountHome ∨
      env.dataDir? accountHome =
        (env.home? accountHome).map (fun home => Config.below home ".local/share".toList) ∧
      env'.dataDir? accountHome =
        (env'.home? accountHome).map (fun home => Config.below home ".local/share".toList) := by
  by_cases hAbsolute : ∃ rest, env.get? "XDG_DATA_HOME" = some ('/' :: rest)
  · obtain ⟨rest, hRest⟩ := hAbsolute
    obtain hKept | ⟨-, blank, hBlank, hBlanks⟩ := h "XDG_DATA_HOME"
    · rw [hRest] at hKept
      rw [Environment.dataDir?, Environment.dataDir?, hRest, hKept]
      exact Or.inl rfl
    · rw [hRest] at hBlank
      obtain rfl := Option.some.inj hBlank
      simp [isBlankText, isBlank] at hBlanks
  · have hRelative : ∀ rest, env.get? "XDG_DATA_HOME" ≠ some ('/' :: rest) := fun rest hRest =>
      hAbsolute ⟨rest, hRest⟩
    have hRelative' : ∀ rest, env'.get? "XDG_DATA_HOME" ≠ some ('/' :: rest) := by
      obtain hKept | ⟨hGone, -⟩ := h "XDG_DATA_HOME"
      · rwa [hKept]
      · rw [hGone]
        exact fun rest => (Option.some_ne_none _).symm
    exact Or.inr ⟨dataDir?_of_relative hRelative _, dataDir?_of_relative hRelative' _⟩

/-- A blank variable may go where there is no other of its name. -/
theorem Environment.dropsBlanks_cons {name value : List Char} (hBlank : isBlankText value = true)
    (hOther : ∀ entry ∈ env, entry.1 ≠ name) : Environment.DropsBlanks ((name, value) :: env) env := by
  intro other
  by_cases hName : name = other.toList
  · refine Or.inr ⟨?_, value, ?_, hBlank⟩
    · rw [Environment.get?, List.find?_eq_none.mpr (by simpa [← hName] using hOther), Option.map_none]
    · rw [Environment.get?, List.find?_cons_of_pos (by simpa using hName), Option.map_some]
      exact rfl
  · refine Or.inl ?_
    rw [Environment.get?, Environment.get?, List.find?_cons_of_neg (by simpa using hName)]

end Environment

namespace Config

variable {base base' config config' : Config} {file file' : FileSettings} {env env' : Environment}
  {accountHome : Option (List Char)}

/-- The end of a path below a directory is that of the path. -/
theorem exists_below_eq_append (directory path : List Char) :
    ∃ above, below directory path = above ++ path := by
  rw [below]
  split
  · exact ⟨directory, rfl⟩
  · exact ⟨directory ++ ['/'], List.append_cons _ _ _⟩

/-- Two directories of which neither ends in a slash have no path below them in common. -/
theorem below_left_inj {directory directory' : List Char} (h : directory.getLast? ≠ some '/')
    (h' : directory'.getLast? ≠ some '/') (path : List Char) :
    below directory path = below directory' path ↔ directory = directory' := by
  rw [below, below, if_neg h, if_neg h', List.append_left_inj]

/-- The built-in path of the log is not blank. -/
theorem isBlankText_defaultLogPath (dataDir : Option (List Char)) :
    isBlankText (defaultLogPath dataDir) = false := by
  have hName : "f2b-dashboard/actions.jsonl".toList.all isBlank = false := by decide
  rw [defaultLogPath, below]
  split
  · rw [isBlankText, List.all_append, hName, Bool.and_false]
  · rw [isBlankText, List.all_append, List.all_cons, hName, Bool.and_false, Bool.and_false]

/-- Where the log stands tells the directory for data, if that is a share below a home. -/
theorem defaultLogPath_map_below_inj {share : List Char} (hLong : 1 < share.length)
    (hEnd : share.getLast? ≠ some '/') (home home' : Option (List Char)) :
    defaultLogPath (home.map (below · share)) = defaultLogPath (home'.map (below · share)) ↔
      home.map (below · share) = home'.map (below · share) := by
  have hShare (home : List Char) :
      (below home share).getLast? ≠ some '/' ∧ below home share ≠ ['.'] := by
    obtain ⟨above, hAbove⟩ := exists_below_eq_append home share
    have hSome : share ≠ [] := List.ne_nil_of_length_pos (Nat.zero_lt_of_lt hLong)
    rw [hAbove]
    constructor
    · rwa [List.getLast?_append, List.getLast?_eq_some_getLast hSome, Option.some_or,
        ← List.getLast?_eq_some_getLast hSome]
    · intro hDot
      have hLength := congrArg List.length hDot
      rw [List.length_append, List.length_singleton] at hLength
      omega
  have hNoSlash (home : Option (List Char)) :
      ((home.map (below · share)).getD ['.']).getLast? ≠ some '/' := by
    cases home with
    | none => simp
    | some home => exact (hShare home).1
  rw [defaultLogPath, defaultLogPath, below_left_inj (hNoSlash home) (hNoSlash home')]
  cases home <;> cases home' <;> simp [(hShare _).2, (hShare _).2.symm]

/-- The built-in path tells the data directory. -/
theorem defaultLogPath_eq_iff (h : env.DropsBlanks env') :
    defaultLogPath (env'.dataDir? accountHome) = defaultLogPath (env.dataDir? accountHome) ↔
      env'.dataDir? accountHome = env.dataDir? accountHome := by
  obtain hKept | ⟨hHome, hHome'⟩ := h.dataDir?_cases accountHome
  · rw [hKept]
    exact iff_of_true rfl rfl
  · rw [hHome, hHome']
    exact defaultLogPath_map_below_inj (by decide) (by decide) _ _

/-- Whether settings of a file are other ones without some of their blank texts. -/
structure FileSettings.DropsBlanks (file file' : FileSettings) : Prop where
  bind : DropsBlank file.bind file'.bind
  port : file'.port = file.port
  demo : file'.demo = file.demo
  client : DropsBlank file.client file'.client
  useSudo : file'.useSudo = file.useSudo
  sshHost : DropsBlank file.sshHost file'.sshHost
  sshUser : DropsBlank file.sshUser file'.sshUser
  sshKey : DropsBlank file.sshKey file'.sshKey
  logPath : DropsBlank file.logPath file'.logPath
  commandTimeout : file'.commandTimeout = file.commandTimeout
  staticDir : DropsBlank file.staticDir file'.staticDir

/-- The settings of a file with its remote host as it counts: an empty one is none, and without a host
there is no user and no key. -/
def FileSettings.usable (file : FileSettings) : FileSettings :=
  if (file.sshHost.filter fun host => !host.isEmpty).isSome then file
  else { file.withoutLogin with sshHost := none }

/-- Whether every blank text that is gone from a file was hidden: by a variable that replaces it, or for
the remote host because it did not count. -/
structure LeavesNoTrace (accountHome : Option (List Char)) (file file' : FileSettings)
    (env env' : Environment) : Prop where
  bind : nonBlank? env "F2B_BIND" = none → file'.bind = file.bind
  client : nonBlank? env "F2B_CLIENT" = none → file'.client = file.client
  sshHost : nonBlank? env "F2B_SSH_HOST" = none → file'.usable.sshHost = file.usable.sshHost
  sshUser : nonBlank? env "F2B_SSH_USER" = none →
    file'.usable.sshUser.getD defaultSshUser = file.usable.sshUser.getD defaultSshUser
  sshKey : nonBlank? env "F2B_SSH_KEY" = none → file'.usable.sshKey = file.usable.sshKey
  logPath : (nonBlank? env "F2B_LOG_PATH").or (nonBlank? env "F2B_DB_PATH") = none →
    file'.logPath = file.logPath ∧
      (file'.logPath = none → env'.dataDir? accountHome = env.dataDir? accountHome)
  staticDir : nonBlank? env "F2B_STATIC_DIR" = none → file'.staticDir = file.staticDir

/-- Whether a file gives settings, where a load reads one. -/
def FileSettings.IsReadFrom (file : FileSettings) (tree : Files.Tree) (current : Files.Path) :
    Option (List Char) → Prop
  | none => file = .none_
  | some path => ∃ text, tree.readText current path = .ok text ∧ FileSettings.ofText? text = some file

/-- Loading is resolving what was read from the file. -/
theorem load_eq_resolve {tree : Files.Tree} {current : Files.Path} {asked : Option (List Char)}
    (h : file.IsReadFrom tree current (filePath? asked env)) :
    load tree current accountHome asked env =
      (default (env.dataDir? accountHome)).resolve file env := by
  rw [load]
  cases hPath : filePath? asked env with
  | none =>
      rw [hPath] at h
      obtain rfl := h
      rfl
  | some path =>
      rw [hPath] at h
      obtain ⟨text, hRead, hText⟩ := h
      have hSettings : settingsOf? (some text) = some file := hText
      simp only [hRead]
      exact ofSources_eq hSettings _ _

/-- What an environment makes of a configuration, once the values that have to be read are there. -/
def settle (config : Config) (env : Environment) (port : UInt16) (demo : DemoSetting) (useSudo : Bool)
    (commandTimeout : UInt64) : Config where
  bind := (nonBlank? env "F2B_BIND").getD config.bind
  port := port
  demo := demo
  client := (nonBlank? env "F2B_CLIENT").getD config.client
  useSudo := useSudo
  ssh := overrideSsh env config.ssh
  logPath := ((nonBlank? env "F2B_LOG_PATH").or (nonBlank? env "F2B_DB_PATH")).getD config.logPath
  commandTimeout := commandTimeout
  staticDir := (nonBlank? env "F2B_STATIC_DIR").or config.staticDir

/-- Two configurations with the same values where something has to be read are refused alike, or both
get the same values there. -/
theorem applyEnvironment_congr (config config' : Config) (hPort : config'.port = config.port)
    (hDemo : config'.demo = config.demo) (hSudo : config'.useSudo = config.useSudo)
    (hTimeout : config'.commandTimeout = config.commandTimeout) (env : Environment) :
    (∃ error, config.applyEnvironment env = .error error ∧
      config'.applyEnvironment env = .error error) ∨
    ∃ port demo useSudo timeout,
      config.applyEnvironment env = .ok (config.settle env port demo useSudo timeout) ∧
      config'.applyEnvironment env = .ok (config'.settle env port demo useSudo timeout) := by
  unfold applyEnvironment
  rw [hPort, hDemo, hSudo, hTimeout]
  rcases override env "F2B_PORT" config.port _ with error | port
  · exact Or.inl ⟨error, rfl, rfl⟩
  rcases override env "F2B_DEMO" config.demo _ with error | demo
  · exact Or.inl ⟨error, rfl, rfl⟩
  rcases override env "F2B_USE_SUDO" config.useSudo _ with error | useSudo
  · exact Or.inl ⟨error, rfl, rfl⟩
  rcases override env "F2B_COMMAND_TIMEOUT" config.commandTimeout _ with error | commandTimeout
  · exact Or.inl ⟨error, rfl, rfl⟩
  by_cases hZero : commandTimeout = 0
  · exact Or.inl ⟨_, if_pos hZero, if_pos hZero⟩
  · exact Or.inr ⟨port, demo, useSudo, commandTimeout, if_neg hZero, if_neg hZero⟩

/-- Dropping blank variables changes nothing once the file is chosen. -/
theorem resolve_eq_of_dropsBlanks (h : env.DropsBlanks env') :
    base.resolve file env' = base.resolve file env := by
  unfold resolve applyEnvironment override overrideSsh
  simp only [h.nonBlank?_eq]

/-- The target comes from the usable settings of the file and from the environment. -/
theorem overrideSsh_applyFile (hBase : base.ssh = none) :
    overrideSsh env (base.applyFile file).ssh = preferredSsh file.usable env := by
  cases hHost : file.sshHost.filter fun host => !host.isEmpty with
  | none =>
      have hFile : (base.applyFile file).ssh =
          (base.applyFile { file with sshHost := none }).ssh := by
        rw [applyFile, hHost]
        rfl
      rw [hFile, overrideSsh_of_noFileHost hBase rfl, FileSettings.usable, hHost, if_neg (by simp)]
      rfl
  | some host =>
      obtain ⟨hFile, hSome⟩ := Option.filter_eq_some_iff.mp hHost
      rw [overrideSsh_of_fileHost hFile (by simpa using hSome), FileSettings.usable, hHost,
        Option.isSome_some, if_pos rfl]

theorem getD_eq_getD_iff {α : Type} (value? : Option α) (x y : α) :
    value?.getD x = value?.getD y ↔ (value? = none → x = y) := by
  cases value? <;> simp

/-- A choice shows its second part only when the first is missing. -/
theorem or_eq_or_iff {α : Type} (value? x y : Option α) :
    value?.or x = value?.or y ↔ (value? = none → x = y) := by
  cases value? <;> simp

/-- What belongs to a remote host in a file where it counts. -/
theorem FileSettings.usable_cases (file : FileSettings) :
    (∃ host, file.usable.sshHost = some host) ∨
      file.usable.sshHost = none ∧ file.usable.sshUser = none ∧ file.usable.sshKey = none := by
  rw [usable]
  split
  · rename_i hSome
    obtain ⟨host, hHost⟩ := Option.isSome_iff_exists.mp hSome
    exact Or.inl ⟨host, (Option.filter_eq_some_iff.mp hHost).1⟩
  · exact Or.inr ⟨rfl, rfl, rfl⟩

/-- Two files lead to the same target just when they agree where the environment says nothing. -/
theorem preferredSsh_usable_iff :
    preferredSsh file.usable env = preferredSsh file'.usable env ↔
      (nonBlank? env "F2B_SSH_HOST" = none → file'.usable.sshHost = file.usable.sshHost) ∧
      (nonBlank? env "F2B_SSH_USER" = none →
        file'.usable.sshUser.getD defaultSshUser = file.usable.sshUser.getD defaultSshUser) ∧
      (nonBlank? env "F2B_SSH_KEY" = none → file'.usable.sshKey = file.usable.sshKey) := by
  have hLogin (host host' : List Char) :
      some (SshTarget.mk host
        (((nonBlank? env "F2B_SSH_USER").or file.usable.sshUser).getD defaultSshUser)
        ((nonBlank? env "F2B_SSH_KEY").or file.usable.sshKey)) =
      some (SshTarget.mk host'
        (((nonBlank? env "F2B_SSH_USER").or file'.usable.sshUser).getD defaultSshUser)
        ((nonBlank? env "F2B_SSH_KEY").or file'.usable.sshKey)) ↔
      host' = host ∧ (nonBlank? env "F2B_SSH_USER" = none →
        file'.usable.sshUser.getD defaultSshUser = file.usable.sshUser.getD defaultSshUser) ∧
      (nonBlank? env "F2B_SSH_KEY" = none → file'.usable.sshKey = file.usable.sshKey) := by
    cases nonBlank? env "F2B_SSH_USER" <;> cases nonBlank? env "F2B_SSH_KEY" <;> simp [eq_comm]
  unfold preferredSsh
  cases nonBlank? env "F2B_SSH_HOST" with
  | some host => simpa using hLogin host host
  | none =>
      obtain ⟨host, hHost⟩ | ⟨hHost, hUser, hKey⟩ := file.usable_cases <;>
        obtain ⟨host', hHost'⟩ | ⟨hHost', hUser', hKey'⟩ := file'.usable_cases
      · simpa [hHost, hHost'] using hLogin host host'
      · simp [hHost, hHost']
      · simp [hHost, hHost']
      · simp [hHost, hHost', hUser, hUser', hKey, hKey']

/-- Two files settle alike just when the blank texts that are gone leave no trace. -/
theorem settle_eq_iff (hFile : file.DropsBlanks file') (hEnv : env.DropsBlanks env') (port : UInt16)
    (demo : DemoSetting) (useSudo : Bool) (timeout : UInt64) :
    ((default (env.dataDir? accountHome)).applyFile file).settle env port demo useSudo timeout =
        ((default (env'.dataDir? accountHome)).applyFile file').settle env port demo useSudo timeout ↔
      LeavesNoTrace accountHome file file' env env' := by
  have hBind : ((default (env.dataDir? accountHome)).applyFile file).bind =
      ((default (env'.dataDir? accountHome)).applyFile file').bind ↔ file'.bind = file.bind :=
    hFile.bind.getD_eq_getD_iff rfl
  have hClient : ((default (env.dataDir? accountHome)).applyFile file).client =
      ((default (env'.dataDir? accountHome)).applyFile file').client ↔ file'.client = file.client :=
    hFile.client.getD_eq_getD_iff rfl
  have hLog : ((default (env.dataDir? accountHome)).applyFile file).logPath =
      ((default (env'.dataDir? accountHome)).applyFile file').logPath ↔
      file'.logPath = file.logPath ∧
        (file'.logPath = none → env'.dataDir? accountHome = env.dataDir? accountHome) := by
    rw [← defaultLogPath_eq_iff hEnv]
    exact hFile.logPath.getD_eq_iff _ (isBlankText_defaultLogPath _)
  have hStatic (file : FileSettings) (dataDir : Option (List Char)) :
      ((default dataDir).applyFile file).staticDir = file.staticDir := Option.or_none
  rw [settle, settle, mk.injEq, overrideSsh_applyFile rfl, overrideSsh_applyFile rfl,
    preferredSsh_usable_iff, getD_eq_getD_iff, getD_eq_getD_iff, getD_eq_getD_iff, or_eq_or_iff, hBind,
    hClient, hLog, hStatic, hStatic]
  constructor
  · rintro ⟨hBind, -, -, hClient, -, ⟨hHost, hUser, hKey⟩, hLog, -, hStatic⟩
    exact ⟨hBind, hClient, hHost, hUser, hKey, hLog, fun hNone => (hStatic hNone).symm⟩
  · intro h
    exact ⟨h.bind, rfl, rfl, h.client, rfl, ⟨h.sshHost, h.sshUser, h.sshKey⟩, h.logPath, rfl,
      fun hNone => (h.staticDir hNone).symm⟩

/-- Resolving comes to the same result just when the settings are refused or no blank one leaves a trace. -/
theorem resolve_default_eq_iff (hFile : file.DropsBlanks file') (hEnv : env.DropsBlanks env') :
    (default (env.dataDir? accountHome)).resolve file env =
        (default (env'.dataDir? accountHome)).resolve file' env' ↔
      IsRefused (default (env.dataDir? accountHome)) file env ∨
        LeavesNoTrace accountHome file file' env env' := by
  have hRefused : IsRefused (default (env.dataDir? accountHome)) file env ↔
      ¬ ∃ config, (default (env.dataDir? accountHome)).resolve file env = .ok config :=
    Iff.trans Classical.not_not.symm (not_congr exists_resolve_iff.symm)
  rw [resolve_eq_of_dropsBlanks hEnv, hRefused, resolve, resolve]
  obtain ⟨error, hFails, hFails'⟩ | ⟨port, demo, useSudo, timeout, hOk, hOk'⟩ :=
    applyEnvironment_congr ((default (env.dataDir? accountHome)).applyFile file)
      ((default (env'.dataDir? accountHome)).applyFile file') (congrArg (Option.getD · 8502) hFile.port)
      (congrArg (Option.getD · DemoSetting.auto) hFile.demo)
      (congrArg (Option.getD · true) hFile.useSudo)
      (congrArg (Option.getD · 10) hFile.commandTimeout) env
  · simp [hFails, hFails']
  · simp [hOk, hOk', settle_eq_iff hFile hEnv]

theorem readText_nil (tree : Files.Tree) (current : Files.Path) :
    tree.readText current [] = .error .notFound := rfl

/-- A load that finds no configuration file does not come to what it would come to without one. -/
theorem load_ne_of_unreadable {tree tree' : Files.Tree} {current : Files.Path}
    {asked : Option (List Char)} {path : List Char} {fault : Files.Fault}
    (hPath : filePath? asked env = some path) (hRead : tree.readText current path = .error fault)
    (hNone : filePath? asked env' = none) :
    load tree current accountHome asked env ≠ load tree' current accountHome asked env' := by
  have hFails : load tree current accountHome asked env = .error (.io path fault.message) := by
    simp only [load, hPath, hRead]
  have hGiven : FileSettings.none_.IsReadFrom tree' current (filePath? asked env') := by
    rw [hNone]
    exact rfl
  rw [hFails, load_eq_resolve hGiven]
  obtain ⟨config, hConfig, -⟩ | ⟨key, value, reason, hError, -⟩ :=
    (settles_resolve (default (env'.dataDir? accountHome)) .none_ env').cases
  · rw [hConfig]
    exact nofun
  · rw [hError]
    exact nofun

/-- Without blank texts in its file and without blank variables a load comes to the same just when it is
refused anyhow or each text was hidden. It does so for any file when only variables go, apart from a home
and from the variable that names the file: where that one leads to no file, the result changes. -/
theorem load_withoutBlanks (hEnv : env.DropsBlanks env') (tree tree' : Files.Tree)
    (current : Files.Path) (accountHome asked : Option (List Char)) :
    (∀ file file', file.DropsBlanks file' → file.IsReadFrom tree current (filePath? asked env) →
      file'.IsReadFrom tree' current (filePath? asked env') →
      (load tree current accountHome asked env = load tree' current accountHome asked env' ↔
        IsRefused (default (env.dataDir? accountHome)) file env ∨
          LeavesNoTrace accountHome file file' env env')) ∧
    (filePath? asked env' = filePath? asked env →
      env'.dataDir? accountHome = env.dataDir? accountHome →
      load tree current accountHome asked env = load tree current accountHome asked env') ∧
    (∀ path, filePath? asked env = some path → filePath? asked env' = none →
      (path = [] ∨ ∃ fault, tree.readText current path = .error fault) →
      load tree current accountHome asked env ≠ load tree' current accountHome asked env') := by
  refine ⟨fun file file' hFile hGiven hGiven' => ?_, fun hPath hDir => ?_,
    fun path hPath hNone hUnreadable => ?_⟩
  · rw [load_eq_resolve hGiven, load_eq_resolve hGiven', resolve_default_eq_iff hFile hEnv]
  · have hSources (text : Option (List Char)) :
        (default (env.dataDir? accountHome)).ofSources text env' =
          (default (env.dataDir? accountHome)).ofSources text env := by
      unfold ofSources
      simp only [resolve_eq_of_dropsBlanks hEnv]
    simp only [load, hPath, hDir, hSources]
  · obtain rfl | ⟨fault, hRead⟩ := hUnreadable
    · exact load_ne_of_unreadable hPath (readText_nil tree current) hNone
    · exact load_ne_of_unreadable hPath hRead hNone

/-- The empty address of a file is hidden by a variable, and its blank user has no host. -/
theorem load_withoutBlanks_hidden :
    let tree : Files.Tree :=
      ⟨[], [(["c.yaml".toList], encodeUtf8 "bind: ''\nssh_user: ' '\n".toList)]⟩
    let tree' : Files.Tree := ⟨[], [(["c.yaml".toList], [])]⟩
    let env' : Environment := [("F2B_BIND".toList, "::1".toList)]
    let env : Environment := ("F2B_PORT".toList, " ".toList) :: env'
    let file : FileSettings := { FileSettings.none_ with bind := some [], sshUser := some [' '] }
    env.DropsBlanks env' ∧ file.DropsBlanks .none_ ∧
    file.IsReadFrom tree [] (filePath? (some "c.yaml".toList) env) ∧
    FileSettings.none_.IsReadFrom tree' [] (filePath? (some "c.yaml".toList) env') ∧
    LeavesNoTrace none file .none_ env env' ∧
    load tree [] none (some "c.yaml".toList) env = load tree' [] none (some "c.yaml".toList) env' := by
  intro tree tree' env' env file
  have hEnv : env.DropsBlanks env' := Environment.dropsBlanks_cons (by decide) (by decide)
  have hFile : file.DropsBlanks .none_ :=
    ⟨Or.inr ⟨rfl, [], rfl, rfl⟩, rfl, rfl, Or.inl rfl, rfl, Or.inl rfl, Or.inr ⟨rfl, [' '], rfl, rfl⟩,
      Or.inl rfl, Or.inl rfl, rfl, Or.inl rfl⟩
  have hGiven : file.IsReadFrom tree [] (filePath? (some "c.yaml".toList) env) :=
    ⟨"bind: ''\nssh_user: ' '\n".toList, rfl, by decide +kernel⟩
  have hGiven' : FileSettings.none_.IsReadFrom tree' [] (filePath? (some "c.yaml".toList) env') :=
    ⟨[], rfl, by decide +kernel⟩
  have hHidden : LeavesNoTrace none file .none_ env env' :=
    ⟨by decide, by decide, by decide, by decide, by decide, by decide, by decide⟩
  exact ⟨hEnv, hFile, hGiven, hGiven', hHidden,
    ((load_withoutBlanks hEnv tree tree' [] none _).1 file .none_ hFile hGiven hGiven').mpr
      (Or.inr hHidden)⟩

/-- An empty address in a file is listened on, although a file without one leaves the address that is
built in. -/
theorem load_keepsEmptyAddress :
    let tree : Files.Tree := ⟨[], [(["c.yaml".toList], encodeUtf8 "bind: ''\n".toList)]⟩
    let tree' : Files.Tree := ⟨[], [(["c.yaml".toList], [])]⟩
    let file : FileSettings := { FileSettings.none_ with bind := some [] }
    file.DropsBlanks .none_ ∧ file.IsReadFrom tree [] (some "c.yaml".toList) ∧
    FileSettings.none_.IsReadFrom tree' [] (some "c.yaml".toList) ∧
    load tree [] none (some "c.yaml".toList) [] = .ok { default none with bind := [] } ∧
    load tree' [] none (some "c.yaml".toList) [] = .ok (default none) ∧
    ({ default none with bind := [] } : Config).listenAddress = ":8502".toList := by
  intro tree tree' file
  have hFile : file.DropsBlanks .none_ :=
    ⟨Or.inr ⟨rfl, [], rfl, rfl⟩, rfl, rfl, Or.inl rfl, rfl, Or.inl rfl, Or.inl rfl, Or.inl rfl,
      Or.inl rfl, rfl, Or.inl rfl⟩
  have hGiven : file.IsReadFrom tree [] (some "c.yaml".toList) :=
    ⟨"bind: ''\n".toList, rfl, by decide +kernel⟩
  have hGiven' : FileSettings.none_.IsReadFrom tree' [] (some "c.yaml".toList) :=
    ⟨[], rfl, by decide +kernel⟩
  refine ⟨hFile, hGiven, hGiven', ?_, ?_, by decide⟩
  · rw [load_eq_resolve hGiven]
    rfl
  · rw [load_eq_resolve hGiven']
    rfl

end Config

end BanBoard
