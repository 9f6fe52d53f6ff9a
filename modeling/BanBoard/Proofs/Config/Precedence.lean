import BanBoard.Proofs.Config.Values

/-!
Which source decides a setting. The variable of a setting comes first, then the file, then what is built
in, and no setting depends on the sources of another one. Sources are refused only for a variable that
cannot be read and for a timeout that comes out as zero.
-/

namespace BanBoard.Config

open BanBoard.Text

/-- Whether a result is as it should be: it has a property, or the value that is reported under a key is
at fault. -/
def Settles {α : Type} (holds : α → Prop) (isFault : String → List Char → Prop) :
    Except Error α → Prop
  | .ok x => holds x
  | .error (.invalidValue key value _) => isFault key value
  | .error _ => False

/-- Two steps settle what both settle, and fail with the fault of the first that fails. -/
theorem Settles.bind {α β : Type} {holds : α → Prop} {isFault : String → List Char → Prop}
    {result : Except Error α} (h : Settles holds isFault result) {next : α → Except Error β}
    {holdsNext : β → Prop} {isFaultNext : String → List Char → Prop}
    (hFault : ∀ key value, isFault key value → isFaultNext key value)
    (hNext : ∀ x, holds x → Settles holdsNext isFaultNext (next x)) :
    Settles holdsNext isFaultNext (result >>= next) := by
  rcases result with (_ | _ | ⟨key, value, reason⟩) | x
  · exact h
  · exact h
  · exact hFault key value h
  · exact hNext x h

/-- A step that settles succeeds or names its fault. -/
theorem Settles.cases {α : Type} {holds : α → Prop} {isFault : String → List Char → Prop}
    {result : Except Error α} (h : Settles holds isFault result) :
    (∃ x, result = .ok x ∧ holds x) ∨
      ∃ key value reason, result = .error (.invalidValue key value reason) ∧ isFault key value := by
  rcases result with (_ | _ | ⟨key, value, reason⟩) | x
  · exact h.elim
  · exact h.elim
  · exact Or.inr ⟨key, value, reason, rfl, h⟩
  · exact Or.inl ⟨x, rfl, h⟩

section Setting

variable {α : Type} {denotes : List Char → α → Prop} {read : List Char → Except String α}

/-- Whether a setting has the value that its variable denotes, or without a variable the one that the
file gives, or else the one that is built in. -/
def IsPreferred (denotes : List Char → α → Prop) (value? : Option (List Char)) (given : Option α)
    (builtIn x : α) : Prop :=
  match value? with
  | some value => denotes value x
  | none => x = given.getD builtIn

/-- Whether a variable has a value that denotes nothing. -/
def IsUnreadable (denotes : List Char → α → Prop) (value? : Option (List Char)) : Prop :=
  ∃ value ∈ value?, ∀ x, ¬ denotes value x

theorem Reads.unique (h : Reads read denotes) {value : List Char} {x y : α} (hx : denotes value x)
    (hy : denotes value y) : x = y :=
  Except.ok.inj (((h value x).mpr hx).symm.trans ((h value y).mpr hy))

variable {value? : Option (List Char)} {given : Option α} {builtIn x y : α}

theorem IsPreferred.not_isUnreadable (h : IsPreferred denotes value? given builtIn x) :
    ¬ IsUnreadable denotes value? := by
  rintro ⟨value, rfl, hNothing⟩
  exact hNothing x h

theorem IsPreferred.unique (hRead : Reads read denotes)
    (hx : IsPreferred denotes value? given builtIn x)
    (hy : IsPreferred denotes value? given builtIn y) : x = y := by
  cases value? with
  | none => exact Eq.trans hx (Eq.symm hy)
  | some value => exact hRead.unique hx hy

/-- A setting gets its preferred value, unless its variable is reported with a value that denotes
nothing. -/
theorem settles_override (hRead : Reads read denotes) (env : Environment) (name : String)
    (given : Option α) (builtIn : α) :
    Settles (IsPreferred denotes (nonBlank? env name) given builtIn)
      (fun key value => key = name ∧ value ∈ nonBlank? env name ∧ ∀ x, ¬ denotes value x)
      (override env name (given.getD builtIn) read) := by
  unfold override
  cases nonBlank? env name with
  | none => exact Eq.refl _
  | some value =>
      dsimp only
      cases hValue : read value with
      | ok x => exact (hRead value x).mp hValue
      | error reason =>
          refine ⟨rfl, rfl, fun x hDenotes => ?_⟩
          cases hValue.symm.trans ((hRead value x).mpr hDenotes)

end Setting

/-- The settings of a document. Without a document there are none. -/
def settingsOf? : Option (List Char) → Option FileSettings
  | none => some .none_
  | some text => FileSettings.ofText? text

/-- Whether a configuration has the preferred value of every setting that stands alone. -/
structure IsResolved (base : Config) (file : FileSettings) (env : Environment) (config : Config) :
    Prop where
  bind : IsPreferred Eq (nonBlank? env "F2B_BIND") file.bind base.bind config.bind
  port : IsPreferred DenotesPort (nonBlank? env "F2B_PORT") file.port base.port config.port
  demo : IsPreferred DenotesDemo (nonBlank? env "F2B_DEMO") file.demo base.demo config.demo
  client : IsPreferred Eq (nonBlank? env "F2B_CLIENT") file.client base.client config.client
  useSudo : IsPreferred DenotesFlag (nonBlank? env "F2B_USE_SUDO") file.useSudo base.useSudo
    config.useSudo
  logPath : IsPreferred Eq ((nonBlank? env "F2B_LOG_PATH").or (nonBlank? env "F2B_DB_PATH"))
    file.logPath base.logPath config.logPath
  commandTimeout : IsPreferred DenotesSeconds (nonBlank? env "F2B_COMMAND_TIMEOUT")
    file.commandTimeout base.commandTimeout config.commandTimeout
  staticDir : IsPreferred (fun value directory => directory = some value)
    (nonBlank? env "F2B_STATIC_DIR") (file.staticDir.map some) base.staticDir config.staticDir

/-- Whether a variable that has to be read cannot be. -/
def HasUnreadable (env : Environment) : Prop :=
  IsUnreadable DenotesPort (nonBlank? env "F2B_PORT") ∨
  IsUnreadable DenotesDemo (nonBlank? env "F2B_DEMO") ∨
  IsUnreadable DenotesFlag (nonBlank? env "F2B_USE_SUDO") ∨
  IsUnreadable DenotesSeconds (nonBlank? env "F2B_COMMAND_TIMEOUT")

/-- Whether the sources make no configuration: a variable cannot be read, or there is no time for a
command. -/
def IsRefused (base : Config) (file : FileSettings) (env : Environment) : Prop :=
  HasUnreadable env ∨
  IsPreferred DenotesSeconds (nonBlank? env "F2B_COMMAND_TIMEOUT") file.commandTimeout
    base.commandTimeout 0

/-- What may be reported, and under which key. -/
inductive IsFault (base : Config) (file : FileSettings) (env : Environment) :
    String → List Char → Prop
  | port {value : List Char} : value ∈ nonBlank? env "F2B_PORT" →
      (∀ port, ¬ DenotesPort value port) → IsFault base file env "F2B_PORT" value
  | demo {value : List Char} : value ∈ nonBlank? env "F2B_DEMO" →
      (∀ setting, ¬ DenotesDemo value setting) → IsFault base file env "F2B_DEMO" value
  | useSudo {value : List Char} : value ∈ nonBlank? env "F2B_USE_SUDO" →
      (∀ b, ¬ DenotesFlag value b) → IsFault base file env "F2B_USE_SUDO" value
  | commandTimeout {value : List Char} : value ∈ nonBlank? env "F2B_COMMAND_TIMEOUT" →
      (∀ seconds, ¬ DenotesSeconds value seconds) → IsFault base file env "F2B_COMMAND_TIMEOUT" value
  | noTime : IsPreferred DenotesSeconds (nonBlank? env "F2B_COMMAND_TIMEOUT") file.commandTimeout
      base.commandTimeout 0 → IsFault base file env "command_timeout" ['0']

variable {base config : Config} {file : FileSettings} {env : Environment}

theorem IsFault.isRefused {key : String} {value : List Char} (h : IsFault base file env key value) :
    IsRefused base file env := by
  cases h with
  | port hValue hNothing => exact Or.inl (Or.inl ⟨value, hValue, hNothing⟩)
  | demo hValue hNothing => exact Or.inl (Or.inr (Or.inl ⟨value, hValue, hNothing⟩))
  | useSudo hValue hNothing => exact Or.inl (Or.inr (Or.inr (Or.inl ⟨value, hValue, hNothing⟩)))
  | commandTimeout hValue hNothing =>
      exact Or.inl (Or.inr (Or.inr (Or.inr ⟨value, hValue, hNothing⟩)))
  | noTime hZero => exact Or.inr hZero

theorem ofSources_eq {text : Option (List Char)} (h : settingsOf? text = some file) (base : Config)
    (env : Environment) : base.ofSources text env = base.resolve file env := by
  cases text with
  | none => rw [ofSources, Option.some.inj h]
  | some text =>
      rw [settingsOf?] at h
      rw [ofSources, h]

/-- A text is taken from the environment, else from the file, else it is built in. -/
theorem isPreferred_getD (value? given : Option (List Char)) (builtIn : List Char) :
    IsPreferred Eq value? given builtIn (value?.getD (given.getD builtIn)) := by
  cases value? <;> rfl

/-- A text that may be missing altogether is taken from the environment or else from the file. -/
theorem isPreferred_or (value? given builtIn : Option (List Char)) :
    IsPreferred (fun value x => x = some value) value? (given.map some) builtIn
      (value?.or (given.or builtIn)) := by
  cases value? <;> cases given <;> rfl

/-- The sources resolve every setting, or a fault of theirs is reported. The remote host has its own
rules. -/
theorem settles_resolve (base : Config) (file : FileSettings) (env : Environment) :
    Settles
      (fun config => IsResolved base file env config ∧ config.commandTimeout ≠ 0 ∧
        config.ssh = overrideSsh env (base.applyFile file).ssh)
      (IsFault base file env) (base.resolve file env) := by
  unfold resolve applyEnvironment
  refine (settles_override reads_port env _ file.port base.port).bind ?_ fun port hPort => ?_
  · rintro _ value ⟨rfl, hValue, hNothing⟩
    exact .port hValue hNothing
  refine (settles_override reads_demo env _ file.demo base.demo).bind ?_ fun demo hDemo => ?_
  · rintro _ value ⟨rfl, hValue, hNothing⟩
    exact .demo hValue hNothing
  refine (settles_override reads_flag env _ file.useSudo base.useSudo).bind ?_ fun useSudo hSudo => ?_
  · rintro _ value ⟨rfl, hValue, hNothing⟩
    exact .useSudo hValue hNothing
  refine (settles_override reads_seconds env _ file.commandTimeout base.commandTimeout).bind ?_
    fun timeout hTimeout => ?_
  · rintro _ value ⟨rfl, hValue, hNothing⟩
    exact .commandTimeout hValue hNothing
  split
  · rename_i hZero
    exact .noTime (hZero ▸ hTimeout)
  · rename_i hSome
    exact ⟨⟨isPreferred_getD _ _ _, hPort, hDemo, isPreferred_getD _ _ _, hSudo,
      isPreferred_getD _ _ _, hTimeout, isPreferred_or _ _ _⟩, hSome, rfl⟩

/-- What is refused is not resolved. -/
theorem IsResolved.not_isRefused (h : IsResolved base file env config)
    (hTimeout : config.commandTimeout ≠ 0) : ¬ IsRefused base file env := by
  rintro ((hBad | hBad | hBad | hBad) | hZero)
  · exact h.port.not_isUnreadable hBad
  · exact h.demo.not_isUnreadable hBad
  · exact h.useSudo.not_isUnreadable hBad
  · exact h.commandTimeout.not_isUnreadable hBad
  · exact hTimeout (h.commandTimeout.unique reads_seconds hZero)

/-- An error names a key and a text that cannot be read. -/
theorem isFault_of_resolve {key : String} {value : List Char} {reason : String}
    (h : base.resolve file env = .error (.invalidValue key value reason)) :
    IsFault base file env key value := by
  have hSettles := settles_resolve base file env
  rwa [h] at hSettles

/-- An error is given just when there is a reason to refuse. -/
theorem resolve_invalid_iff :
    (∃ key value reason, base.resolve file env = .error (.invalidValue key value reason)) ↔
      IsRefused base file env := by
  constructor
  · rintro ⟨key, value, reason, hError⟩
    exact (isFault_of_resolve hError).isRefused
  · intro hRefused
    rcases (settles_resolve base file env).cases with
      ⟨config, -, hResolved, hTimeout, -⟩ | ⟨key, value, reason, hError, -⟩
    · exact (hResolved.not_isRefused hTimeout hRefused).elim
    · exact ⟨key, value, reason, hError⟩

/-- What is accepted is resolved setting by setting. -/
theorem isResolved_of_resolve (h : base.resolve file env = .ok config) :
    IsResolved base file env config ∧ config.commandTimeout ≠ 0 ∧
      config.ssh = overrideSsh env (base.applyFile file).ssh := by
  have hSettles := settles_resolve base file env
  rwa [h] at hSettles

/-- Settings are accepted just when there is no reason to refuse them. -/
theorem exists_resolve_iff :
    (∃ config, base.resolve file env = .ok config) ↔ ¬ IsRefused base file env := by
  constructor
  · rintro ⟨config, hConfig⟩
    obtain ⟨hResolved, hTimeout, -⟩ := isResolved_of_resolve hConfig
    exact hResolved.not_isRefused hTimeout
  · intro hFine
    rcases (settles_resolve base file env).cases with ⟨config, hConfig, -⟩ | ⟨_, _, _, -, hFault⟩
    · exact ⟨config, hConfig⟩
    · exact (hFine hFault.isRefused).elim

/-- A timeout of zero in the file is refused, unless a variable replaces it by another one. -/
theorem not_isRefused_iff_of_zero (hZero : file.commandTimeout = some 0) :
    ¬ IsRefused base file env ↔ ¬ HasUnreadable env ∧
      ∃ value ∈ nonBlank? env "F2B_COMMAND_TIMEOUT", ∃ seconds, seconds ≠ 0 ∧
        DenotesSeconds value seconds := by
  rw [IsRefused, not_or]
  refine and_congr_right fun hReadable => ?_
  have hTimeout : ¬ IsUnreadable DenotesSeconds (nonBlank? env "F2B_COMMAND_TIMEOUT") := fun hBad =>
    hReadable (Or.inr (Or.inr (Or.inr hBad)))
  cases hVariable : nonBlank? env "F2B_COMMAND_TIMEOUT" with
  | none => simp [IsPreferred, hZero]
  | some value =>
      constructor
      · intro hSome
        obtain ⟨seconds, hSeconds⟩ : ∃ seconds, DenotesSeconds value seconds :=
          Classical.byContradiction fun hNothing => hTimeout
            ⟨value, hVariable, fun seconds hSeconds => hNothing ⟨seconds, hSeconds⟩⟩
        exact ⟨value, rfl, seconds, fun hNone => hSome (hNone ▸ hSeconds), hSeconds⟩
      · rintro ⟨other, hOther, seconds, hSome, hSeconds⟩ hNone
        obtain rfl := Option.mem_some.mp hOther
        exact hSome (reads_seconds.unique hSeconds hNone)

/-- Sources with a file that can be decoded are refused with a bad value just when one of the variables
that have to be read cannot be, or when the timeout comes out as zero, and the report names what is at
fault. Otherwise there is a configuration, and every setting of it has its preferred value. -/
theorem settings_arePreferred {text : Option (List Char)} (hText : settingsOf? text = some file)
    (dataDir : Option (List Char)) (env : Environment) :
    ((∃ key value reason,
        (default dataDir).ofSources text env = .error (.invalidValue key value reason)) ↔
      IsRefused (default dataDir) file env) ∧
    (∀ key value reason,
      (default dataDir).ofSources text env = .error (.invalidValue key value reason) →
        IsFault (default dataDir) file env key value) ∧
    ((∃ config, (default dataDir).ofSources text env = .ok config) ↔
      ¬ IsRefused (default dataDir) file env) ∧
    (∀ config, (default dataDir).ofSources text env = .ok config →
      IsResolved (default dataDir) file env config ∧ 1 ≤ config.commandTimeout) ∧
    (file.commandTimeout = some 0 →
      ((∃ config, (default dataDir).ofSources text env = .ok config) ↔
        ¬ HasUnreadable env ∧ ∃ value ∈ nonBlank? env "F2B_COMMAND_TIMEOUT",
          ∃ seconds, seconds ≠ 0 ∧ DenotesSeconds value seconds)) := by
  simp only [ofSources_eq hText]
  refine ⟨resolve_invalid_iff, fun _ _ _ => isFault_of_resolve, exists_resolve_iff,
    fun config hConfig => ?_, fun hZero => ?_⟩
  · obtain ⟨hResolved, hTimeout, -⟩ := isResolved_of_resolve hConfig
    have hSome : config.commandTimeout.toNat ≠ 0 := fun hNone => hTimeout (UInt64.toNat_inj.mp hNone)
    exact ⟨hResolved, UInt64.le_iff_toNat_le.mpr (Nat.one_le_iff_ne_zero.mpr hSome)⟩
  · rw [exists_resolve_iff, not_isRefused_iff_of_zero hZero]

/-- A variable replaces the zero of the file, another one is known by its second name only, and blank
variables do not count. -/
theorem settings_arePreferred_zeroReplaced :
    let dataDir := some "/data".toList
    let text := some "command_timeout_secs: 0\nlog_path: /file.jsonl\nport: 7000\n".toList
    let env : Environment := [("F2B_COMMAND_TIMEOUT".toList, " +3 ".toList),
      ("F2B_LOG_PATH".toList, " ".toList), ("F2B_DB_PATH".toList, "/variable.jsonl".toList),
      ("F2B_PORT".toList, []), ("F2B_USE_SUDO".toList, "OFF".toList)]
    let file : FileSettings := { FileSettings.none_ with
      commandTimeout := some 0, logPath := some "/file.jsonl".toList, port := some 7000 }
    let config : Config := { default dataDir with
      commandTimeout := 3, logPath := "/variable.jsonl".toList, port := 7000, useSudo := false }
    settingsOf? text = some file ∧ (default dataDir).ofSources text env = .ok config ∧
    IsResolved (default dataDir) file env config ∧ ¬ IsRefused (default dataDir) file env := by
  intro dataDir text env file config
  have hText : settingsOf? text = some file := by decide +kernel
  have hConfig : (default dataDir).ofSources text env = .ok config := by
    rw [ofSources_eq hText]
    rfl
  obtain ⟨-, -, hAccepted, hResolved, -⟩ := settings_arePreferred hText dataDir env
  exact ⟨hText, hConfig, (hResolved config hConfig).1, hAccepted.mp ⟨config, hConfig⟩⟩

end BanBoard.Config
