import BanBoard.Proofs.Config.Precedence

/-!
The remote host and what belongs to it. The host itself has the same sources as any other setting. Its
user and its key do as long as the file names a host; when only the environment does, the user and the
key of the file are lost.
-/

namespace BanBoard.Config

/-- The remote host when each of its parts has its own sources. A user and a key count only where there
is a host. -/
def preferredSsh (file : FileSettings) (env : Environment) : Option SshTarget :=
  ((nonBlank? env "F2B_SSH_HOST").or file.sshHost).map fun host =>
    ⟨host, ((nonBlank? env "F2B_SSH_USER").or file.sshUser).getD defaultSshUser,
      (nonBlank? env "F2B_SSH_KEY").or file.sshKey⟩

def FileSettings.withoutLogin (file : FileSettings) : FileSettings :=
  { file with sshUser := none, sshKey := none }

/-- Whether the environment alone names a host, and the file has a user or a key that would matter
there. -/
def LosesLogin (file : FileSettings) (env : Environment) : Prop :=
  file.sshHost = none ∧ (nonBlank? env "F2B_SSH_HOST").isSome = true ∧
    ((nonBlank? env "F2B_SSH_USER" = none ∧ file.sshUser.getD defaultSshUser ≠ defaultSshUser) ∨
      (nonBlank? env "F2B_SSH_KEY" = none ∧ file.sshKey ≠ none))

variable {base config : Config} {file : FileSettings} {env : Environment}

/-- A host in the file brings its user and its key along. -/
theorem overrideSsh_of_fileHost {host : List Char} (hHost : file.sshHost = some host)
    (hSome : host ≠ []) :
    overrideSsh env (base.applyFile file).ssh = preferredSsh file env := by
  have hFile : (base.applyFile file).ssh =
      some ⟨host, file.sshUser.getD defaultSshUser, file.sshKey⟩ := by
    rw [applyFile, hHost, Option.filter_some_pos (by simp [hSome])]
  rw [hFile]
  cases hEnv : nonBlank? env "F2B_SSH_HOST" <;> simp [overrideSsh, preferredSsh, hHost, hEnv]

/-- Without a host in the file, its user and its key are not looked at. -/
theorem overrideSsh_of_noFileHost (hBase : base.ssh = none) (hHost : file.sshHost = none) :
    overrideSsh env (base.applyFile file).ssh = preferredSsh file.withoutLogin env := by
  have hFile : (base.applyFile file).ssh = none := by
    rw [applyFile, hHost]
    exact hBase
  rw [hFile]
  cases hEnv : nonBlank? env "F2B_SSH_HOST" <;>
    simp [overrideSsh, preferredSsh, FileSettings.withoutLogin, hHost, hEnv]

/-- The user and the key of the file make a difference just when they are lost. -/
theorem preferredSsh_withoutLogin_iff (hHost : file.sshHost = none) :
    preferredSsh file.withoutLogin env = preferredSsh file env ↔ ¬ LosesLogin file env := by
  cases hEnv : nonBlank? env "F2B_SSH_HOST" with
  | none => simp [preferredSsh, FileSettings.withoutLogin, LosesLogin, hHost, hEnv]
  | some host =>
      cases hUser : nonBlank? env "F2B_SSH_USER" <;> cases hKey : nonBlank? env "F2B_SSH_KEY" <;>
        simp [preferredSsh, FileSettings.withoutLogin, LosesLogin, hHost, hEnv, hUser, hKey, eq_comm]

/-- There is a remote host just when a source names one, and it is the one of the environment if there is
one there. Its user and its key have their preferred values, unless the environment names the host
alone: then those of the file are passed over. -/
theorem ssh_isPreferred {text : Option (List Char)} (hText : settingsOf? text = some file)
    (hHost : file.sshHost ≠ some []) (dataDir : Option (List Char))
    (h : (default dataDir).ofSources text env = .ok config) :
    config.ssh.map SshTarget.host = (nonBlank? env "F2B_SSH_HOST").or file.sshHost ∧
    (config.ssh = preferredSsh file env ↔ ¬ LosesLogin file env) ∧
    (LosesLogin file env → config.ssh = preferredSsh file.withoutLogin env) := by
  rw [ofSources_eq hText] at h
  rw [(isResolved_of_resolve h).2.2]
  have hMap (file : FileSettings) : (preferredSsh file env).map SshTarget.host =
      (nonBlank? env "F2B_SSH_HOST").or file.sshHost := by
    simp [preferredSsh, Function.comp_def]
  cases hFile : file.sshHost with
  | none =>
      rw [overrideSsh_of_noFileHost rfl hFile, preferredSsh_withoutLogin_iff hFile, hMap]
      exact ⟨congrArg _ hFile, Iff.rfl, fun _ => rfl⟩
  | some host =>
      have hSome : host ≠ [] := fun hNone => hHost (hNone ▸ hFile)
      have hKept : ¬ LosesLogin file env := fun hLost =>
        Option.some_ne_none host (hFile.symm.trans hLost.1)
      rw [overrideSsh_of_fileHost hFile hSome, hMap, hFile]
      exact ⟨rfl, iff_of_true rfl hKept, fun hLost => (hKept hLost).elim⟩

/-- The host of the file is replaced, its user is kept, and the environment adds a key. -/
theorem ssh_isPreferred_replacedHost :
    let text := some "ssh_host: fw1\nssh_user: admin\n".toList
    let file : FileSettings := { FileSettings.none_ with
      sshHost := some "fw1".toList, sshUser := some "admin".toList }
    let env : Environment := [("F2B_SSH_HOST".toList, "fw2".toList),
      ("F2B_SSH_KEY".toList, "/keys/id".toList)]
    let config : Config := { default none with
      ssh := some ⟨"fw2".toList, "admin".toList, some "/keys/id".toList⟩ }
    settingsOf? text = some file ∧ file.sshHost ≠ some [] ∧
    (default none).ofSources text env = .ok config ∧ ¬ LosesLogin file env ∧
    config.ssh = preferredSsh file env := by
  intro text file env config
  have hText : settingsOf? text = some file := by decide +kernel
  have hHost : file.sshHost ≠ some [] := by decide
  have hConfig : (default none).ofSources text env = .ok config := by
    rw [ofSources_eq hText]
    rfl
  have hKept : ¬ LosesLogin file env := fun hLost => Option.some_ne_none _ hLost.1
  exact ⟨hText, hHost, hConfig, hKept, (ssh_isPreferred hText hHost none hConfig).2.1.mpr hKept⟩

/-- A file that leaves the host to the environment loses its user and its key. -/
theorem ssh_losesLogin :
    let text := some "ssh_user: admin\nssh_key: /keys/id\n".toList
    let file : FileSettings := { FileSettings.none_ with
      sshUser := some "admin".toList, sshKey := some "/keys/id".toList }
    let env : Environment := [("F2B_SSH_HOST".toList, "fw1".toList)]
    let config : Config := { default none with ssh := some ⟨"fw1".toList, "root".toList, none⟩ }
    settingsOf? text = some file ∧ (default none).ofSources text env = .ok config ∧
    preferredSsh file env = some ⟨"fw1".toList, "admin".toList, some "/keys/id".toList⟩ ∧
    config.ssh ≠ preferredSsh file env := by
  intro text file env config
  have hText : settingsOf? text = some file := by decide +kernel
  have hConfig : (default none).ofSources text env = .ok config := by
    rw [ofSources_eq hText]
    rfl
  exact ⟨hText, hConfig, rfl, by decide⟩

end BanBoard.Config
