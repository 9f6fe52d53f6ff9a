import BanBoard.Proofs.Service.Accountability
import BanBoard.Proofs.Status.Report
import BanBoard.Service.Jails
import Mathlib.Data.List.Forall2

/-!
Reading from a daemon with fixed replies. Such a daemon may change with every command, but a command has
the same reply whenever it is sent. What the service reads is then decided by the replies alone: each
listed name that can be read has one record, and no record depends on the replies about another name.
-/

namespace BanBoard

open BanBoard.Client
open BanBoard.Time (Zone)

variable {σ : Type}

namespace Client

/-- Whether a reply is that of a program that printed a text and ended with the code zero. -/
def Prints (reply : Reply) (text : List Char) : Prop :=
  ∃ output, reply = .ok output ∧ output.code = some 0 ∧ output.stdout = text

/-- Whether a daemon has fixed replies. Its state may change, but no reply depends on it. -/
def Answers (daemon : Daemon σ) (replies : Words → Reply) : Prop :=
  ∀ state words, (daemon state words).1 = replies words

/-- A text is the result just when the program printed it and ended well. -/
theorem result_eq_ok_iff {reply : Reply} {text : List Char} :
    result reply = .ok text ↔ Prints reply text := by
  cases reply with
  | error e => simp [result, Prints]
  | ok output => by_cases hCode : output.code = some 0 <;> simp [result, Prints, Output.success, hCode]

end Client

namespace Service

/-- A program ended well just when it printed a text, which may be empty. -/
theorem exitedZero_iff {reply : Reply} : ExitedZero reply ↔ ∃ text, Prints reply text := by
  rw [← isOk_result_iff]
  simp only [← result_eq_ok_iff]
  cases Client.result reply <;> simp [Except.isOk, Except.toBool]

instance (reply : Reply) : Decidable (ExitedZero reply) := decidable_of_iff _ isOk_result_iff

theorem exists_error_of_not_exitedZero {reply : Reply} (h : ¬ExitedZero reply) :
    ∃ failure, Client.result reply = .error failure := by
  rw [← isOk_result_iff] at h
  cases hResult : Client.result reply with
  | error failure => exact ⟨failure, rfl⟩
  | ok text =>
      rw [hResult] at h
      exact (h rfl).elim

/-- A report on a name with the times that a reply tells, if any. -/
def timedReport (zone : Zone) (name text : List Char) (reply : Reply) : Jail :=
  let jail := Status.jailReport name text
  if jail.banned.isEmpty then jail
  else
    match Client.result reply with
    | .ok times => (Status.attach (Status.banTimes zone times) jail).2
    | .error _ => jail

/-- The record that replies make for a name, or why they make none. -/
def recordOf (zone : Zone) (replies : Words → Reply) (name : List Char) : Except CommandError Jail :=
  (Client.result (replies (Command.jailStatus name).words)).map fun text =>
    timedReport zone name text (replies (Command.banTimes name).words)

section Records

variable {zone : Zone} {replies : Words → Reply} {name : List Char}

theorem name_timedReport (zone : Zone) (name text : List Char) (reply : Reply) :
    (timedReport zone name text reply).name = name := by
  have hName := Status.name_jailReport name text
  simp only [timedReport]
  split
  · exact hName
  split
  · exact (Status.attach_ips _ _).1.trans hName
  · exact hName

/-- A record is made from the report on its name. -/
theorem recordOf_eq_ok_iff {jail : Jail} : recordOf zone replies name = .ok jail ↔
    ∃ text, Prints (replies ["status".toList, name]) text ∧
      timedReport zone name text (replies (Command.banTimes name).words) = jail := by
  have hWords : (Command.jailStatus name).words = ["status".toList, name] := rfl
  simp only [← result_eq_ok_iff, recordOf, hWords]
  cases Client.result (replies ["status".toList, name]) <;> simp [Except.map]

/-- A record has the name for which it was made. -/
theorem name_of_recordOf {jail : Jail} (h : recordOf zone replies name = .ok jail) :
    jail.name = name := by
  obtain ⟨text, -, rfl⟩ := recordOf_eq_ok_iff.mp h
  exact name_timedReport zone name text _

/-- A name has a record just when the client reports on it. -/
theorem exists_recordOf_iff :
    (∃ jail, recordOf zone replies name = .ok jail) ↔ ExitedZero (replies ["status".toList, name]) := by
  simp only [recordOf_eq_ok_iff, exitedZero_iff]
  constructor
  · rintro ⟨jail, text, hReport, -⟩
    exact ⟨text, hReport⟩
  · rintro ⟨text, hReport⟩
    exact ⟨_, text, hReport, rfl⟩

end Records

/-- The records of some names, in order. Names without one are left out. -/
def recordsOf (zone : Zone) (replies : Words → Reply) (names : List (List Char)) : List Jail :=
  names.filterMap fun name => (recordOf zone replies name).toOption

/-- A jail is among the records as the record of its own name. -/
theorem mem_recordsOf {zone : Zone} {replies : Words → Reply} {names : List (List Char)} {jail : Jail} :
    jail ∈ recordsOf zone replies names ↔
      jail.name ∈ names ∧ recordOf zone replies jail.name = .ok jail := by
  rw [recordsOf, List.mem_filterMap]
  constructor
  · rintro ⟨name, hMem, hSome⟩
    have hRecord : recordOf zone replies name = .ok jail := by
      cases hResult : recordOf zone replies name with
      | error failure => simp [hResult, Except.toOption] at hSome
      | ok found => simpa [hResult, Except.toOption] using hSome
    obtain rfl := name_of_recordOf hRecord
    exact ⟨hMem, hRecord⟩
  · rintro ⟨hMem, hRecord⟩
    exact ⟨jail.name, hMem, by rw [hRecord]; rfl⟩

section Reading

variable {service : Service σ} {replies : Words → Reply} (h : Answers service.daemon replies)
  (state : State σ)
include h

theorem fst_ask (command : Command) :
    (service.ask state command).1 = Client.result (replies command.words) :=
  congrArg Client.result (h state.daemon command.words)

theorem fst_jailNames : (service.jailNames state).1 =
    (Client.result (replies ["status".toList])).map Status.jailList :=
  congrArg (Except.map Status.jailList) (fst_ask h state .status)

/-- What is fetched is the record that the replies make. -/
theorem fst_fetchJail (name : List Char) :
    (service.fetchJail state name).1 = recordOf service.zone replies name := by
  have hTimes := fst_ask h (service.ask state (.jailStatus name)).2 (.banTimes name)
  rw [recordOf, ← fst_ask h state (.jailStatus name)]
  simp only [fetchJail]
  cases (service.ask state (.jailStatus name)).1 with
  | error failure => rfl
  | ok text =>
      simp only [Except.map, timedReport, ← hTimes]
      split
      · rfl
      · cases (service.ask (service.ask state (.jailStatus name)).2 (.banTimes name)).1 <;> rfl

/-- What is fetched for some names are their records, whatever happens to the daemon between them. -/
theorem fst_fetchJails (names : List (List Char)) :
    (service.fetchJails state names).1 = recordsOf service.zone replies names := by
  induction names generalizing state with
  | nil => rfl
  | cons name names ih =>
      have hFirst := fst_fetchJail h state name
      have hRest := ih (service.fetchJail state name).2
      rw [recordsOf, List.filterMap_cons, ← hFirst]
      simp only [fetchJails]
      cases (service.fetchJail state name).1 with
      | error failure => exact hRest
      | ok jail => exact congrArg (jail :: ·) hRest

/-- The jails that are listed are the records of the names that the daemon lists. -/
theorem fst_liveJails : (service.liveJails state).1 =
    ((Client.result (replies ["status".toList])).mapError Error.ofCommand).map fun text =>
      recordsOf service.zone replies (Status.jailList text) := by
  have hNames := fst_jailNames h state
  rw [liveJails]
  generalize service.jailNames state = listed at hNames
  obtain ⟨result, next⟩ := listed
  obtain rfl : result = (Client.result (replies ["status".toList])).map Status.jailList := hNames
  cases Client.result (replies ["status".toList]) with
  | error failure => rfl
  | ok text => exact congrArg Except.ok (fst_fetchJails h next (Status.jailList text))

end Reading

/-- Replies about three jails with bans. One of them cannot be read, and of another the times cannot. -/
def threeJails : Words → Reply := fun words =>
  match words.map String.ofList with
  | ["status"] => accept "`- Jail list: sshd, nginx, web"
  | ["status", "sshd"] => accept "Banned IP list: 192.0.2.1"
  | ["status", "web"] => accept "Banned IP list: 192.0.2.2"
  | ["get", "sshd", "banip", "--with-time"] => accept "192.0.2.1 2024-05-01 01:02:03"
  | _ => .error (.timeout "fail2ban-client".toList 10000)
where
  accept (text : String) : Reply := .ok ⟨text.toList, [], some 0⟩

end Service

end BanBoard
