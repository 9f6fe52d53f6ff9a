import BanBoard.Http.Routes
import BanBoard.Proofs.Jail.Name
import BanBoard.Proofs.Service.FixedReplies

/-!
Looking up one jail. The lookup finds what is on the list of all jails, and where it finds nothing it
tells the reasons apart that make the list shorter without a word.
-/

namespace BanBoard.Service

open BanBoard.Client
open BanBoard.Time (Instant Zone)

variable {σ : Type} {service : Service σ} {replies : Words → Reply} {name : List Char}

theorem mapError_eq_ok_iff {α ε δ : Type} {f : ε → δ} {result : Except ε α} {x : α} :
    result.mapError f = .ok x ↔ result = .ok x := by
  cases result <;> simp [Except.mapError]

/-- What is no jail name is refused, and nothing is sent. -/
theorem exists_jail_invalid (service : Service σ) (h : ¬IsPlainName name) :
    ∃ e, ∀ state now, service.jail state name now = (.error (.ofValidation e), state) := by
  rw [← isJailName_iff_isPlainName, isJailName_iff] at h
  cases hName : checkJailName name with
  | error e =>
      refine ⟨e, fun state now => ?_⟩
      rw [jail, hName]
  | ok _ => exact (h hName).elim

section Plain

variable (hLive : service.mode = .live) (hFixed : Answers service.daemon replies) (hName : IsPlainName name)
include hLive hFixed hName

/-- A jail name is looked for on the daemon's list, and only then its record is asked for. -/
theorem fst_jail (state : State σ) (now : Instant) :
    (service.jail state name now).1 =
      ((Client.result (replies ["status".toList])).mapError Error.ofCommand).bind fun text =>
        if name ∈ Status.jailList text then
          (recordOf service.zone replies name).mapError Error.ofCommand
        else .error (jailNotFound name) := by
  have hNames := fst_jailNames hFixed state
  have hCheck : checkJailName name = .ok () := isJailName_iff.mp (isJailName_iff_isPlainName.mpr hName)
  rw [jail, hCheck, hLive]
  dsimp only
  -- The record is read after the list, from a daemon in another state; its replies are the same.
  generalize service.jailNames state = listed at hNames
  obtain ⟨result, next⟩ := listed
  obtain rfl : result = (Client.result (replies ["status".toList])).map Status.jailList := hNames
  cases Client.result (replies ["status".toList]) with
  | error failure => rfl
  | ok text =>
      simp only [Except.map, Except.mapError, Except.bind, List.contains_iff_mem]
      rw [← fst_fetchJail hFixed next name]
      split <;> rfl

/-- Without a list of jails, no jail is found. -/
theorem fst_jail_unlisted {failure : CommandError}
    (hFailure : Client.result (replies ["status".toList]) = .error failure) (state : State σ)
    (now : Instant) : (service.jail state name now).1 = .error (.ofCommand failure) := by
  rw [fst_jail hLive hFixed hName, hFailure]
  rfl

/-- With a list of jails, a jail is found just when it is on the list, and then as its record. -/
theorem fst_jail_listed {text : List Char} (hText : Prints (replies ["status".toList]) text)
    (state : State σ) (now : Instant) :
    (service.jail state name now).1 =
      if name ∈ Status.jailList text then
        (recordOf service.zone replies name).mapError Error.ofCommand
      else .error (jailNotFound name) := by
  rw [fst_jail hLive hFixed hName, result_eq_ok_iff.mpr hText]
  rfl

end Plain

section

variable (hLive : service.mode = .live) (hFixed : Answers service.daemon replies)

include hFixed

/-- The list has the records of the names on it and no other. -/
theorem mem_liveJails_iff (state : State σ) {jail : Jail} :
    (∃ jails, (service.liveJails state).1 = .ok jails ∧ jail ∈ jails) ↔
      ∃ text, Prints (replies ["status".toList]) text ∧ jail.name ∈ Status.jailList text ∧
        recordOf service.zone replies jail.name = .ok jail := by
  simp only [← result_eq_ok_iff]
  rw [fst_liveJails hFixed]
  cases Client.result (replies ["status".toList]) with
  | error failure => simp [Except.mapError, Except.map]
  | ok text => simp [Except.mapError, Except.map, mem_recordsOf]

include hLive

/-- A jail is answered when it is listed and can be read. -/
theorem jail_eq_ok_iff (state : State σ) (now : Instant) {jail : Jail} :
    (service.jail state name now).1 = .ok jail ↔
      ∃ text, Prints (replies ["status".toList]) text ∧ name ∈ Status.jailList text ∧
        recordOf service.zone replies name = .ok jail := by
  constructor
  · intro hFound
    have hName : IsPlainName name := by
      by_contra hInvalid
      obtain ⟨e, hJail⟩ := exists_jail_invalid service hInvalid
      rw [hJail] at hFound
      cases hFound
    cases hResult : Client.result (replies ["status".toList]) with
    | error failure =>
        rw [fst_jail_unlisted hLive hFixed hName hResult] at hFound
        cases hFound
    | ok text =>
        have hText : Prints (replies ["status".toList]) text := result_eq_ok_iff.mp hResult
        rw [fst_jail_listed hLive hFixed hName hText] at hFound
        split at hFound
        · rename_i hMem
          exact ⟨text, hText, hMem, mapError_eq_ok_iff.mp hFound⟩
        · cases hFound
  · rintro ⟨text, hText, hMem, hRecord⟩
    have hName : IsPlainName name := isJailName_iff_isPlainName.mp (Status.isJailName_of_mem_jailList hMem)
    rw [fst_jail_listed hLive hFixed hName hText, if_pos hMem, hRecord]
    rfl

/-- The status of a lookup among the names of a list that was read. -/
theorem status_jail_listed (hName : IsPlainName name) {text : List Char}
    (hText : Prints (replies ["status".toList]) text) (state : State σ) (now : Instant) :
    (Http.respond Jail.toValue (service.jail state name now).1).status =
      if name ∈ Status.jailList text then
        if ExitedZero (replies ["status".toList, name]) then 200 else 502
      else 404 := by
  have hRecord := @exists_recordOf_iff service.zone replies name
  rw [fst_jail_listed hLive hFixed hName hText]
  by_cases hMem : name ∈ Status.jailList text
  · rw [if_pos hMem, if_pos hMem]
    cases hResult : recordOf service.zone replies name with
    | error failure =>
        have hFails : ¬ExitedZero (replies ["status".toList, name]) := by
          rw [← hRecord, hResult]
          rintro ⟨jail, ⟨⟩⟩
        rw [if_neg hFails]
        rfl
    | ok jail =>
        rw [if_pos (hRecord.mp ⟨jail, hResult⟩)]
        rfl
  · rw [if_neg hMem, if_neg hMem]
    rfl

/-- A lookup finds a jail just when the list can be read and has it under that name. What is no jail name
is refused, and nothing is sent for it. For a jail name the lookup is a bad gateway when the list cannot be
read; otherwise it finds nothing just when the name is not on the list, and is a bad gateway just when the
name is on the list and the client does not report on it. -/
theorem jail_agreesWithList (state other : State σ) (name : List Char) (now : Instant) :
    (∀ jail, (service.jail state name now).1 = .ok jail ↔
      ∃ jails, (service.liveJails other).1 = .ok jails ∧ jail ∈ jails ∧ jail.name = name) ∧
    let response := Http.respond Jail.toValue (service.jail state name now).1
    (response.status = 400 ↔ ¬IsPlainName name) ∧
    (¬IsPlainName name → (service.jail state name now).2 = state) ∧
    (IsPlainName name → ¬ExitedZero (replies ["status".toList]) → response.status = 502) ∧
    ∀ text, IsPlainName name → Prints (replies ["status".toList]) text →
      (response.status = 404 ↔ name ∉ Status.jailList text) ∧
      (response.status = 502 ↔
        name ∈ Status.jailList text ∧ ¬ExitedZero (replies ["status".toList, name])) := by
  have hUnlisted (hName : IsPlainName name) (hFails : ¬ExitedZero (replies ["status".toList])) :
      (Http.respond Jail.toValue (service.jail state name now).1).status = 502 := by
    obtain ⟨failure, hFailure⟩ := exists_error_of_not_exitedZero hFails
    rw [fst_jail_unlisted hLive hFixed hName hFailure]
    rfl
  refine ⟨fun jail => ?_, ?_, fun hInvalid => ?_, hUnlisted, fun text hName hText => ?_⟩
  · rw [jail_eq_ok_iff hLive hFixed]
    constructor
    · rintro ⟨text, hText, hMem, hRecord⟩
      obtain rfl := name_of_recordOf hRecord
      obtain ⟨jails, hJails, hJail⟩ :=
        (mem_liveJails_iff hFixed other).mpr ⟨text, hText, hMem, hRecord⟩
      exact ⟨jails, hJails, hJail, rfl⟩
    · rintro ⟨jails, hJails, hJail, rfl⟩
      exact (mem_liveJails_iff hFixed other).mp ⟨jails, hJails, hJail⟩
  · by_cases hName : IsPlainName name
    · refine iff_of_false ?_ (not_not_intro hName)
      by_cases hZero : ExitedZero (replies ["status".toList])
      · obtain ⟨text, hText⟩ := exitedZero_iff.mp hZero
        rw [status_jail_listed hLive hFixed hName hText]
        split
        · split <;> decide
        · decide
      · rw [hUnlisted hName hZero]
        decide
    · obtain ⟨e, hJail⟩ := exists_jail_invalid service hName
      refine iff_of_true ?_ hName
      rw [hJail]
      rfl
  · obtain ⟨e, hJail⟩ := exists_jail_invalid service hInvalid
    rw [hJail]
  · rw [status_jail_listed hLive hFixed hName hText]
    by_cases hMem : name ∈ Status.jailList text
    · have hListed : ¬name ∉ Status.jailList text := not_not_intro hMem
      rw [if_pos hMem]
      by_cases hZero : ExitedZero (replies ["status".toList, name])
      · rw [if_pos hZero]
        exact ⟨iff_of_false (by decide) hListed, iff_of_false (by decide) fun h => h.2 hZero⟩
      · rw [if_neg hZero]
        exact ⟨iff_of_false (by decide) hListed, iff_of_true rfl ⟨hMem, hZero⟩⟩
    · rw [if_neg hMem]
      exact ⟨iff_of_true rfl hMem, iff_of_false (by decide) fun h => hMem h.1⟩

end

/-- Of three jails the lookup finds one and fails for one, and it tells a jail that is not there from what
is no jail name. -/
theorem jail_agreesWithList_threeJails :
    let service : Service Unit := ⟨.live, none, .utc, fun state words => (threeJails words, state)⟩
    let state : State Unit := ⟨(), [], ⟨"log".toList, ⟨1, none⟩⟩, .missing⟩
    let now : Instant := ⟨1714525323, 0⟩
    let status (name : String) := (Http.respond Jail.toValue (service.jail state name.toList now).1).status
    service.mode = .live ∧ Answers service.daemon threeJails ∧
    (∃ jail jails, (service.jail state "sshd".toList now).1 = .ok jail ∧
      (service.liveJails state).1 = .ok jails ∧ jail ∈ jails ∧ jail.name = "sshd".toList) ∧
    status "nginx" = 502 ∧ status "smtp" = 404 ∧ status "--help" = 400 := by
  intro service state now status
  have hLive : service.mode = .live := rfl
  have hFixed : Answers service.daemon threeJails := fun _ _ => rfl
  have hText : Prints (threeJails ["status".toList]) "`- Jail list: sshd, nginx, web".toList :=
    ⟨_, rfl, rfl, rfl⟩
  have hPlain (name : String) (h : isJailName name.toList = true) : IsPlainName name.toList :=
    isJailName_iff_isPlainName.mp h
  have hAgrees (name : String) := jail_agreesWithList hLive hFixed state state name.toList now
  obtain ⟨jail, hFound⟩ : ∃ jail, (service.jail state "sshd".toList now).1 = .ok jail :=
    ⟨⟨"sshd".toList, 0, 0, 0,
      [⟨"192.0.2.1".toList, "sshd".toList, some ⟨1714525323, 0⟩, none⟩], 1, [], rfl⟩, by decide +kernel⟩
  obtain ⟨jails, hJails, hMem, hName⟩ := ((hAgrees "sshd").1 jail).mp hFound
  refine ⟨hLive, hFixed, ⟨jail, jails, hFound, hJails, hMem, hName⟩, ?_, ?_, ?_⟩
  · obtain ⟨-, -, -, -, hStatus⟩ := hAgrees "nginx"
    exact (hStatus _ (hPlain _ (by decide)) hText).2.mpr ⟨by decide, by decide⟩
  · obtain ⟨-, -, -, -, hStatus⟩ := hAgrees "smtp"
    exact (hStatus _ (hPlain _ (by decide)) hText).1.mpr (by decide)
  · obtain ⟨-, hStatus, -⟩ := hAgrees "--help"
    refine hStatus.mpr fun hName => ?_
    exact hName.noFlag rfl

end BanBoard.Service
