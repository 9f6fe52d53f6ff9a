import BanBoard.Proofs.Jail.Name
import BanBoard.Proofs.Status.Report
import BanBoard.Service.Jails

/-!
What reading does to the state. Whatever is read and whatever the daemon answers, commands that only read
are sent to the daemon one after the other, and nothing else happens. What such a command names is a jail
name, whatever the daemon has listed.
-/

namespace BanBoard.Service

open BanBoard.Client
open BanBoard.Time (Instant)

variable {σ : Type}

/-- The commands with which the service reads. -/
inductive IsReading : Command → Prop
  | ping : IsReading .ping
  | status : IsReading .status
  | jailStatus {name : List Char} (hName : IsPlainName name) : IsReading (.jailStatus name)
  | banTimes {name : List Char} (hName : IsPlainName name) : IsReading (.banTimes name)

/-- Whether a state comes after another by commands that only read. -/
inductive ReadsOnly (service : Service σ) : (before after : State σ) → Prop
  | refl (state : State σ) : ReadsOnly service state state
  | ask {before after : State σ} {command : Command} (hReading : IsReading command)
      (hRest : ReadsOnly service (service.ask before command).2 after) : ReadsOnly service before after

section

variable {service : Service σ} {before between after : State σ}

theorem ReadsOnly.trans (h : ReadsOnly service before between) (h' : ReadsOnly service between after) :
    ReadsOnly service before after := by
  induction h with
  | refl state => exact h'
  | ask hReading _ ih => exact .ask hReading (ih h')

/-- Reading does not touch the log. -/
theorem ReadsOnly.log_eq (h : ReadsOnly service before after) :
    after.log = before.log ∧ after.slot = before.slot := by
  induction h with
  | refl state => exact ⟨rfl, rfl⟩
  | ask _ _ ih => exact ih

end

section Functions

variable (service : Service σ) (state : State σ)

/-- A reading command is sent and leaves the log alone. -/
theorem readsOnly_ask {command : Command} (h : IsReading command) :
    ReadsOnly service state (service.ask state command).2 :=
  .ask h (.refl _)

theorem readsOnly_jailNames : ReadsOnly service state (service.jailNames state).2 :=
  readsOnly_ask service state .status

/-- Of what the daemon lists, only jail names are taken over. -/
theorem isPlainName_of_mem_jailNames {names : List (List Char)}
    (h : (service.jailNames state).1 = .ok names) : ∀ name ∈ names, IsPlainName name := by
  have hNames : (service.jailNames state).1 = (service.ask state .status).1.map Status.jailList := rfl
  rw [hNames] at h
  cases hAsk : (service.ask state .status).1 with
  | error e =>
      rw [hAsk] at h
      cases h
  | ok text =>
      rw [hAsk] at h
      obtain rfl := Except.ok.inj h
      exact fun name hMem => isJailName_iff_isPlainName.mp (Status.isJailName_of_mem_jailList hMem)

/-- A jail is read with at most two commands, both about its name. -/
theorem readsOnly_fetchJail {name : List Char} (h : IsPlainName name) :
    ReadsOnly service state (service.fetchJail state name).2 := by
  have hStatus := readsOnly_ask service state (.jailStatus h)
  have hTimes := readsOnly_ask service (service.ask state (.jailStatus name)).2 (.banTimes h)
  simp only [fetchJail]
  split
  · exact hStatus
  · split
    · exact hStatus
    · split <;> exact hStatus.trans hTimes

theorem readsOnly_fetchJails {names : List (List Char)} (h : ∀ name ∈ names, IsPlainName name) :
    ReadsOnly service state (service.fetchJails state names).2 := by
  induction names generalizing state with
  | nil => exact .refl state
  | cons name names ih =>
      obtain ⟨hHead, hTail⟩ := List.forall_mem_cons.mp h
      have hFirst := readsOnly_fetchJail service state hHead
      simp only [fetchJails]
      split <;> exact hFirst.trans (ih _ hTail)

/-- Only names that were checked are asked about. -/
theorem readsOnly_liveJails : ReadsOnly service state (service.liveJails state).2 := by
  have hNames := readsOnly_jailNames service state
  have hPlain := @isPlainName_of_mem_jailNames _ service state
  rw [liveJails]
  generalize service.jailNames state = listed at hNames hPlain
  obtain ⟨result, next⟩ := listed
  cases result with
  | error e => exact hNames
  | ok names => exact hNames.trans (readsOnly_fetchJails service next (hPlain rfl))

theorem readsOnly_statusAt (now : Instant) : ReadsOnly service state (service.statusAt state now).2 := by
  have hJails := readsOnly_liveJails service state
  rw [statusAt]
  cases service.mode with
  | demo => cases service.demoData? now <;> exact .refl state
  | live =>
      dsimp only
      generalize service.liveJails state = listed at hJails
      obtain ⟨result, next⟩ := listed
      cases result <;> exact hJails

theorem readsOnly_jail (name : List Char) (now : Instant) :
    ReadsOnly service state (service.jail state name now).2 := by
  have hNames := readsOnly_jailNames service state
  rw [jail]
  -- The synthetic data has to be out of the way, or checking this evaluates it.
  generalize service.demoData? now = data?
  cases hName : checkJailName name with
  | error e => exact .refl state
  | ok _ =>
      have hPlain : IsPlainName name := isJailName_iff_isPlainName.mp (isJailName_iff.mpr hName)
      cases service.mode with
      | demo =>
          cases data? with
          | none => exact .refl state
          | some data =>
              dsimp only
              cases data.jail? name <;> exact .refl state
      | live =>
          dsimp only
          generalize service.jailNames state = listed at hNames
          obtain ⟨result, next⟩ := listed
          cases result with
          | error e => exact hNames
          | ok names =>
              dsimp only
              split
              · exact hNames.trans (readsOnly_fetchJail service next hPlain)
              · exact hNames

theorem readsOnly_isReachable : ReadsOnly service state (service.isReachable state).2 := by
  rw [isReachable]
  cases service.mode with
  | demo => exact .refl state
  | live => exact readsOnly_ask service state .ping

end Functions

end BanBoard.Service
