import BanBoard.Proofs.Jail.Name
import BanBoard.Proofs.Net.Token
import BanBoard.Proofs.Service.Calls
import BanBoard.Proofs.Service.Reading
import BanBoard.Proofs.Status.Report
import BanBoard.Shell.Word

/-!
The words that reach the daemon. Whatever a request says and whatever the daemon has answered before, a
command consists of fixed words, the name of a jail and the canonical text of an address, and each of
these is one plain word for a shell. Nothing that the service does to its state asks for more.
-/

namespace BanBoard.Service

open BanBoard.Client
open BanBoard.Log (WriteFate)
open BanBoard.Net (Address)
open BanBoard.Time (Instant Zone)

/-- The words of a command that names a checked jail and a canonical address, if it names any. -/
inductive IsVetted : Words → Prop
  | ping : IsVetted ["ping".toList]
  | status : IsVetted ["status".toList]
  | jailStatus {jail : List Char} (hJail : IsPlainName jail) : IsVetted ["status".toList, jail]
  | banTimes {jail : List Char} (hJail : IsPlainName jail) :
      IsVetted ["get".toList, jail, "banip".toList, "--with-time".toList]
  | ban {jail : List Char} (hJail : IsPlainName jail) (address : Address) :
      IsVetted ["set".toList, jail, "banip".toList, address.write]
  | unban {jail : List Char} (hJail : IsPlainName jail) (address : Address) :
      IsVetted ["set".toList, jail, "unbanip".toList, address.write]

/-- A word that a shell takes as it is and a client takes for no flag. -/
def IsPlainWord (word : List Char) : Prop := Shell.quote word = word ∧ word.head? ≠ some '-'

theorem quote_of_isSafe {word : List Char} (hSome : word ≠ []) (hSafe : ∀ c ∈ word, Shell.isSafe c = true) :
    Shell.quote word = word := by
  have hPlain : (!word.isEmpty && word.all Shell.isSafe) = true := by
    rw [List.all_eq_true.mpr hSafe, List.isEmpty_eq_false_iff.mpr hSome]
    rfl
  rw [Shell.quote, if_pos hPlain]

theorem isPlainWord_of_isPlainName {jail : List Char} (h : IsPlainName jail) : IsPlainWord jail := by
  have hAll : ∀ n < 128, isJailNameChar (Char.ofNat n) = true → Shell.isSafe (Char.ofNat n) = true := by
    decide
  refine ⟨quote_of_isSafe (List.length_pos_iff.mp h.length_pos) fun c hMem => ?_, h.noFlag⟩
  have hChar := isJailNameChar_iff.mpr (h.alphabet c hMem)
  exact Text.forall_ascii (P := fun c => isJailNameChar c = true → Shell.isSafe c = true) hAll
    (toNat_lt_of_isJailNameChar hChar) hChar

theorem isPlainWord_write (address : Address) : IsPlainWord address.write := by
  have hAll : ∀ n < 128, Net.isAddressChar (Char.ofNat n) = true → Shell.isSafe (Char.ofNat n) = true := by
    decide
  have hChar {c : Char} (hMem : c ∈ address.write) : Net.isAddressChar c = true :=
    Net.isAddressChar_of_mem (Address.parse?_write address) hMem
  have hSome : address.write ≠ [] := Net.ne_nil_of_isAddressToken (Net.isAddressToken_write address)
  refine ⟨quote_of_isSafe hSome fun c hMem => ?_, fun hHead => ?_⟩
  · exact Text.forall_ascii (P := fun c => Net.isAddressChar c = true → Shell.isSafe c = true) hAll
      (Net.toNat_lt_of_isTokenChar (Net.isTokenChar_of_isAddressChar (hChar hMem))) (hChar hMem)
  · exact absurd (hChar (List.mem_of_mem_head? hHead)) (by decide)

/-- The words of a vetted command are plain, but for one flag that is always the same. -/
theorem IsVetted.forall_isPlainWord {words : Words} (h : IsVetted words) :
    ∀ word ∈ words, word = "--with-time".toList ∨ IsPlainWord word := by
  have hFixed {fixed : String}
      (hFixed : Shell.quote fixed.toList = fixed.toList ∧ fixed.toList.head? ≠ some '-') :
      fixed.toList = "--with-time".toList ∨ IsPlainWord fixed.toList := Or.inr hFixed
  have hName {jail : List Char} (hJail : IsPlainName jail) :
      jail = "--with-time".toList ∨ IsPlainWord jail := Or.inr (isPlainWord_of_isPlainName hJail)
  have hAddress (address : Address) :
      address.write = "--with-time".toList ∨ IsPlainWord address.write := Or.inr (isPlainWord_write address)
  cases h with
  | ping => exact List.forall_mem_singleton.mpr (hFixed (by decide))
  | status => exact List.forall_mem_singleton.mpr (hFixed (by decide))
  | jailStatus hJail =>
      rw [List.forall_mem_cons, List.forall_mem_singleton]
      exact ⟨hFixed (by decide), hName hJail⟩
  | banTimes hJail =>
      rw [List.forall_mem_cons, List.forall_mem_cons, List.forall_mem_cons, List.forall_mem_singleton]
      exact ⟨hFixed (by decide), hName hJail, hFixed (by decide), Or.inl rfl⟩
  | ban hJail address =>
      rw [List.forall_mem_cons, List.forall_mem_cons, List.forall_mem_cons, List.forall_mem_singleton]
      exact ⟨hFixed (by decide), hName hJail, hFixed (by decide), hAddress address⟩
  | unban hJail address =>
      rw [List.forall_mem_cons, List.forall_mem_cons, List.forall_mem_cons, List.forall_mem_singleton]
      exact ⟨hFixed (by decide), hName hJail, hFixed (by decide), hAddress address⟩

variable {σ : Type}

/-- Whether one state comes after another with only vetted commands to the daemon in between. Nothing
else changes the daemon. -/
def AsksOnly (service : Service σ) (before after : State σ) : Prop :=
  ∃ commands : List Command, (∀ command ∈ commands, IsVetted command.words) ∧
    after.sent = before.sent ++ commands ∧
    after.daemon =
      commands.foldl (fun daemon command => (service.daemon daemon command.words).2) before.daemon

section Steps

variable {service : Service σ} {before between after : State σ}

theorem AsksOnly.refl (service : Service σ) (state : State σ) : AsksOnly service state state :=
  ⟨[], List.forall_mem_nil _, (List.append_nil _).symm, rfl⟩

/-- Two parts that ask only vetted words do so together. -/
theorem AsksOnly.trans (h : AsksOnly service before between) (h' : AsksOnly service between after) :
    AsksOnly service before after := by
  obtain ⟨first, hFirst, hSent, hDaemon⟩ := h
  obtain ⟨second, hSecond, hSent', hDaemon'⟩ := h'
  refine ⟨first ++ second, List.forall_mem_append.mpr ⟨hFirst, hSecond⟩, ?_, ?_⟩
  · rw [hSent', hSent, List.append_assoc]
  · rw [hDaemon', hDaemon, List.foldl_append]

end Steps

section Functions

variable (service : Service σ) (state : State σ)

theorem asksOnly_ask (command : Command) (h : IsVetted command.words) :
    AsksOnly service state (service.ask state command).2 :=
  ⟨[command], List.forall_mem_singleton.mpr h, rfl, rfl⟩

theorem IsReading.isVetted {command : Command} (h : IsReading command) : IsVetted command.words := by
  cases h with
  | ping => exact .ping
  | status => exact .status
  | jailStatus hName => exact .jailStatus hName
  | banTimes hName => exact .banTimes hName

/-- Whatever only reads asks in vetted words. -/
theorem ReadsOnly.asksOnly {service : Service σ} {before after : State σ}
    (h : ReadsOnly service before after) : AsksOnly service before after := by
  induction h with
  | refl state => exact .refl service state
  | @ask before _ command hReading _ ih =>
      exact (asksOnly_ask service before command hReading.isVetted).trans ih

/-- An action is sent with a checked name and a canonical address. -/
theorem asksOnly_dispatch {jail : List Char} (hJail : IsPlainName jail) (address : Address)
    (action : Action) (now : Instant) (fate : WriteFate) :
    AsksOnly service state (service.dispatch state action jail address.write now fate).2 := by
  have hVetted : IsVetted (Command.apply action jail address.write).words := by
    cases action with
    | ban => exact .ban hJail address
    | unban => exact .unban hJail address
  by_cases hExhausted : state.log.IsExhausted
  · rw [dispatch_exhausted hExhausted]
    exact ⟨[_], List.forall_mem_singleton.mpr hVetted, rfl, rfl⟩
  · rw [dispatch_eq_append hExhausted rfl]
    exact ⟨[_], List.forall_mem_singleton.mpr hVetted, rfl, rfl⟩

/-- Words that are not checked are never sent. -/
theorem asksOnly_apply (action : Action) (jail ip : List Char) (now : Instant) (fate : WriteFate) :
    AsksOnly service state (service.apply state action jail ip now fate).2 := by
  rw [apply]
  split
  · exact .refl service state
  · rename_i hName
    have hPlain : IsPlainName jail := isJailName_iff_isPlainName.mp (isJailName_iff.mpr hName)
    split
    · exact .refl service state
    · rename_i address _
      split
      · exact .refl service state
      · exact asksOnly_dispatch service state hPlain address action now fate

end Functions

theorem Step.asksOnly {service : Service σ} {state next : State σ} (h : Step service state next) :
    AsksOnly service state next := by
  cases h with
  | none => exact .refl service state
  | status now => exact (readsOnly_statusAt service state now).asksOnly
  | jail name now => exact (readsOnly_jail service state name now).asksOnly
  | apply action name ip now fate => exact asksOnly_apply service state action name ip now fate
  | health => exact (readsOnly_isReachable service state).asksOnly

theorem asksOnly_runCalls (service : Service σ) (calls : List Call) (state : State σ) :
    AsksOnly service state (runCalls service calls state) := by
  induction calls generalizing state with
  | nil => exact .refl service state
  | cons call calls ih => exact (call.step_run service state).asksOnly.trans (ih _)

/-- What a daemon hears is what was sent, in order. -/
theorem foldl_overheard (daemon : Daemon σ) (commands : List Command) (state : σ) (heard : List Words) :
    (commands.foldl (fun state command => (overheard daemon state command.words).2) (state, heard)).2 =
      heard ++ commands.map Command.words := by
  induction commands generalizing state heard with
  | nil => exact (List.append_nil heard).symm
  | cons command commands ih =>
      rw [List.foldl_cons, overheard, ih, List.append_assoc, List.map_cons, List.singleton_append]

/-- Whatever is asked of a service in whatever order, and whatever its daemon answers, the client is
given nothing but vetted commands. None of their words needs quotes, and none but the fixed flag starts
like a flag. -/
theorem heard_areVetted (daemon : Daemon σ) (start : σ) (mode : Mode) (seed : Option UInt64) (zone : Zone)
    (log : Log.Store) (slot : Log.Slot) (calls : List Call) :
    ∀ words ∈ (runCalls ⟨mode, seed, zone, overheard daemon⟩ calls ⟨(start, []), [], log, slot⟩).daemon.2,
      IsVetted words ∧
        ∀ word ∈ words, Shell.quote word = word ∧ (word.head? = some '-' → word = "--with-time".toList) := by
  obtain ⟨commands, hVetted, -, hDaemon⟩ :=
    asksOnly_runCalls ⟨mode, seed, zone, overheard daemon⟩ calls ⟨(start, []), [], log, slot⟩
  rw [hDaemon, foldl_overheard, List.nil_append]
  refine List.forall_mem_map.mpr fun command hMem => ⟨hVetted command hMem, fun word hWord => ?_⟩
  rcases (hVetted command hMem).forall_isPlainWord word hWord with rfl | ⟨hQuote, hHead⟩
  · exact ⟨by decide, fun _ => rfl⟩
  · exact ⟨hQuote, fun h => (hHead h).elim⟩

/-- A daemon that answers every command with a list of one jail, a flag, a shell command and a path. -/
def hostile : Daemon Unit := fun state _ =>
  (.ok ⟨"`- Jail list: sshd, --help, $(id), ../x".toList, [], some 0⟩, state)

/-- Of a hostile list only the jail is asked about, a jail that is none is not asked for, and an address is
passed on in its canonical form. -/
theorem heard_areVetted_hostileList :
    let service : Service (Unit × List Words) := ⟨.live, none, .utc, overheard hostile⟩
    let state : State (Unit × List Words) := ⟨((), []), [], ⟨[], ⟨1, none⟩⟩, .missing⟩
    let now : Instant := ⟨1714525323, 0⟩
    let calls : List Call := [.status now, .apply .ban "a;b".toList "::1".toList now .succeeds,
      .apply .ban "sshd".toList "2001:DB8::0:1".toList now .succeeds]
    let ban : Words := ["set".toList, "sshd".toList, "banip".toList, "2001:db8::1".toList]
    (runCalls service calls state).daemon.2 =
        [["status".toList], ["status".toList, "sshd".toList], ban] ∧
      ban ∈ (runCalls service calls state).daemon.2 ∧ IsVetted ban ∧
        ∀ word ∈ ban, Shell.quote word = word ∧ (word.head? = some '-' → word = "--with-time".toList) := by
  intro service state now calls ban
  have hHeard : (runCalls service calls state).daemon.2 =
      [["status".toList], ["status".toList, "sshd".toList], ban] := by decide +kernel
  have hMem : ban ∈ (runCalls service calls state).daemon.2 := by
    rw [hHeard]
    exact List.mem_cons_of_mem _ (List.mem_cons_of_mem _ List.mem_cons_self)
  exact ⟨hHeard, hMem, heard_areVetted hostile () .live none .utc ⟨[], ⟨1, none⟩⟩ .missing calls ban hMem⟩

end BanBoard.Service
