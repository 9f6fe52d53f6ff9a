import BanBoard.Cli.Run
import BanBoard.Proofs.Cli.Arguments
import BanBoard.Proofs.Files.Tree
import BanBoard.Proofs.Log.Replay

/-!
The log on the command line. Printed as JSON, the entries of an undisturbed log are the bytes of its file
again: the last of its lines, or of the lines of one jail, as they were written.
-/

namespace BanBoard.Cli

open BanBoard.Log
open BanBoard.Shell (Host)
open BanBoard.Text
open BanBoard.Time (Instant)

variable {host : Host} {path : List Char}

/-- A log that is there is found, and no directory is made for it. -/
theorem openSlot_eq (hRoot : host.tree.file? [] = none) {bytes : List UInt8}
    (hRead : host.tree.read host.current path = .ok bytes) :
    openSlot host path = .ok (.file bytes, host) := by
  obtain ⟨names, hFollow, hFile⟩ := Files.Tree.read_eq_ok_iff.mp hRead
  cases hAbove : Files.parent? path with
  | none => simp only [openSlot, hAbove, hFollow, hFile]
  | some above =>
      have hMade := Files.Tree.makeDirectories_parent hRoot hFollow hAbove above.length
      simp only [openSlot, hAbove, hMade, hFollow, hFile]

/-- The log is opened on the entries that its file holds. -/
theorem openLog_eq (hRoot : host.tree.file? [] = none) {entries : List Entry}
    (hTimes : ∀ entry ∈ entries, entry.timestamp.WellFormed) {cursor : Cursor}
    (hCursor : Cursor.behind? entries = some cursor)
    (hRead : host.tree.read host.current path = .ok (fileOf entries)) :
    (openLog host path).1 = .ok (⟨path, cursor⟩, .file (fileOf entries)) := by
  have hOpen := Store.open_eq (Slot.holds_fileOf entries) hTimes hCursor path
  simp only [openLog, openSlot_eq hRoot hRead, hOpen]
  rfl

/-- Entries as JSON are the lines of a file. -/
theorem encodeUtf8_entryLines (path : List Char) (entries : List Entry) :
    encodeUtf8 (entryLines true path entries) =
      (entries.map Entry.line).flatMap (· ++ [newline]) := by
  rw [flatMap_map_line, fileOf_eq_encodeUtf8, entryLines, if_pos rfl, List.flatMap_map]

/-- What is printed of a log that opens is the answer of its store. -/
theorem printLog_eq {config : Config} {jail : Option (List Char)}
    (hJail : ∀ name ∈ jail, isJailName name = true) {store : Store} {slot : Slot}
    (hOpen : (openLog host config.logPath).1 = .ok (store, slot)) {limit : Nat} {entries : List Entry}
    (hQuery : store.query slot ⟨none, some limit, jail, none⟩ = .ok entries) (json : Bool) :
    (printLog host config limit jail json).1 = printed (entryLines json config.logPath entries) := by
  rcases hLog : openLog host config.logPath with ⟨opened, after⟩
  rw [hLog] at hOpen
  subst hOpen
  cases jail with
  | none => simp only [printLog, hLog, hQuery]
  | some name =>
      have hChecked := isJailName_iff.mp (hJail name rfl)
      simp only [printLog, hChecked, hLog, hQuery]

/-- Asked for the log, the program prints the file that openings and successful appends left line for line
and in its order: the last of the lines up to the limit, and of these lines only those of a jail where one
is named. The file stands where the configuration has it, in a tree whose root is no file. -/
theorem log_replaysFile (path : List Char) {events : List Event}
    (hPlain : ∀ event ∈ events, event.IsPlain) {bytes : List UInt8}
    (hFile : (State.fresh.run path (.open_ :: events)).slot = .file bytes) {config : Config}
    (hConfig :
      Config.load host.tree host.current host.accountHome none host.environment = .ok config)
    (hRoot : host.tree.file? [] = none)
    (hRead : host.tree.read host.current config.logPath = .ok bytes) {limit : Nat}
    (hLimit : limit ≤ maxWord64) {jail : Option (List Char)}
    (hJail : ∀ name ∈ jail, isJailName name = true) (now : Instant) :
    bytes = (endedLines bytes).flatMap (· ++ [newline]) ∧
    ∃ stdout lines, (run host now (logArguments limit jail)).1 = .exited 0 stdout [] ∧
      encodeUtf8 stdout = lines.flatMap (· ++ [newline]) ∧
      Query.IsNewest (some limit) lines
        ((endedLines bytes).filter fun line => IsOfJail jail line) := by
  obtain ⟨entries, cursor, rfl, hOrder, hTimes, hCursor⟩ := State.exists_entries_run path hPlain hFile
  have hOpen := openLog_eq hRoot hTimes hCursor hRead
  obtain ⟨answer, hQuery, hNewest⟩ :=
    Store.query_replays hOrder hTimes ⟨config.logPath, cursor⟩ (some limit) jail
  have hLines : fileOf entries = (endedLines (fileOf entries)).flatMap (· ++ [newline]) := by
    rw [endedLines_fileOf, flatMap_map_line]
  refine ⟨hLines, _, _, ?_, encodeUtf8_entryLines config.logPath answer, hNewest⟩
  simp only [run, parse_logArguments hLimit hJail, hConfig, runCommand]
  exact printLog_eq hJail hOpen hQuery true

/-- Two jails share a log whose clock goes back, and the newest line of the first one is asked for. -/
theorem log_replaysFile_oneJail :
    let path := "/data/actions.jsonl".toList
    let ban := Attempt.success .ban "sshd".toList "192.0.2.1".toList
    let unban := Attempt.failure .unban "nginx".toList "::1".toList "no \"answer\"".toList
    let events : List Event := [.append ban ⟨1714525323, 7⟩ .succeeds,
      .append unban ⟨1714525200, 0⟩ .succeeds]
    let bytes := fileOf [⟨1, ⟨1714525323, 7⟩, ban⟩, ⟨2, ⟨1714525323, 7⟩, unban⟩]
    let host : Host := ⟨⟨[["data".toList]], [(["data".toList, "actions.jsonl".toList], bytes)]⟩, [],
      [("F2B_LOG_PATH".toList, path)], none⟩
    let config : Config := { Config.default none with logPath := path }
    (State.fresh.run path (.open_ :: events)).slot = .file bytes ∧
    host.tree.read host.current config.logPath = .ok bytes ∧
    ∃ stdout lines, (run host ⟨0, 0⟩ (logArguments 1 (some "sshd".toList))).1 = .exited 0 stdout [] ∧
      encodeUtf8 stdout = lines.flatMap (· ++ [newline]) ∧
      Query.IsNewest (some 1) lines
        ((endedLines bytes).filter fun line => IsOfJail (some "sshd".toList) line) := by
  intro path ban unban events bytes host config
  have hPlain : ∀ event ∈ events, event.IsPlain := by decide
  have hFile : (State.fresh.run path (.open_ :: events)).slot = .file bytes := by decide +kernel
  have hConfig :
      Config.load host.tree host.current host.accountHome none host.environment = .ok config := rfl
  have hRead : host.tree.read host.current config.logPath = .ok bytes := rfl
  have hJail : ∀ name ∈ some "sshd".toList, isJailName name = true := by decide
  exact ⟨hFile, hRead, (log_replaysFile path hPlain hFile hConfig rfl hRead (by decide) hJail ⟨0, 0⟩).2⟩

end BanBoard.Cli
