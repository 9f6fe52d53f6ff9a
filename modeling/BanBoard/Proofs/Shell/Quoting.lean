import BanBoard.Client.Launch

/-!
A command reaches the client as the words it consists of. Directly and under the superuser they are
passed one by one; on another host a shell splits one line again, and quoting makes it find the same
words. The reader of words refuses every character that would make a shell do more than split.
-/

namespace BanBoard.Shell

open BanBoard.Text

/-- Safe characters neither end a word nor quote anything nor do anything else. -/
structure IsInert (c : Char) : Prop where
  not_separator : isSeparator c = false
  ne_quote : c ≠ '\''
  ne_backslash : c ≠ '\\'
  not_active : isActive c = false

/-- No safe character means anything to the shell. -/
theorem isSafe_eq_false_of_isActive {c : Char} (h : isActive c = true) : isSafe c = false := by
  have hAll : "|&;<>()$\x60\"*?[]#~!\x7b\x7d".toList.all (fun d => !isSafe d) = true := by decide
  simpa using List.all_eq_true.mp hAll c (List.contains_iff_mem.mp h)

theorem isInert_of_isSafe {c : Char} (h : isSafe c = true) : IsInert c where
  not_separator := by
    cases hSeparator : isSeparator c with
    | false => rfl
    | true =>
        simp only [isSeparator, Bool.or_eq_true, decide_eq_true_eq] at hSeparator
        rcases hSeparator with (rfl | rfl) | rfl <;> simp [isSafe, isAsciiAlphanumeric] at h
  ne_quote := by
    rintro rfl
    simp [isSafe, isAsciiAlphanumeric] at h
  ne_backslash := by
    rintro rfl
    simp [isSafe, isAsciiAlphanumeric] at h
  not_active := by
    cases hActive : isActive c with
    | false => rfl
    | true => simp [isSafe_eq_false_of_isActive hActive] at h

/-- An inert character outside quotes goes on with the word or starts one. -/
theorem readWordsFrom_inert {c : Char} (h : IsInert c) {place : Place}
    (hPlace : ∀ word, place ≠ .inQuotes word) (rest : List Char) :
    readWordsFrom place (c :: rest) = readWordsFrom (.inWord (c :: place.word)) rest := by
  cases place with
  | between => simp [readWordsFrom, h.ne_backslash, h.not_separator, h.ne_quote, h.not_active]
  | inWord word => simp [readWordsFrom, h.ne_backslash, h.not_separator, h.ne_quote, h.not_active]
  | inQuotes word => exact (hPlace word rfl).elim

/-- Safe characters are taken into the word as they are. -/
theorem readWordsFrom_safe {w : List Char} (h : ∀ c ∈ w, isSafe c = true) (word rest : List Char) :
    readWordsFrom (.inWord word) (w ++ rest) =
      readWordsFrom (.inWord (w.reverse ++ word)) rest := by
  induction w generalizing word with
  | nil => rfl
  | cons c w ih =>
      have hc := isInert_of_isSafe (h c List.mem_cons_self)
      rw [List.cons_append, readWordsFrom_inert hc (by simp), Place.word,
        ih (fun d hd => h d (List.mem_cons_of_mem c hd))]
      simp

/-- Between single quotes every character is taken as it is, a single quote by leaving them. -/
theorem readWordsFrom_quoted (w word rest : List Char) :
    readWordsFrom (.inQuotes word) (w.flatMap quoteChar ++ '\'' :: rest) =
      readWordsFrom (.inWord (w.reverse ++ word)) rest := by
  induction w generalizing word with
  | nil => simp [readWordsFrom]
  | cons c w ih =>
      by_cases hQuote : c = '\''
      · subst hQuote
        simp [quoteChar, readWordsFrom, Place.word, isSeparator, ih]
      · simp [quoteChar, readWordsFrom, hQuote, ih]

/-- A quoted text is read as the one word that it is, whatever follows it. -/
theorem readWordsFrom_quote (w rest : List Char) :
    readWordsFrom .between (quote w ++ rest) = readWordsFrom (.inWord w.reverse) rest := by
  unfold quote
  split
  · rename_i hSafe
    simp only [Bool.and_eq_true, Bool.not_eq_true', List.all_eq_true] at hSafe
    obtain ⟨hNonempty, hSafe⟩ := hSafe
    cases w with
    | nil => simp at hNonempty
    | cons c w =>
        have hc := isInert_of_isSafe (hSafe c List.mem_cons_self)
        rw [List.cons_append, readWordsFrom_inert hc (by simp),
          readWordsFrom_safe (fun d hd => hSafe d (List.mem_cons_of_mem c hd))]
        simp [Place.word]
  · have hQuoted := readWordsFrom_quoted w [] rest
    simpa [readWordsFrom, isSeparator, Place.word] using hQuoted

theorem readWords_quote (w : List Char) : readWords (quote w) = some [w] := by
  have hRead := readWordsFrom_quote w []
  rw [List.append_nil] at hRead
  rw [readWords, hRead]
  simp [readWordsFrom]

/-- Quoted words joined by spaces are read as the words they were. -/
theorem readWords_joinWords (words : List (List Char)) :
    readWords (joinWords (words.map quote)) = some words := by
  induction words with
  | nil => rfl
  | cons w words ih =>
      cases words with
      | nil => exact readWords_quote w
      | cons next words =>
          have hSpace : ∀ rest, readWordsFrom (.inWord w.reverse) (' ' :: rest) =
              (readWordsFrom .between rest).map (w :: ·) := by
            intro rest
            simp [readWordsFrom, isSeparator]
          rw [readWords] at ih ⊢
          rw [List.map_cons, List.map_cons, joinWords, readWordsFrom_quote, hSpace,
            ← List.map_cons, ih]
          · rfl
          · simp

/-- What is not quoted is refused rather than split when a shell would expand it. -/
example : readWords "echo 'it'\\''s' $HOME".toList = none := by decide

end BanBoard.Shell

namespace BanBoard.Client

open BanBoard.Text

/-- Every launch hands the client exactly the words of the command. A launch on another host gives them
to a shell as one line, which is read as the client and the words again; for any words quoting makes
one word of each, and joining neither merges nor splits them. -/
theorem commandLine_delivers_words (launch : Launch) (words : Words) :
    (match launch.ssh, launch.useSudo with
      | none, false => launch.commandLine words = (launch.client, words)
      | none, true =>
          launch.commandLine words = ("sudo".toList, ["-n".toList, launch.client] ++ words)
      | some target, _ => ∃ line,
          launch.commandLine words = ("ssh".toList,
            ["-o".toList, "BatchMode=yes".toList, "-o".toList,
                "ConnectTimeout=".toList ++ decimal (max (launch.timeout / 1000) 1)] ++
              Launch.keyWords target.key ++ [target.user ++ '@' :: target.host, line]) ∧
          Shell.readWords line = some ([launch.client] ++ words)) ∧
    (∀ word, Shell.readWords (Shell.quote word) = some [word]) ∧
    (∀ words, Shell.readWords (Shell.joinWords (words.map Shell.quote)) = some words) := by
  refine ⟨?_, Shell.readWords_quote, Shell.readWords_joinWords⟩
  obtain ⟨client, useSudo, ssh, timeout⟩ := launch
  cases ssh with
  | some target => exact ⟨_, rfl, Shell.readWords_joinWords (client :: words)⟩
  | none => cases useSudo <;> rfl

end BanBoard.Client
