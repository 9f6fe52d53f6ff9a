import BanBoard.Cli.Arguments
import BanBoard.Proofs.Jail.Name
import BanBoard.Proofs.Text.DecimalDigit

/-!
Command lines that are read as they are meant. An option that is spelled out is read together with its
value, and then the reading goes on behind both. A number that is written in decimal and a jail name are
values, since neither looks like an option.
-/

namespace BanBoard.Cli

open BanBoard.Text

/-- A name with the two hyphens of an option that is spelled out. -/
def longOption (name : String) : List Char := '-' :: '-' :: name.toList

/-- A name behind two dashes is an option without a value of its own. -/
theorem shapeOf_longOption {name : String} (hSome : name.toList ≠ [])
    (hPlain : ∀ c ∈ name.toList, decide (c ≠ '=') = true) :
    shapeOf (longOption name) = .long name.toList none := by
  have hTake : name.toList.takeWhile (· ≠ '=') = name.toList := by
    simpa using takeWhile_append hPlain (stopsBefore_nil _)
  rw [longOption]
  generalize name.toList = letters at hSome hTake ⊢
  cases letters with
  | nil => exact (hSome rfl).elim
  | cons c letters => simp only [shapeOf, hTake, List.drop_length]

/-- What does not begin with a dash is a word. -/
theorem shapeOf_of_noFlag {argument : List Char} (h : argument.head? ≠ some '-') :
    shapeOf argument = .word := by
  cases argument with
  | nil => rfl
  | cons c argument =>
      have hOther : c ≠ '-' := fun hFlag => h (congrArg some hFlag)
      unfold shapeOf
      split
      · simp_all
      · simp_all
      · simp_all
      · rfl

/-- Whether an option can be spelled out: it is known by its name, and that is a name without the mark
that ends one. -/
structure OptionSpec.IsKnown (option : OptionSpec) (options : List OptionSpec) : Prop where
  found : (options.find? fun other => other.name.toList = option.name.toList) = some option
  isSome : option.name.toList ≠ []
  isPlain : ∀ c ∈ option.name.toList, decide (c ≠ '=') = true

section Options

variable {options : List OptionSpec} {option : OptionSpec} {given after : Given}

/-- An option with a value takes the next word. -/
theorem readOptions_value (h : option.IsKnown options) (hValue : option.hasValue = true)
    {value : List Char} (hWord : shapeOf value = .word)
    (hGive : give given option.name value = .ok after) (rounds : Nat) (rest : List (List Char)) :
    readOptions options (rounds + 1) given (longOption option.name :: value :: rest) =
      readOptions options rounds after rest := by
  have hLong : readLong options given option.name.toList none (value :: rest) = .ok (after, rest) := by
    simp only [readLong, h.found, hValue, nextValue, hWord, if_true, hGive, Except.map]
  simp only [readOptions, shapeOf_longOption h.isSome h.isPlain, hLong]
  rfl

theorem readOptions_flag (h : option.IsKnown options) (hFlag : option.hasValue = false)
    (hGive : giveFlag given option.name = .ok after) (rounds : Nat) (rest : List (List Char)) :
    readOptions options (rounds + 1) given (longOption option.name :: rest) =
      readOptions options rounds after rest := by
  have hLong : readLong options given option.name.toList none rest = .ok (after, rest) := by
    simp only [readLong, h.found, hFlag, hGive, Except.map]
  simp only [readOptions, shapeOf_longOption h.isSome h.isPlain, hLong]
  rfl

end Options

/-- The arguments that ask for the newest entries of the log as JSON. -/
def logArguments (limit : Nat) (jail : Option (List Char)) : List (List Char) :=
  ["log".toList, longOption "json", longOption "limit", decimal limit] ++
    jail.toList.flatMap fun name => [longOption "jail", name]

theorem shapeOf_decimal (n : Nat) : shapeOf (decimal n) = .word := by
  obtain ⟨c, tail, hText, hDigit⟩ := decimal_eq_cons n
  refine shapeOf_of_noFlag ?_
  rw [hText]
  exact fun hFlag => ne_of_isDigit hDigit (by decide) (Option.some.inj hFlag)

theorem readNumber?_decimal {bound n : Nat} (h : n ≤ bound) :
    readNumber? bound (decimal n) = some n := by
  rw [readNumber?, readUnsigned_decimal h]
  rfl

/-- The options behind the command that prints the log. -/
def logOptions : List OptionSpec :=
  globalOptions ++ [⟨"limit", some 'l', true⟩, ⟨"jail", some 'j', true⟩, ⟨"json", none, false⟩]

/-- The arguments of the command are read as they are meant. -/
theorem readOptions_logArguments {limit : Nat} (hLimit : limit ≤ maxWord64) {jail : Option (List Char)}
    (hJail : ∀ name ∈ jail, isJailName name = true) (rounds : Nat) :
    readOptions logOptions (rounds + 4) [] (logArguments limit jail).tail =
      .ok ((jail.toList.map fun name => ("jail", name)) ++ [("limit", decimal limit), ("json", [])],
        []) := by
  have hJson : OptionSpec.IsKnown ⟨"json", none, false⟩ logOptions :=
    ⟨rfl, List.cons_ne_nil _ _, List.all_eq_true.mp rfl⟩
  have hLimitKnown : OptionSpec.IsKnown ⟨"limit", some 'l', true⟩ logOptions :=
    ⟨rfl, List.cons_ne_nil _ _, List.all_eq_true.mp rfl⟩
  have hJailKnown : OptionSpec.IsKnown ⟨"jail", some 'j', true⟩ logOptions :=
    ⟨rfl, List.cons_ne_nil _ _, List.all_eq_true.mp rfl⟩
  have hGive : give [("json", [])] "limit" (decimal limit) =
      .ok [("limit", decimal limit), ("json", [])] := by
    simp [give, isValid, readNumber?_decimal hLimit]
  rw [logArguments, List.cons_append, List.tail_cons, List.cons_append, readOptions_flag hJson rfl rfl,
    List.cons_append, List.cons_append, readOptions_value hLimitKnown rfl (shapeOf_decimal limit) hGive]
  cases jail with
  | none => rfl
  | some name =>
      have hWord : shapeOf name = .word :=
        shapeOf_of_noFlag (isJailName_iff_isPlainName.mp (hJail name rfl)).noFlag
      have hGiveJail : give [("limit", decimal limit), ("json", [])] "jail" name =
          .ok [("jail", name), ("limit", decimal limit), ("json", [])] := by
        simp [give, isValid]
      exact readOptions_value hJailKnown rfl hWord hGiveJail _ _

/-- A decimal limit and a jail name are taken as they are. -/
theorem parse_logArguments {limit : Nat} (hLimit : limit ≤ maxWord64) {jail : Option (List Char)}
    (hJail : ∀ name ∈ jail, isJailName name = true) :
    Arguments.parse (logArguments limit jail) = .ok ⟨none, .log limit jail true⟩ := by
  obtain ⟨rounds, hRounds⟩ : ∃ rounds, (logArguments limit jail).length + 1 = rounds + 4 :=
    ⟨(logArguments limit jail).length - 3, by cases jail <;> rfl⟩
  have hLog : logArguments limit jail = "log".toList :: (logArguments limit jail).tail := rfl
  have hOuter : readOptions outerOptions (rounds + 4) [] (logArguments limit jail) =
      .ok ([], logArguments limit jail) := by
    rw [hLog]
    rfl
  have hInner := readOptions_logArguments hLimit hJail rounds
  have hOptions : commandOptions (String.ofList "log".toList) = some logOptions := rfl
  have hOther : "log".toList ≠ "help".toList := by decide
  rw [Arguments.parse, hRounds, hOuter, hLog]
  simp only [bind, Except.bind, if_neg hOther, hOptions, hInner]
  cases jail <;> simp [commandOf, Given.get?, readNumber?_decimal hLimit]

end BanBoard.Cli
