import BanBoard.Mode
import BanBoard.Text.Decimal

/-!
The arguments of the command line. They are read from the left, and the first that does not fit ends
the reading; two options may be given before the command as well as behind it, where they count more.
-/

namespace BanBoard.Cli

open BanBoard.Text

inductive Command where
  | serve (port : Option UInt16) (bind : Option (List Char)) (demo : Option DemoSetting)
      (staticDir : Option (List Char))
  | status
  | log (limit : Nat) (jail : Option (List Char)) (json : Bool)
  | mode
  deriving DecidableEq

/-- A whole command line. How the program writes down what it does is an option as well, but nothing that
it answers depends on it. -/
structure Arguments where
  config : Option (List Char)
  command : Command
  deriving DecidableEq

/-- What a command line asks for besides a command: to be told how to use the program, or which
version it is; or it makes no sense. -/
inductive Refusal where
  | help
  | version
  | usage
  deriving DecidableEq

structure OptionSpec where
  name : String
  letter : Option Char
  hasValue : Bool

def globalOptions : List OptionSpec :=
  [⟨"config", some 'c', true⟩, ⟨"log-json", none, false⟩, ⟨"help", some 'h', false⟩]

def outerOptions : List OptionSpec := globalOptions ++ [⟨"version", some 'V', false⟩]

def commandOptions (command : String) : Option (List OptionSpec) :=
  match command with
  | "serve" =>
    some (globalOptions ++ [⟨"port", some 'p', true⟩, ⟨"bind", some 'b', true⟩,
      ⟨"demo", none, true⟩, ⟨"static-dir", none, true⟩])
  | "status" => some globalOptions
  | "log" =>
    some (globalOptions ++ [⟨"limit", some 'l', true⟩, ⟨"jail", some 'j', true⟩,
      ⟨"json", none, false⟩])
  | "mode" => some globalOptions
  | _ => none

/-- Read a number of at most `bound`, with an optional plus sign. -/
def readNumber? (bound : Nat) (s : List Char) : Option Nat := (readUnsigned 10 bound s).toOption

/-- Read the number of a port. It is read with its sign, so that a negative zero is one. -/
def readPort? (s : List Char) : Option Nat :=
  match s with
  | '-' :: digits => if !digits.isEmpty && digits.all (· = '0') then some 0 else none
  | _ => readNumber? maxWord16 s

/-- Whether a value can be read as what its option takes. Paths must not be empty. -/
def isValid (name : String) (value : List Char) : Bool :=
  match name with
  | "config" => !value.isEmpty
  | "static-dir" => !value.isEmpty
  | "port" => (readPort? value).isSome
  | "limit" => (readNumber? maxWord64 value).isSome
  | "demo" => (DemoSetting.ofText? value).isSome
  | _ => true

abbrev Given := List (String × List Char)

/-- Add an option, unless it is there already or its value cannot be read. -/
def give (given : Given) (name : String) (value : List Char) : Except Refusal Given :=
  if given.any fun entry => entry.1 = name then .error .usage
  else if isValid name value then .ok ((name, value) :: given)
  else .error .usage

/-- Add an option without a value. Two of them end the reading at once. -/
def giveFlag (given : Given) (name : String) : Except Refusal Given :=
  if name = "help" then .error .help
  else if name = "version" then .error .version
  else give given name []

inductive Shape where
  | escape
  | long (name : List Char) (value : Option (List Char))
  | short (letter : Char) (rest : List Char)
  | word
  deriving DecidableEq

/-- Tell what an argument is. A lone hyphen is a word. -/
def shapeOf : List Char → Shape
  | ['-', '-'] => .escape
  | '-' :: '-' :: rest =>
    let name := rest.takeWhile (· ≠ '=')
    match rest.drop name.length with
    | _ :: value => .long name (some value)
    | [] => .long name none
  | '-' :: letter :: rest => .short letter rest
  | _ => .word

/-- Read the value of an option from the next argument, which must not look like an option. -/
def nextValue (given : Given) (name : String) (rest : List (List Char)) :
    Except Refusal (Given × List (List Char)) :=
  match rest with
  | value :: rest =>
    if shapeOf value = .word then (give given name value).map fun given => (given, rest)
    else .error .usage
  | [] => .error .usage

/-- Read an option with one letter. What follows the letter is its value, or further letters when it
takes none. -/
def readShort (options : List OptionSpec) : (given : Given) → (letters : List Char) →
    (rest : List (List Char)) → Except Refusal (Given × List (List Char))
  | given, [], rest => .ok (given, rest)
  | given, letter :: letters, rest =>
    match options.find? fun option => option.letter = some letter with
    | none => .error .usage
    | some option =>
      if option.hasValue then
        match letters with
        | [] => nextValue given option.name rest
        | '=' :: value => (give given option.name value).map fun given => (given, rest)
        | value => (give given option.name value).map fun given => (given, rest)
      else do
        let given ← giveFlag given option.name
        readShort options given letters rest

def readLong (options : List OptionSpec) (given : Given) (name : List Char)
    (value : Option (List Char)) (rest : List (List Char)) :
    Except Refusal (Given × List (List Char)) :=
  match options.find? fun option => option.name.toList = name with
  | none => .error .usage
  | some option =>
    match option.hasValue, value with
    | true, some value => (give given option.name value).map fun given => (given, rest)
    | true, none => nextValue given option.name rest
    | false, some _ => .error .usage
    | false, none => (giveFlag given option.name).map fun given => (given, rest)

/-- Read options up to the first word. Behind two lone hyphens everything is a word, and none is
expected there. -/
def readOptions (options : List OptionSpec) : (rounds : Nat) → (given : Given) →
    List (List Char) → Except Refusal (Given × List (List Char))
  | 0, _, _ => .error .usage
  | _, given, [] => .ok (given, [])
  | rounds + 1, given, argument :: rest =>
    match shapeOf argument with
    | .word => .ok (given, argument :: rest)
    | .escape => if rest.isEmpty then .ok (given, []) else .error .usage
    | .long name value => do
      let (given, rest) ← readLong options given name value rest
      readOptions options rounds given rest
    | .short letter letters => do
      let (given, rest) ← readShort options given (letter :: letters) rest
      readOptions options rounds given rest

def Given.get? (given : Given) (name : String) : Option (List Char) :=
  (given.find? fun entry => entry.1 = name).map Prod.snd

/-- The number of entries that are printed when no limit is given. -/
def defaultLimit : Nat := 20

def commandOf (name : String) (given : Given) : Command :=
  match name with
  | "status" => .status
  | "log" =>
    .log (((given.get? "limit").bind (readNumber? maxWord64)).getD defaultLimit)
      (given.get? "jail") (given.get? "json").isSome
  | "mode" => .mode
  | _ =>
    .serve (((given.get? "port").bind readPort?).map Nat.toUInt16)
      (given.get? "bind") ((given.get? "demo").bind DemoSetting.ofText?) (given.get? "static-dir")

/-- Read what follows the request for help: the name of a command, or nothing. -/
def readHelp : List (List Char) → Refusal
  | [] => .help
  | [name] =>
    if name = "help".toList || (commandOptions (String.ofList name)).isSome then .help else .usage
  | _ => .usage

/-- Read a command line. Without a command the server is meant. -/
def Arguments.parse (arguments : List (List Char)) : Except Refusal Arguments := do
  let rounds := arguments.length + 1
  let (outer, rest) ← readOptions outerOptions rounds [] arguments
  match rest with
  | [] => .ok ⟨outer.get? "config", commandOf "serve" []⟩
  | word :: rest =>
    if word = "help".toList then .error (readHelp rest)
    else
      let name := String.ofList word
      match commandOptions name with
      | none => .error .usage
      | some options => do
        let (inner, rest) ← readOptions options rounds [] rest
        if rest.isEmpty then
          .ok ⟨(inner.get? "config").or (outer.get? "config"), commandOf name inner⟩
        else .error .usage

end BanBoard.Cli
