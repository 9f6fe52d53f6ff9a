import BanBoard.Shell.Machine

/-!
The few programs that scripts are made of, and where they are found. Time passes only while a program
sleeps.
-/

namespace BanBoard.Shell

open BanBoard.Files (Fault Path Tree)
open BanBoard.Text

/-- The outcome of a test, or none when it is none. -/
def test? (tree : Tree) (current : Path) : List (List Char) → Option Bool
  | [] => some false
  | [s] => some !s.isEmpty
  | ['!'] :: rest =>
    match rest with
    | [s] => some s.isEmpty
    | [op, s] => (unary op s).map (!·)
    | [a, op, b] => (binary a op b).map (!·)
    | _ => none
  | [op, s] => unary op s
  | [a, op, b] => binary a op b
  | _ => none
where
  /-- A test of one text. -/
  unary (op s : List Char) : Option Bool :=
    if op = "-z".toList then some s.isEmpty
    else if op = "-n".toList then some !s.isEmpty
    else if op = "-d".toList then some (tree.leadsToDirectory current s)
    else if op = "-f".toList then some (tree.read current s).isOk
    else if op = "-s".toList then
      some (match tree.read current s with
        | .ok bytes => !bytes.isEmpty
        | .error _ => false)
    else if ["-e", "-r", "-w", "-x"].any fun known => op = known.toList then
      some (tree.leadsToDirectory current s || (tree.read current s).isOk)
    else none
  /-- A test of two texts. -/
  binary (a op b : List Char) : Option Bool :=
    let x := integerOf a
    let y := integerOf b
    if op = ['='] || op = ['=', '='] then some (a = b)
    else if op = ['!', '='] then some (a ≠ b)
    else if op = "-eq".toList then some (x = y)
    else if op = "-ne".toList then some (x ≠ y)
    else if op = "-lt".toList then some (x < y)
    else if op = "-le".toList then some (x ≤ y)
    else if op = "-gt".toList then some (x > y)
    else if op = "-ge".toList then some (x ≥ y)
    else none

/-- The milliseconds of a duration such as `0.5` or `2m`. -/
def duration? (s : List Char) : Option Nat :=
  let whole := s.takeWhile isDigit
  let rest := s.drop whole.length
  let (fraction, rest) := match rest with
    | '.' :: after => (after.takeWhile isDigit, after.dropWhile isDigit)
    | _ => ([], rest)
  let thousandths := digitsValue ((fraction ++ ['0', '0', '0']).take 3)
  let scale := match rest with
    | [] => some 1
    | ['s'] => some 1
    | ['m'] => some 60
    | ['h'] => some 3600
    | ['d'] => some 86400
    | _ => none
  if s = "infinity".toList || s = "inf".toList then some forever
  else if whole.isEmpty && fraction.isEmpty then none
  else scale.map fun n => (digitsValue whole * 1000 + thousandths) * n

/-- Signals that do not end a program: those that are ignored, and none at all. -/
def harmlessSignals : List (List Char) :=
  ["0", "17", "18", "23", "28", "CHLD", "CONT", "URG", "WINCH"].map String.toList

/-- The signal that the words of a command send, and to whom. -/
def signalOf : List (List Char) → List Char × List (List Char)
  | ['-', 's'] :: signal :: rest => (signal, rest)
  | ('-' :: signal) :: rest => (signal, rest)
  | words => ("15".toList, words)

inductive Program where
  | echo
  | format
  | concatenate
  | sleep
  | succeed
  | fail
  | test
  | shell
  | script (path : Path)

def programNames : List (String × Program) :=
  [("echo", .echo), ("printf", .format), ("cat", .concatenate), ("sleep", .sleep),
    ("true", .succeed), ("false", .fail), ("test", .test), ("[", .test), ("sh", .shell),
    ("dash", .shell)]

def programNamed? (name : List Char) : Option Program :=
  (programNames.find? fun entry => entry.1.toList = name).map Prod.snd

/-- Whether a file may be run as a program. -/
def isRunnable (path : Path) : Bool :=
  match path.getLast? with
  | some name => name.drop (name.length - 3) = ".sh".toList
  | none => false

/-- Find a program by its name, or by its path when the name has a slash. -/
def Host.find (host : Host) (name : List Char) : Except Fault Program :=
  if !name.contains '/' then
    match programNamed? name with
    | some program => .ok program
    | none => .error .notFound
  else
    match host.tree.follow host.current name with
    | .error fault => .error fault
    | .ok path =>
      match host.tree.file? path with
      | some _ => if isRunnable path then .ok (.script path) else .error .noAccess
      | none =>
        if host.tree.isDirectory path then .error .noAccess
        else
          match path.reverse with
          | name :: above =>
            if above = ["bin".toList] || above = ["bin".toList, "usr".toList] then
              match programNamed? name with
              | some program => .ok program
              | none => .error .notFound
            else .error .notFound
          | [] => .error .noAccess

/-- The path of the program that the first line of a script names. -/
def interpreter? (bytes : List UInt8) : Option (List Char) :=
  match decodeLossy (bytes.takeWhile (· ≠ 0x0A)) with
  | '#' :: '!' :: line => some ((line.dropWhile isSeparator).takeWhile fun c => !isSeparator c)
  | _ => none

def interpreters : List (List Char) :=
  ["/bin/sh", "/usr/bin/sh", "/bin/dash", "/usr/bin/dash", "/bin/bash", "/usr/bin/bash",
    "/usr/bin/env"].map String.toList

def Host.startFault? (host : Host) (program : Program) : Option Fault :=
  match program with
  | .script path =>
    match interpreter? ((host.tree.file? path).getD []) with
    | none => some (.other (Files.numbered "Exec format error" 8))
    | some interpreter => if interpreters.contains interpreter then none else some .notFound
  | _ => none

def complainWithHelp (m : Machine) (streams : Streams) (program : String) (text : List Char) :
    Machine :=
  m.complain streams 1
    (program.toList ++ ':' :: ' ' :: text ++ "\nTry '".toList ++ program.toList ++
      " --help' for more information.".toList)

def sleep (m : Machine) (streams : Streams) (words : List (List Char)) : Machine :=
  match words.find? fun word => (duration? word).isNone with
  | some word =>
    complainWithHelp m streams "sleep" ("invalid time interval '".toList ++ word ++ ['\''])
  | none =>
    if words.isEmpty then complainWithHelp m streams "sleep" "missing operand".toList
    else { m with clock := m.clock + (words.filterMap duration?).sum, status := 0 }

def complainNumber (m : Machine) (streams : Streams) (builtin : Bool) (word : List Char)
    (fault : NumberFault) : Machine :=
  let text :=
    if builtin then
      m.name ++ ": 1: printf: ".toList ++ word ++
        (match fault with
        | .notNumeric => ": expected numeric value"
        | .trailing => ": not completely converted").toList
    else
      "printf: '".toList ++ word ++
        (match fault with
        | .notNumeric => "': expected a numeric value"
        | .trailing => "': value not completely converted").toList
  m.complain streams 1 text

def format (m : Machine) (streams : Streams) (builtin : Bool) (words : List (List Char)) : Machine :=
  match words with
  | [] =>
    if builtin then
      m.complain streams 2 (m.name ++ ": 1: printf: usage: printf format [arg ...]".toList)
    else complainWithHelp m streams "printf" "missing operand".toList
  | format :: words =>
    let printed := formatAll (words.length + 1) format words
    let m := (m.send streams.out printed.bytes).withStatus 0
    printed.faults.foldl (fun m (word, fault) => complainNumber m streams builtin word fault) m

/-- Concatenate files. What cannot be read is complained about, and the rest goes on. -/
def concatenate (m : Machine) (streams : Streams) (names : List (List Char)) : Machine :=
  let drain (m : Machine) : Machine := { m.send streams.out m.input with input := [] }
  if names.isEmpty then (drain m).withStatus 0
  else
    names.foldl (fun m name =>
      if name = ['-'] then drain m
      else
        match m.host.tree.read m.host.current name with
        | .ok bytes => m.send streams.out bytes
        | .error fault =>
          let reason := match fault with
            | .notFound => "No such file or directory"
            | .isDirectory => "Is a directory"
            | .notDirectory => "Not a directory"
            | _ => "Permission denied"
          m.complain streams 1 ("cat: ".toList ++ name ++ ':' :: ' ' :: reason.toList))
      (m.withStatus 0)

/-- Run a program that needs no script: the machine after it, or none when it has to be run as a
script. -/
def runSimple? (m : Machine) (streams : Streams) (program : Program) (builtin : Bool)
    (words : List (List Char)) : Option Machine :=
  match program with
  | .echo =>
    some ((m.send streams.out (if builtin then echo true words else echoProgram words)).withStatus 0)
  | .format => some (format m streams builtin words)
  | .concatenate => some (concatenate m streams words)
  | .sleep => some (sleep m streams words)
  | .succeed => some (m.withStatus 0)
  | .fail => some (m.withStatus 1)
  | .test =>
    let words := if words.getLast? = some [']'] then words.dropLast else words
    match test? m.host.tree m.host.current words with
    | some b => some (m.withStatus (if b then 0 else 1))
    | none => some (m.withStatus 2)
  | .shell => none
  | .script _ => none

end BanBoard.Shell
