import BanBoard.Shell.Field
import BanBoard.Shell.Grammar
import BanBoard.Shell.Program

/-!
Running scripts. A script that goes on for too many steps counts as one that never ends.
-/

namespace BanBoard.Shell

open BanBoard.Files (Fault Path)
open BanBoard.Text

/-- The status that a word asks for, or the present one without a word. Only digits make a status, and
only its last byte counts. -/
def status? (word : Option (List Char)) (present : Nat) : Option Nat :=
  match word with
  | none => some present
  | some digits =>
    if digits.isEmpty || !digits.all isDigit then none else some (digitsValue digits % 256)

def refuse (m : Machine) (streams : Streams) (text : List Char) : Machine × Ending :=
  (m.complain streams 2 (m.name ++ ": 1: ".toList ++ text), .left)

def checked (m : Machine) (ending : Ending) : Machine × Ending :=
  (m, if ending = .done && m.manner.strict && m.status ≠ 0 then .left else ending)

/-- The machine after a shell of its own has run: the files, the output and the clock are those of the
inner one, all else is as before. -/
def leaveShell (outer inner : Machine) : Machine :=
  { outer with
    host := { outer.host with tree := inner.host.tree }
    outPieces := inner.outPieces
    errPieces := inner.errPieces
    status := inner.status
    clock := inner.clock
    busyUntil := inner.busyUntil
    jobsUntil := inner.jobsUntil }

def afterShell (inner : Ending) : Ending := if inner = .killed then .killed else .done

def Redirect.isInput : Redirect → Bool
  | .fromFile _ => true
  | .fromText _ => true
  | _ => false

/-- Whether output still goes to the first two streams after redirections. -/
def holdsStreams (redirects : List Redirect) : Bool :=
  let (out, err) := redirects.foldl (fun (out, err) r =>
    match r with
    | .toFile 2 _ _ => (out, false)
    | .toFile _ _ _ => (false, err)
    | .toStream 2 1 => (out, out)
    | .toStream 1 2 => (err, err)
    | _ => (out, err)) (true, true)
  out || err

/-- Whether a script in the background keeps the streams open. -/
def Script.holdsStreams : Script → Bool
  | .simple _ _ redirects => Shell.holdsStreams redirects
  | .group _ redirects => Shell.holdsStreams redirects
  | .subshell _ redirects => Shell.holdsStreams redirects
  | _ => true

/-- Give variables the values back that they had in an environment. -/
def Machine.restore (m : Machine) (outer : Environment) (names : List (List Char)) : Machine :=
  names.foldl (fun m name =>
    match outer.find? fun entry => entry.1 = name with
    | some (_, value) => m.setVariable name value
    | none => m.removeVariable name) m

def Manner.apply (manner : Manner) (letters : List Char) (value : Bool) : Manner :=
  { manner with
    strict := if letters.contains 'e' then value else manner.strict
    nounset := if letters.contains 'u' then value else manner.nounset }

def setOptions : List (List Char) → Machine → Machine
  | [], m => m
  | ['-', '-'] :: words, m => { m with parameters := words }
  | ('-' :: letters) :: words, m =>
    setOptions words { m with manner := m.manner.apply letters true }
  | ('+' :: letters) :: words, m =>
    setOptions words { m with manner := m.manner.apply letters false }
  | words, m => { m with parameters := words }

def dropBackslashes : List Char → List Char
  | '\\' :: c :: rest => c :: dropBackslashes rest
  | c :: rest => c :: dropBackslashes rest
  | [] => []

/-- Share a line out among variables, the last of which takes all that is left. -/
def shareLine (separators : List Char) : List (List Char) → List Char → Machine → Machine
  | [], _, m => m
  | [name], line, m =>
    let kept := (line.reverse.dropWhile separators.contains).reverse
    m.setVariable name kept
  | name :: names, line, m =>
    let field := line.takeWhile fun c => !separators.contains c
    shareLine separators names ((line.drop field.length).dropWhile separators.contains)
      (m.setVariable name field)

/-- Read a line of input into variables. It is a failure when the input ends before the line does. -/
def readInput (m : Machine) (words : List (List Char)) : Machine :=
  let raw := words.head? = some ['-', 'r']
  let names := if raw then words.drop 1 else words
  let bytes := m.input.takeWhile (· ≠ 0x0A)
  let rest := m.input.drop bytes.length
  let line := decodeLossy bytes
  let separators := (m.valueOf? "IFS".toList).getD [' ', '\t', '\n']
  let line := (if raw then line else dropBackslashes line).dropWhile separators.contains
  let m := shareLine separators names line { m with input := rest.drop 1 }
  m.withStatus (if rest.isEmpty then 1 else 0)

def changeDirectory (m : Machine) (streams : Streams) (words : List (List Char)) : Machine :=
  let target := words.head?.getD (m.parameter "HOME".toList)
  match m.host.tree.follow m.host.current target with
  | .ok path =>
    if m.host.tree.isDirectory path then
      { m with host := { m.host with current := path }, status := 0 }
    else m.complain streams 2 (m.name ++ ": 1: cd: can't cd to ".toList ++ target)
  | .error _ => m.complain streams 2 (m.name ++ ": 1: cd: can't cd to ".toList ++ target)

def pathText (path : Path) : List Char :=
  if path.isEmpty then ['/'] else path.flatMap fun name => '/' :: name

/-- A command of the shell itself that runs no script: the machine after it and how the script goes
on, or none when there is no such command. -/
def runBuiltin? (m : Machine) (streams : Streams) (name : List Char) (words : List (List Char)) :
    Option (Machine × Ending) :=
  let fine (m : Machine) : Option (Machine × Ending) := some (m.withStatus 0, .done)
  let leave (ending : Ending) : Option (Machine × Ending) :=
    some (match status? words.head? m.status with
      | some status => (m.withStatus status, ending)
      | none =>
        refuse m streams (name ++ ": Illegal number: ".toList ++ words.head?.getD []))
  match String.ofList name with
  | ":" => fine m
  | "exit" => leave .left
  | "return" => leave .returned
  | "break" => some (m.withStatus 0, .interrupted false)
  | "continue" => some (m.withStatus 0, .interrupted true)
  | "shift" =>
    let count := (words.head?.map digitsValue).getD 1
    if count ≤ m.parameters.length then fine { m with parameters := m.parameters.drop count }
    else some (refuse m streams "shift: can't shift that many".toList)
  | "set" => fine (setOptions words m)
  | "unset" =>
    fine (words.foldl (fun m name =>
      let functions := m.functions.filter fun entry => entry.1 ≠ name
      { m.removeVariable name with functions := functions }) m)
  | "kill" =>
    let (signal, targets) := signalOf words
    if harmlessSignals.contains signal then fine m
    else if targets.contains ownNumber then some (m, .killed)
    else some (m.withStatus 1, .done)
  | "read" => some (readInput m words, .done)
  | "cd" => some (changeDirectory m streams words, .done)
  | "pwd" => fine (m.send streams.out (encodeUtf8 (pathText m.host.current ++ ['\n'])))
  | "wait" => fine { m with clock := max m.clock m.jobsUntil }
  | "trap" =>
    match words with
    | action :: signals =>
      if signals.any fun signal => signal = "EXIT".toList || signal = ['0'] then
        fine { m with manner := { m.manner with atEnd := action } }
      else fine m
    | [] => fine m
  | name =>
    if ["export", "readonly", "local"].contains name then
      fine (words.foldl (fun m word =>
        match splitOnce '=' word with
        | some (name, value) => m.setVariable name value
        | none => m) m)
    else none

mutual

def expand : (rounds : Nat) → Fields → ScriptWord → Machine → Fields × Machine
  | 0, f, _, m => (f, m.stuck)
  | _, f, [], m => (f, m)
  | rounds + 1, f, piece :: word, m =>
    let join (quoted : Bool) (s : List Char) : Fields := if quoted then f.add s else f.addSplit s
    match piece with
    | .text s quoted =>
      expand rounds (if s.isEmpty && !quoted then f else f.add s) word m
    | .parameter ['@'] true => expand rounds (f.addAll m.parameters) word m
    | .parameter name quoted =>
      let m :=
        if m.manner.nounset && !m.isSet name then m.breakOff (name ++ ": parameter not set".toList)
        else m
      expand rounds (join quoted (m.parameter name)) word m
    | .length name quoted =>
      expand rounds (join quoted (decimal (m.parameter name).length)) word m
    | .modified name sign text quoted =>
      let (value, m) := modify rounds name sign text m
      expand rounds (join quoted value) word m
    | .arithmetic text quoted =>
      match evaluate? m.values text with
      | some n => expand rounds (join quoted (writeInteger 10 n)) word m
      | none =>
        expand rounds f word
          (m.breakOff ("arithmetic expression: division by zero: \"".toList ++ text ++ ['"']))
    | .command script quoted =>
      let (text, m) := substitute rounds script m
      expand rounds (join quoted text) word m

def modify : (rounds : Nat) → (name : List Char) → (sign : String) → (text : List Char) → Machine →
    List Char × Machine
  | 0, _, _, _, m => ([], m.stuck)
  | rounds + 1, name, sign, text, m =>
    let value := m.parameter name
    let emptyCounts := sign.toList.head? = some ':'
    let missing := !m.isSet name || (emptyCounts && value.isEmpty)
    let bare := text.filter (· ≠ '"')
    let (word, quoted?) := match readDoubleQuoted (bare.length + 2) [] (bare ++ ['"']) with
      | some (word, _) => (word, true)
      | none => ([], false)
    match sign.toList.getLast? with
    | some '-' => if missing then expandOne rounds word m else (value, m)
    | some '+' => if missing then ([], m) else expandOne rounds word m
    | some '=' =>
      if missing then
        let (value, m) := expandOne rounds word m
        (value, m.setVariable name value)
      else (value, m)
    | some '?' =>
      if missing then
        let (reason, m) := expandOne rounds word m
        let reason :=
          if !reason.isEmpty || !quoted? then reason
          else if emptyCounts then "parameter not set or null".toList
          else "parameter not set".toList
        ([], m.breakOff (name ++ ':' :: ' ' :: reason))
      else (value, m)
    | _ =>
      match readScriptWord (text.length + 2) [] text with
      | some (word, _) =>
        let (pattern, m) := expandPattern rounds word m
        (trimPattern sign pattern value, m)
      | none => (value, m)

def substitute : (rounds : Nat) → (script : List Char) → Machine → List Char × Machine
  | 0, _, m => ([], m.stuck)
  | rounds + 1, script, m =>
    match Script.parse? script with
    | none => ([], m.withStatus 2)
    | some body =>
      let (inner, _) := run rounds ⟨.out, .err⟩ body { m with outPieces := [] }
      let text := decodeLossy inner.stdout
      ((text.reverse.dropWhile (· = '\n')).reverse,
        { leaveShell m inner with outPieces := m.outPieces })

def expandAll : (rounds : Nat) → List ScriptWord → Machine → List (List Char) × Machine
  | 0, _, m => ([], m.stuck)
  | _, [], m => ([], m)
  | rounds + 1, word :: words, m =>
    let (fields, m) := expand rounds ⟨[], none⟩ word m
    let (rest, m) := expandAll rounds words m
    (fields.all ++ rest, m)

def expandOne : (rounds : Nat) → ScriptWord → Machine → List Char × Machine
  | 0, _, m => ([], m.stuck)
  | rounds + 1, word, m =>
    let quoted := word.map fun piece =>
      match piece with
      | .parameter ['@'] _ => Piece.parameter ['*'] true
      | piece => piece.withQuotes
    let (fields, m) := expand rounds ⟨[], none⟩ quoted m
    (fields.all.flatten, m)

/-- Expand a word into a pattern, in which quoted characters stand for themselves. -/
def expandPattern : (rounds : Nat) → ScriptWord → Machine → Pattern × Machine
  | 0, _, m => ([], m.stuck)
  | _, [], m => ([], m)
  | rounds + 1, piece :: word, m =>
    let (text, m) := expandOne rounds [piece] m
    let (rest, m) := expandPattern rounds word m
    (text.map (fun c => (c, piece.isQuoted)) ++ rest, m)

/-- Apply redirections. There are no streams when one of them leads nowhere. -/
def redirect : (rounds : Nat) → Streams → List Redirect → Machine → Option Streams × Machine
  | 0, _, _, m => (none, m.stuck)
  | _, streams, [], m => (some streams, m)
  | rounds + 1, streams, r :: rs, m =>
    match r with
    | .toStream from_ onto => redirect rounds (streams.set from_ (streams.get onto)) rs m
    | .fromText body =>
      let (text, m) := expandOne rounds body m
      redirect rounds streams rs { m with input := encodeUtf8 text }
    | .fromFile path =>
      let (path, m) := expandOne rounds path m
      match m.host.tree.read m.host.current path with
      | .ok bytes => redirect rounds streams rs { m with input := bytes }
      | .error _ =>
        (none, m.complain streams 2 (m.name ++ ": 1: cannot open ".toList ++ path ++
          ": No such file".toList))
    | .toFile from_ path append =>
      let (path, m) := expandOne rounds path m
      if path = "/dev/null".toList then redirect rounds (streams.set from_ .nowhere) rs m
      else if path = "/dev/stderr".toList then redirect rounds (streams.set from_ .err) rs m
      else if path = "/dev/stdout".toList then redirect rounds (streams.set from_ .out) rs m
      else
        match m.host.tree.follow m.host.current path with
        | .error _ =>
          (none, m.complain streams 2 (m.name ++ ": 1: cannot create ".toList ++ path ++
            ": Directory nonexistent".toList))
        | .ok path =>
          let before := if append then (m.host.tree.file? path).getD [] else []
          redirect rounds (streams.set from_ (.file path)) rs
            { m with host := { m.host with tree := m.host.tree.write path before } }

def runShell : (rounds : Nat) → Streams → List (List Char) → Machine → Machine × Ending
  | 0, _, _, m => (m.stuck, .left)
  | rounds + 1, streams, words, m =>
    match words with
    | ['-', 'c'] :: script :: rest =>
      runText rounds streams script (rest.head?.getD "sh".toList) (rest.drop 1) m
    | [] => runText rounds streams (decodeLossy m.input) "sh".toList [] m
    | name :: parameters =>
      match m.host.tree.read m.host.current name with
      | .ok bytes => runText rounds streams (decodeLossy bytes) name parameters m
      | .error _ =>
        (m.complain streams 2 ("sh: 0: cannot open ".toList ++ name ++ ": No such file".toList),
          .done)

def runText : (rounds : Nat) → Streams → (text name : List Char) → List (List Char) → Machine →
    Machine × Ending
  | 0, _, _, _, _, m => (m.stuck, .left)
  | rounds + 1, streams, text, name, parameters, m =>
    match Script.parse? text with
    | none => (m.complain streams 2 (name ++ ": 1: ".toList ++ syntaxComplaint text), .done)
    | some body =>
      let (inner, ending) := run rounds streams body
        { m with
          name := name, parameters := parameters, functions := [], manner := .usual, status := 0 }
      if ending = .killed then (leaveShell m inner, .killed)
      else
        let status := inner.status
        let (inner, _) :=
          match Script.parse? inner.manner.atEnd with
          | some last =>
            run rounds streams last
              { inner with manner := { inner.manner with atEnd := [] }, broken := false }
          | none => (inner, .done)
        ((leaveShell m inner).withStatus status, .done)

def runProgram : (rounds : Nat) → Streams → Program → (builtin : Bool) → (name : List Char) →
    List (List Char) → Machine → Machine × Ending
  | 0, _, _, _, _, _, m => (m.stuck, .left)
  | rounds + 1, streams, program, builtin, name, words, m =>
    match runSimple? m streams program builtin words with
    | some m => (m, .done)
    | none =>
      match program with
      | .script path =>
        runText rounds streams (decodeLossy ((m.host.tree.file? path).getD [])) name words m
      | _ => runShell rounds streams words m

/-- Run the fields of a command: a function, a command of the shell itself, or a program. -/
def runFields : (rounds : Nat) → Streams → List (List Char) → Machine → Machine × Ending
  | 0, _, _, m => (m.stuck, .left)
  | _, _, [], m => (m, .done)
  | rounds + 1, streams, name :: words, m =>
    match m.functions.find? fun entry => entry.1 = name with
    | some (_, body) =>
      let (after, ending) := run rounds streams body { m with parameters := words }
      ({ after with parameters := m.parameters }, if ending = .returned then .done else ending)
    | none =>
      match runBuiltin? m streams name words with
      | some result => result
      | none =>
        if name = "exec".toList then
          let (m, ending) := runFields rounds streams words m
          (m, if words.isEmpty || ending = .killed then ending else .left)
        else if name = "command".toList then runFields rounds streams words m
        else if name = "eval".toList then
          match Script.parse? (joinWords words) with
          | some body => run rounds streams body (m.withStatus 0)
          | none => refuse m streams (syntaxComplaint (joinWords words))
        else
          match m.host.find name with
          | .ok program => runProgram rounds streams program true name words m
          | .error fault =>
            let (status, reason) := match fault with
              | .noAccess => (126, ": Permission denied")
              | _ => (127, ": not found")
            (m.complain streams status (m.name ++ ": 1: ".toList ++ name ++ reason.toList), .done)

/-- Run a script that is a condition. Its failures are no failures of a strict shell. -/
def runCondition : (rounds : Nat) → Streams → Script → Machine → Machine × Ending
  | 0, _, _, m => (m.stuck, .left)
  | rounds + 1, streams, script, m =>
    let strict := m.manner.strict
    let (m, ending) :=
      run rounds streams script { m with manner := { m.manner with strict := false } }
    ({ m with manner := { m.manner with strict := strict } }, ending)

def run : (rounds : Nat) → Streams → Script → Machine → Machine × Ending
  | 0, _, _, m => (m.stuck, .left)
  | rounds + 1, streams, script, m =>
    match script with
    | .nothing => (m, .done)
    | .simple assignments words redirects =>
      let outer := m.host.environment
      let input := m.input
      let (fields, m) := expandAll rounds words m
      let m := assign rounds assignments (if fields.isEmpty then m.withStatus 0 else m)
      let (streams, m) := redirect rounds streams redirects m
      if m.broken then (m, .left)
      else
        match streams with
        | none => checked m .done
        | some streams =>
          let (m, ending) := runFields rounds streams fields m
          let m := if redirects.any Redirect.isInput then { m with input := input } else m
          checked (if fields.isEmpty then m else m.restore outer (assignments.map Prod.fst)) ending
    | .sequence first second =>
      let (m, ending) := run rounds streams first m
      if ending = .done then run rounds streams second m else (m, ending)
    | .both first second =>
      let (m, ending) := runCondition rounds streams first m
      if ending = .done && m.status = 0 then run rounds streams second m else (m, ending)
    | .either first second =>
      let (m, ending) := runCondition rounds streams first m
      if ending = .done && m.status ≠ 0 then run rounds streams second m else (m, ending)
    | .negated body =>
      let (m, ending) := runCondition rounds streams body m
      (m.withStatus (if m.status = 0 then 1 else 0), ending)
    | .pipe first second =>
      let (inner, _) := run rounds { streams with out := .out } first { m with outPieces := [] }
      let (after, ending) := run rounds streams second
        { leaveShell m inner with outPieces := m.outPieces, input := inner.stdout, clock := m.clock }
      checked { leaveShell m after with clock := max inner.clock after.clock } (afterShell ending)
    | .conditional condition consequence alternative =>
      let (m, ending) := runCondition rounds streams condition m
      if ending ≠ .done then (m, ending)
      else if m.status = 0 then run rounds streams consequence (m.withStatus 0)
      else run rounds streams alternative (m.withStatus 0)
    | .loop until_ condition body =>
      let (m, ending) := runCondition rounds streams condition m
      if ending ≠ .done then (m, ending)
      else if (m.status = 0) = until_ then (m.withStatus 0, .done)
      else
        let (m, ending) := run rounds streams body m
        match ending with
        | .interrupted false => (m, .done)
        | .interrupted true => run rounds streams (.loop until_ condition body) m
        | .done => run rounds streams (.loop until_ condition body) m
        | _ => (m, ending)
    | .forEach name words body =>
      let (fields, m) := match words with
        | some words => expandAll rounds words m
        | none => (m.parameters, m)
      runEach rounds streams name fields body (m.withStatus 0)
    | .choice subject arms =>
      let (text, m) := expandOne rounds subject m
      runArms rounds streams text arms (m.withStatus 0)
    | .group body redirects =>
      let input := m.input
      let (streams, m) := redirect rounds streams redirects m
      match streams with
      | none => checked m .done
      | some streams =>
        let (m, ending) := run rounds streams body m
        (if redirects.any Redirect.isInput then { m with input := input } else m, ending)
    | .subshell body redirects =>
      let (streams, m) := redirect rounds streams redirects m
      match streams with
      | none => checked m .done
      | some streams =>
        let (inner, ending) := run rounds streams body m
        checked (leaveShell m inner) (afterShell ending)
    | .background body =>
      let (inner, _) := run rounds streams body { m with input := [] }
      let busy := if body.holdsStreams then max inner.clock inner.busyUntil else inner.busyUntil
      ({ leaveShell m inner with
          status := 0
          clock := m.clock
          busyUntil := busy
          jobsUntil := max inner.clock inner.jobsUntil }, .done)
    | .define name body =>
      ({ m with functions := (name, body) :: m.functions, status := 0 }, .done)

def assign : (rounds : Nat) → List (List Char × ScriptWord) → Machine → Machine
  | 0, _, m => m.stuck
  | _, [], m => m
  | rounds + 1, (name, value) :: rest, m =>
    let (text, m) := expandOne rounds value m
    assign rounds rest (m.setVariable name text)

def runEach : (rounds : Nat) → Streams → (name : List Char) → List (List Char) → Script → Machine →
    Machine × Ending
  | 0, _, _, _, _, m => (m.stuck, .left)
  | _, _, _, [], _, m => (m, .done)
  | rounds + 1, streams, name, field :: fields, body, m =>
    let (m, ending) := run rounds streams body (m.setVariable name field)
    match ending with
    | .interrupted false => (m, .done)
    | .interrupted true => runEach rounds streams name fields body m
    | .done => runEach rounds streams name fields body m
    | _ => (m, ending)

def runArms : (rounds : Nat) → Streams → (text : List Char) → List (List ScriptWord × Script) →
    Machine → Machine × Ending
  | 0, _, _, _, m => (m.stuck, .left)
  | _, _, _, [], m => (m, .done)
  | rounds + 1, streams, text, (patterns, body) :: arms, m =>
    let (fits, m) := matchAny rounds text patterns m
    if fits then run rounds streams body m else runArms rounds streams text arms m

def matchAny : (rounds : Nat) → (text : List Char) → List ScriptWord → Machine → Bool × Machine
  | 0, _, _, m => (false, m.stuck)
  | _, _, [], m => (false, m)
  | rounds + 1, text, word :: words, m =>
    let (pattern, m) := expandPattern rounds word m
    if patternFits (pattern.length + text.length + 1) pattern text then (true, m)
    else matchAny rounds text words m

end

/-- The number of steps after which a script counts as endless. -/
def maxSteps : Nat := 100000

/-- Start a program by its name and wait for its end. A script has to name the shell that runs it. -/
def Host.start (host : Host) (name : List Char) (words : List (List Char)) :
    Except Fault (Machine × Ending) :=
  match host.find name with
  | .error fault => .error fault
  | .ok program =>
    match host.startFault? program with
    | some fault => .error fault
    | none =>
      .ok (runProgram maxSteps ⟨.out, .err⟩ program false name words (Machine.start host name))

end BanBoard.Shell
