import BanBoard.Yaml.Layout

/-!
The documents of YAML as trees of nodes. The number of an anchor tells how many names were in use when
it was set, and an alias has the number of the last anchor of its name. A number that was given out
twice, which takes a name that was set twice, belongs to the later node in the end.
-/

namespace BanBoard.Yaml

structure Scalar where
  text : List Char
  style : Style
  tag : Option (List Char)
  deriving DecidableEq

inductive Node where
  | scalar (s : Scalar)
  | sequence (elements : List Node)
  | mapping (entries : List (Node × Node))
  | alias_ (number : Nat)

/-- What the directives of a document and the anchors before a node define. The names of anchors have
numbers, and the nodes at anchors stand in their order in the text, each with its number. -/
structure Scope where
  handles : List (List Char × List Char)
  names : List (List Char × Nat)
  marked : List (Nat × Node)

def Scope.start (handles : List (List Char × List Char)) : Scope := ⟨handles, [], []⟩

def Scope.handle? (scope : Scope) (handle : List Char) : Option (List Char) :=
  (scope.handles.find? fun entry => entry.1 = handle).map Prod.snd

def Scope.number? (scope : Scope) (name : List Char) : Option Nat :=
  (scope.names.find? fun entry => entry.1 = name).map Prod.snd

def Scope.mark (scope : Scope) (anchor : Option (List Char)) (node : Node) : Scope :=
  match anchor with
  | none => scope
  | some name =>
    let number := scope.names.length
    { scope with
      names := (name, number) :: scope.names.filter fun entry => entry.1 ≠ name
      marked := scope.marked ++ [(number, node)] }

/-- Put a node that is read to its end in the place of its beginning, the mark at a position. -/
def Scope.complete (scope : Scope) (position : Nat) (anchor : Option (List Char)) (node : Node) :
    Scope :=
  match anchor with
  | none => scope
  | some _ => { scope with marked := scope.marked.modify position fun entry => (entry.1, node) }

abbrev Read (α : Type) := Scope → List Token → Option (α × Scope × List Token)

/-- The full address of a tag. A lone exclamation mark is no tag. -/
def Scope.tag? (scope : Scope) (handle suffix : List Char) : Option (Option (List Char)) :=
  let full :=
    if handle.isEmpty then some suffix else (scope.handle? handle).map (· ++ suffix)
  full.map fun tag => if tag = ['!'] || tag.isEmpty then none else some tag

structure Properties where
  anchor : Option (List Char)
  tag : Option (List Char)
  present : Bool

def readProperties : Read Properties := fun scope tokens =>
  match tokens with
  | .anchor name :: .tag handle suffix :: rest =>
    (scope.tag? handle suffix).map fun tag => (⟨some name, tag, true⟩, scope, rest)
  | .tag handle suffix :: .anchor name :: rest =>
    (scope.tag? handle suffix).map fun tag => (⟨some name, tag, true⟩, scope, rest)
  | .anchor name :: rest => some (⟨some name, none, true⟩, scope, rest)
  | .tag handle suffix :: rest =>
    (scope.tag? handle suffix).map fun tag => (⟨none, tag, true⟩, scope, rest)
  | _ => some (⟨none, none, false⟩, scope, tokens)

def Node.missing : Node := .scalar ⟨[], .plain, none⟩

/-- Where a node stands, which decides the kinds of collections that may start there. -/
inductive Place where
  | block
  | blockOrEntries
  | flow
  deriving DecidableEq

def endsBlockNode : Option Token → Bool
  | some .key => true
  | some .value => true
  | some .blockEnd => true
  | _ => false

/-- A token before which an entry of a block sequence is missing. -/
def endsEntry : Option Token → Bool
  | some .blockEntry => true
  | some .blockEnd => true
  | _ => false

/-- A token before which a node is missing inside brackets or braces that `closing` ends. -/
def endsFlowNode (closing : Token) (token : Option Token) : Bool :=
  token = some .flowEntry || token = some closing

mutual

def readNode : (rounds : Nat) → Place → Read Node
  | 0, _ => fun _ _ => none
  | rounds + 1, place => fun scope tokens =>
    match tokens with
    | .alias_ name :: rest => (scope.number? name).map fun number => (.alias_ number, scope, rest)
    | _ => do
      let (properties, scope, tokens) ← readProperties scope tokens
      let collection (read : Read Node) (rest : List Token) := do
        let position := scope.marked.length
        let (node, scope, rest) ← read (scope.mark properties.anchor (.sequence [])) rest
        some (node, scope.complete position properties.anchor node, rest)
      let scalar (text : List Char) (style : Style) (rest : List Token) :=
        let node := Node.scalar ⟨text, style, properties.tag⟩
        some (node, scope.mark properties.anchor node, rest)
      match tokens with
      | .blockEntry :: _ =>
        if place = .blockOrEntries then collection (readLooseEntries rounds []) tokens
        else if properties.present then scalar [] .plain tokens
        else none
      | .scalar text style :: rest => scalar text style rest
      | .flowSequence :: rest => collection (readFlowElements rounds true []) rest
      | .flowMapping :: rest => collection (readFlowMembers rounds true []) rest
      | .blockSequence :: rest =>
        if place ≠ .flow then collection (readEntries rounds []) rest
        else if properties.present then scalar [] .plain tokens
        else none
      | .blockMapping :: rest =>
        if place ≠ .flow then collection (readMembers rounds []) rest
        else if properties.present then scalar [] .plain tokens
        else none
      | _ => if properties.present then scalar [] .plain tokens else none

def readEntries : (rounds : Nat) → List Node → Read Node
  | 0, _ => fun _ _ => none
  | rounds + 1, elements => fun scope tokens =>
    match tokens with
    | .blockEntry :: rest => do
      if endsEntry rest.head? then readEntries rounds (elements ++ [.missing]) scope rest
      else
        let (node, scope, rest) ← readNode rounds .block scope rest
        readEntries rounds (elements ++ [node]) scope rest
    | .blockEnd :: rest => some (.sequence elements, scope, rest)
    | _ => none

/-- Read the entries of a sequence that is not indented below the key it belongs to. -/
def readLooseEntries : (rounds : Nat) → List Node → Read Node
  | 0, _ => fun _ _ => none
  | rounds + 1, elements => fun scope tokens =>
    match tokens with
    | .blockEntry :: rest => do
      if rest.head? = some .blockEntry || endsBlockNode rest.head? then
        readLooseEntries rounds (elements ++ [.missing]) scope rest
      else
        let (node, scope, rest) ← readNode rounds .block scope rest
        readLooseEntries rounds (elements ++ [node]) scope rest
    | _ => some (.sequence elements, scope, tokens)

def readMembers : (rounds : Nat) → List (Node × Node) → Read Node
  | 0, _ => fun _ _ => none
  | rounds + 1, entries => fun scope tokens =>
    match tokens with
    | .key :: rest => do
      let (key, scope, rest) ←
        if endsBlockNode rest.head? then some (Node.missing, scope, rest)
        else readNode rounds .blockOrEntries scope rest
      let (value, scope, rest) ← match rest with
        | .value :: rest =>
          if endsBlockNode rest.head? then some (Node.missing, scope, rest)
          else readNode rounds .blockOrEntries scope rest
        | _ => some (Node.missing, scope, rest)
      readMembers rounds (entries ++ [(key, value)]) scope rest
    | .blockEnd :: rest => some (.mapping entries, scope, rest)
    | _ => none

def readFlowElements : (rounds : Nat) → (first : Bool) → List Node → Read Node
  | 0, _, _ => fun _ _ => none
  | rounds + 1, first, elements => fun scope tokens => do
    let tokens ← match first, tokens with
      | true, _ => some tokens
      | false, .flowEntry :: rest => some rest
      | false, .flowSequenceEnd :: _ => some tokens
      | false, _ => none
    match tokens with
    | .flowSequenceEnd :: rest => some (.sequence elements, scope, rest)
    | .key :: rest => do
      let (key, scope, rest) ←
        if rest.head? = some .value || endsFlowNode .flowSequenceEnd rest.head? then
          some (Node.missing, scope, rest)
        else readNode rounds .flow scope rest
      let (value, scope, rest) ← readFlowValue rounds .flowSequenceEnd scope rest
      readFlowElements rounds false (elements ++ [.mapping [(key, value)]]) scope rest
    | _ => do
      let (node, scope, rest) ← readNode rounds .flow scope tokens
      readFlowElements rounds false (elements ++ [node]) scope rest

def readFlowMembers : (rounds : Nat) → (first : Bool) → List (Node × Node) → Read Node
  | 0, _, _ => fun _ _ => none
  | rounds + 1, first, entries => fun scope tokens => do
    let tokens ← match first, tokens with
      | true, _ => some tokens
      | false, .flowEntry :: rest => some rest
      | false, .flowMappingEnd :: _ => some tokens
      | false, _ => none
    match tokens with
    | .flowMappingEnd :: rest => some (.mapping entries, scope, rest)
    | .key :: rest => do
      let (key, scope, rest) ←
        if rest.head? = some .value || endsFlowNode .flowMappingEnd rest.head? then
          some (Node.missing, scope, rest)
        else readNode rounds .flow scope rest
      let (value, scope, rest) ← readFlowValue rounds .flowMappingEnd scope rest
      readFlowMembers rounds false (entries ++ [(key, value)]) scope rest
    | _ => do
      let (key, scope, rest) ← readNode rounds .flow scope tokens
      readFlowMembers rounds false (entries ++ [(key, .missing)]) scope rest

def readFlowValue : (rounds : Nat) → (closing : Token) → Read Node
  | 0, _ => fun _ _ => none
  | rounds + 1, closing => fun scope tokens =>
    match tokens with
    | .value :: rest =>
      if endsFlowNode closing rest.head? then some (.missing, scope, rest)
      else readNode rounds .flow scope rest
    | _ => some (.missing, scope, tokens)

end

def standardHandles : List (List Char × List Char) :=
  [(['!'], ['!']), (['!', '!'], "tag:yaml.org,2002:".toList)]

/-- Read the directives in front of a document. A version may be given once and a handle defined
once. -/
def readDirectives : (seenVersion : Bool) → (handles : List (List Char × List Char)) → List Token →
    Option (List (List Char × List Char) × List Token)
  | seenVersion, handles, .version major minor :: rest =>
    if seenVersion || major ≠ 1 || (minor ≠ 1 && minor ≠ 2) then none
    else readDirectives true handles rest
  | seenVersion, handles, .tagHandle handle full :: rest =>
    if handles.any fun entry => entry.1 = handle then none
    else readDirectives seenVersion ((handle, full) :: handles) rest
  | _, handles, rest => some (handles, rest)

def endsDocument : List Token → Bool
  | [] => true
  | .version .. :: _ => true
  | .tagHandle .. :: _ => true
  | .documentStart :: _ => true
  | .documentEnd :: _ => true
  | _ => false

/-- Whether a row of tokens opens its document with directives or a border. -/
def isExplicit : List Token → Bool
  | .version .. :: _ => true
  | .tagHandle .. :: _ => true
  | .documentStart :: _ => true
  | _ => false

/-- A document: its root, and the nodes at its anchors with their numbers, in their order in the
text. -/
structure Document where
  root : Node
  marked : List (Nat × Node)

/-- The scalar that stands for the root of a document that has none. -/
def Document.missing : Document := ⟨.missing, []⟩

/-- The node that a node stands for, which is another one for an alias. -/
def Document.resolve (document : Document) (node : Node) : Node :=
  match node with
  | .alias_ number =>
    ((document.marked.reverse.find? fun entry => entry.1 = number).map Prod.snd).getD .missing
  | _ => node

def readRoot? (handles : List (List Char × List Char)) (tokens : List Token) :
    Option (Document × List Token) := do
  let (root, scope, rest) ←
    readNode (2 * tokens.length + 2) .block (.start (handles ++ standardHandles)) tokens
  some (⟨root, scope.marked⟩, rest)

/-- Read the only document of a row of tokens. Borders may follow it, but no further document. -/
def readDocument? (tokens : List Token) : Option Document := do
  let (document, rest) ←
    if isExplicit tokens then do
      let (handles, rest) ← readDirectives false [] tokens
      match rest with
      | .documentStart :: rest =>
        if endsDocument rest then some (.missing, rest) else readRoot? handles rest
      | _ => none
    else readRoot? [] tokens
  if rest.all (· = .documentEnd) then some document else none

/-- Read a text that holds one document. The inner result is missing when the text holds none at
all. -/
def readText? (text : List Char) : Option (Option Document) := do
  let tokens ← tokens? text
  if tokens.isEmpty then some none else (readDocument? tokens).map some

end BanBoard.Yaml
