import Polyad.Yaml.Token

/-!
# YAML nodes

The nodes of a YAML text: scalars, sequences and mappings with their tags. Nodes are known by
number, so that an alias is the number of the node it stands for, which may well be one around it.
`Document.ofTokens` reads at most one document.
-/

namespace Polyad.Yaml

inductive Node where
  | scalar (tag text : String)
  | sequence (tag : String) (items : List Nat)
  | mapping (tag : String) (entries : List (Nat × Nat))
  deriving Inhabited

namespace Node

def tag : Node → String
  | scalar t _ => t
  | sequence t _ => t
  | mapping t _ => t

/-- The node with another tag. -/
def withTag (t : String) : Node → Node
  | scalar _ text => scalar t text
  | sequence _ items => sequence t items
  | mapping _ entries => mapping t entries

end Node

/-- The nodes of a document, by number. -/
structure Document where
  nodes : Array Node
  root : Nat
  /-- Whether some node stands in more than one place. -/
  shared : Bool

/-- The tokens still to read, the nodes so far, the anchored ones and the tag handles of the
document. -/
structure Reading where
  tokens : List Token
  nodes : Array Node := #[]
  anchors : List (String × Nat) := []
  handles : List (String × String) := []
  shared : Bool := false

/-- Reading knows what happens after the tokens; at the end of the text nothing does. -/
abbrev ReadM := ReaderT (Option Error) (StateT Reading (Except Error))

namespace Reading

def bad {α : Type} : ReadM α := throw .malformedYaml

/-- The next token; there is none at the end of the text. -/
def front : ReadM (Option Token) := do
  match (← get).tokens with
  | t :: _ => return some t
  | [] =>
    if let some e ← read then throw e
    return none

/-- The number of a new node. -/
def add (n : Node) : ReadM Nat := do
  let id := (← get).nodes.size
  modify fun s => { s with nodes := s.nodes.push n }
  return id

def drop : ReadM Unit := modify fun s => { s with tokens := s.tokens.drop 1 }

/-- An empty scalar, which is null. -/
def empty : ReadM Nat := add (.scalar (core "null") "")

def resolveTag (handle : Option String) (suffix : String) : ReadM String := do
  match handle with
  | none => return suffix
  | some h => match (← get).handles.lookup h with
    | some meaning => return meaning ++ suffix
    | none => bad

/-- The anchor and tag in front of a node, in either order. -/
def properties : ReadM (Option String × Option String) := do
  match ← front with
  | some (.anchor a) => do
    drop
    match ← front with
    | some (.tag h s) => do
      drop
      return (some a, some (← resolveTag h s))
    | _ => return (some a, none)
  | some (.tag h s) => do
    drop
    match ← front with
    | some (.anchor a) => do
      drop
      return (some a, some (← resolveTag h s))
    | _ => return (none, some (← resolveTag h s))
  | _ => return (none, none)

/-- The tag of a collection that may have been given one. -/
def collectionTag (given : Option String) (default : String) : String :=
  match given with
  | none => default
  | some t => if t == "!" then default else t

/-- The tag of a scalar: its own, or that of its spelling. -/
def scalarTag (given : Option String) (text : String) (plain : Bool) : String :=
  match given with
  | none => if plain then implicitTag text else core "str"
  | some t => if t == "!" then implicitTag text else t

/-- Each name is the anchor of one node only. -/
def checkAnchor (a : Option String) : ReadM Unit := do
  if let some name := a then
    if ((← get).anchors.lookup name).isSome then bad

def setAnchor (a : Option String) (id : Nat) : ReadM Unit := do
  if let some name := a then
    modify fun s => { s with anchors := (name, id) :: s.anchors }

/-- The node of an anchor. -/
def aliased (name : String) : ReadM Nat := do
  match (← get).anchors.lookup name with
  | some id =>
    modify fun s => { s with shared := true }
    return id
  | none => bad

/-- A sequence, whose items may hold aliases of it. -/
def sequence (a given : Option String) (items : ReadM (List Nat)) : ReadM Nat := do
  let tag := collectionTag given (core "seq")
  let id ← add (.sequence tag [])
  setAnchor a id
  let items ← items
  modify fun s => { s with nodes := s.nodes.set! id (.sequence tag items) }
  return id

def mapping (a given : Option String) (entries : ReadM (List (Nat × Nat))) : ReadM Nat := do
  let tag := collectionTag given (core "map")
  let id ← add (.mapping tag [])
  setAnchor a id
  let entries ← entries
  modify fun s => { s with nodes := s.nodes.set! id (.mapping tag entries) }
  return id

def scalar (a given : Option String) (text : String) (plain : Bool) : ReadM Nat := do
  let id ← add (.scalar (scalarTag given text plain) text)
  setAnchor a id
  return id

def endsFlowPair : Option Token → Bool
  | some .value => true
  | some .flowEntry => true
  | some .flowSequenceEnd => true
  | _ => false

def endsFlowItem : Option Token → Bool
  | some .flowEntry => true
  | some .flowSequenceEnd => true
  | _ => false

def endsFlowKey : Option Token → Bool
  | some .value => true
  | some .flowEntry => true
  | some .flowMappingEnd => true
  | _ => false

def endsFlowValue : Option Token → Bool
  | some .flowEntry => true
  | some .flowMappingEnd => true
  | _ => false

def endsBlockPart : Option Token → Bool
  | some .key => true
  | some .value => true
  | some .blockEnd => true
  | _ => false

def endsBlockItem : Option Token → Bool
  | some .blockEntry => true
  | some .blockEnd => true
  | _ => false

mutual

/-- A node. In a block, `block` collections may start; after a key, a sequence need not be indented.
Every call reads a token or goes one level down, so four times the number of tokens is fuel enough.
-/
def node (block indentless : Bool) : Nat → ReadM Nat
  | 0 => bad
  | fuel + 1 => do
    if let some (.aliasOf name) ← front then
      drop
      return ← aliased name
    let (a, given) ← properties
    let t ← front
    checkAnchor a
    match t with
    | some (.scalar text plain) => do
      drop
      scalar a given text plain
    | some .flowSequenceStart => do
      drop
      sequence a given (flowItems true fuel [])
    | some .flowMappingStart => do
      drop
      mapping a given (flowEntries true fuel [])
    | _ =>
      if indentless && t == some .blockEntry then sequence a given (indentlessItems fuel [])
      else if block && t == some .blockSequenceStart then do
        drop
        sequence a given (blockItems fuel [])
      else if block && t == some .blockMappingStart then do
        drop
        mapping a given (blockEntries fuel [])
      else if a.isSome || given.isSome then
        scalar a given "" (given.isNone || given == some "!")
      else bad

def blockItems : Nat → List Nat → ReadM (List Nat)
  | 0, _ => bad
  | fuel + 1, done => do
    match ← front with
    | some .blockEntry => do
      drop
      if endsBlockItem (← front) then blockItems fuel ((← empty) :: done)
      else blockItems fuel ((← node true false fuel) :: done)
    | some .blockEnd => do
      drop
      return done.reverse
    | _ => bad

def indentlessItems : Nat → List Nat → ReadM (List Nat)
  | 0, _ => bad
  | fuel + 1, done => do
    match ← front with
    | some .blockEntry => do
      drop
      let t ← front
      if t == some .blockEntry || endsBlockPart t then indentlessItems fuel ((← empty) :: done)
      else indentlessItems fuel ((← node true false fuel) :: done)
    | _ => return done.reverse

def blockEntries : Nat → List (Nat × Nat) → ReadM (List (Nat × Nat))
  | 0, _ => bad
  | fuel + 1, done => do
    match ← front with
    | some .key => do
      drop
      let k ← if endsBlockPart (← front) then empty else node true true fuel
      let v ← blockValue fuel
      blockEntries fuel ((k, v) :: done)
    | some .value => bad
    | some .blockEnd => do
      drop
      return done.reverse
    | _ => bad

def blockValue : Nat → ReadM Nat
  | 0 => bad
  | fuel + 1 => do
    match ← front with
    | some .value => do
      drop
      if endsBlockPart (← front) then empty else node true true fuel
    | _ => empty

def flowItems (first : Bool) : Nat → List Nat → ReadM (List Nat)
  | 0, _ => bad
  | fuel + 1, done => do
    let t ← front
    if t == some .flowSequenceEnd then
      drop
      return done.reverse
    if !first then
      if t != some .flowEntry then bad
      drop
    match ← front with
    | some .key => do
      drop
      let k ← if endsFlowPair (← front) then empty else node false false fuel
      let v ← flowPairValue fuel
      flowItems false fuel ((← add (.mapping (core "map") [(k, v)])) :: done)
    | some .flowSequenceEnd => do
      drop
      return done.reverse
    | _ => flowItems false fuel ((← node false false fuel) :: done)

def flowPairValue : Nat → ReadM Nat
  | 0 => bad
  | fuel + 1 => do
    match ← front with
    | some .value => do
      drop
      if endsFlowItem (← front) then empty else node false false fuel
    | _ => empty

def flowEntries (first : Bool) : Nat → List (Nat × Nat) → ReadM (List (Nat × Nat))
  | 0, _ => bad
  | fuel + 1, done => do
    let t ← front
    if t == some .flowMappingEnd then
      drop
      return done.reverse
    if !first then
      if t != some .flowEntry then bad
      drop
    match ← front with
    | some .key => do
      drop
      let k ← if endsFlowKey (← front) then empty else node false false fuel
      let v ← flowValue fuel
      flowEntries false fuel ((k, v) :: done)
    | some .flowMappingEnd => do
      drop
      return done.reverse
    | _ => do
      let k ← node false false fuel
      flowEntries false fuel ((k, ← empty) :: done)

def flowValue : Nat → ReadM Nat
  | 0 => bad
  | fuel + 1 => do
    match ← front with
    | some .value => do
      drop
      if endsFlowValue (← front) then empty else node false false fuel
    | _ => empty

end

/-- The directives in front of a document: only version 1, and each handle at most once. -/
def directives : Nat → Bool → List (String × String) → ReadM (List (String × String))
  | 0, _, _ => bad
  | fuel + 1, versioned, handles => do
    match ← front with
    | some (.version major) => do
      if versioned || major != 1 then bad
      drop
      directives fuel true handles
    | some (.tagHandle h meaning) => do
      if (handles.lookup h).isSome then bad
      drop
      directives fuel versioned ((h, meaning) :: handles)
    | some .directive => do
      drop
      directives fuel versioned handles
    | _ => return handles

def dropDocumentEnds : Nat → ReadM Unit
  | 0 => return
  | fuel + 1 => do
    if (← front) == some .documentEnd then
      drop
      dropDocumentEnds fuel

def isDirective : Option Token → Bool
  | some (.version _) => true
  | some (.tagHandle ..) => true
  | some .directive => true
  | _ => false

/-- The root node of a document that begins with the token `t`. -/
def root (fuel : Nat) (t : Option Token) : ReadM Nat := do
  let standard := [("!", "!"), ("!!", core "")]
  if isDirective t || t == some .documentStart then
    let handles ← directives fuel false []
    modify fun s => { s with handles := handles ++ standard }
    if (← front) != some .documentStart then bad
    drop
    let t ← front
    if isDirective t || t == some .documentStart || t == some .documentEnd || t.isNone then empty
    else node true false fuel
  else
    modify fun s => { s with handles := standard }
    node true false fuel

/-- Nothing may follow the document. -/
def checkEnd (fuel : Nat) : ReadM Unit := do
  dropDocumentEnds fuel
  if (← front).isSome then bad

/-- The root node of the only document, if there is one. -/
def document : ReadM (Option Nat) := do
  let fuel := 4 * (← get).tokens.length + 12
  let t ← front
  if t.isNone then return none
  let n ← root fuel t
  checkEnd fuel
  return some n

section Ends

variable {α β : Type} {after : Option Error} {s s' : Reading}

theorem bind_eq_ok {m : ReadM α} {f : α → ReadM β} {x : β}
    (run : (m >>= f) after s = .ok (x, s')) :
    ∃ a t, m after s = .ok (a, t) ∧ f a after t = .ok (x, s') := by
  obtain ⟨⟨a, t⟩, step, run⟩ := Error.bind_eq_ok_iff.1 run
  exact ⟨a, t, step, run⟩

/-- Without a next token the text is at its end. -/
theorem eq_none_of_front (run : front after s = .ok (none, s')) : after = none := by
  obtain ⟨u, t, got, run⟩ := bind_eq_ok run
  cases got
  cases after with
  | none => rfl
  | some e =>
    cases left : s.tokens <;> rw [left] at run <;> cases run

theorem eq_none_of_checkEnd {fuel : Nat} {u : Unit} (run : checkEnd fuel after s = .ok (u, s')) :
    after = none := by
  obtain ⟨_, t, -, run⟩ := bind_eq_ok run
  obtain ⟨token, t, last, run⟩ := bind_eq_ok run
  cases token with
  | none => exact eq_none_of_front last
  | some => cases run

/-- There is a document, or none, only in a text that has been read to its end. -/
theorem eq_none_of_document {n : Option Nat} (run : document after s = .ok (n, s')) :
    after = none := by
  obtain ⟨_, t, -, run⟩ := bind_eq_ok run
  obtain ⟨token, t, first, run⟩ := bind_eq_ok run
  cases token with
  | none => exact eq_none_of_front first
  | some token =>
    obtain ⟨n, t, -, run⟩ := bind_eq_ok run
    obtain ⟨_, t, last, -⟩ := bind_eq_ok run
    exact eq_none_of_checkEnd last

end Ends

end Reading

/-- The document that some tokens make, if they make one at all. -/
def Document.ofTokens (scanned : Scanned) : Except Error (Option Document) := do
  let (root, s) ← (Reading.document scanned.failure).run { tokens := scanned.tokens }
  return root.map fun root => { nodes := s.nodes, root, shared := s.shared }

theorem Document.eq_none_of_ofTokens {scanned : Scanned} {d : Option Document}
    (run : ofTokens scanned = .ok d) : scanned.failure = none := by
  obtain ⟨⟨root, s⟩, run, -⟩ := Error.bind_eq_ok_iff.1 run
  exact Reading.eq_none_of_document run

end Polyad.Yaml
