import HostLookup.Yaml.Token

/-!
# YAML documents

A document is a tree of scalars, sequences and mappings. An alias is a number
that stands for the node anchored under it; an anchor's number is how many
different names were anchored before, and of two nodes with one number the one
that starts later counts.
-/

namespace HostLookup.Yaml

inductive Node where
  | scalar (style : Style) (tag : Option Bytes) (text : List Char)
  | sequence (tag : Option Bytes) (items : List Node)
  | mapping (tag : Option Bytes) (pairs : List (Node × Node))
  | alias (number : Nat)
  deriving Repr

def Node.empty : Node := .scalar .plain none []

/-- A node with its anchor number and its place among the anchored nodes. -/
structure Anchored where
  number : Nat
  place : Nat
  node : Node
  deriving Repr

structure Document where
  root : Node
  anchored : List Anchored
  deriving Repr

structure Progress where
  tokens : List Token
  handles : List (Bytes × Bytes)
  names : List (List Char × Nat) := []
  places : Nat := 0
  anchored : List Anchored := []

abbrev Reading := StateT Progress Option

namespace Reading

def peek : Reading (Option Token) := do return (← get).tokens.head?

def skip : Reading Unit := modify fun p => { p with tokens := p.tokens.drop 1 }

def fail {α : Type} : Reading α := fun _ => none

def expect (t : Token) : Reading Unit := do if (← peek) == some t then skip else fail

def at? (ts : List Token) : Reading Bool := do
  match ← peek with
  | some t => return ts.contains t
  | none => return false

/-- An anchor and a tag, in either order. -/
def properties : Reading (Option (List Char) × Option (Bytes × Bytes)) := do
  match ← peek with
  | some (.anchor name) =>
    skip
    match ← peek with
    | some (.tag handle suffix) => skip; return (some name, some (handle, suffix))
    | _ => return (some name, none)
  | some (.tag handle suffix) =>
    skip
    match ← peek with
    | some (.anchor name) => skip; return (some name, some (handle, suffix))
    | _ => return (none, some (handle, suffix))
  | _ => return (none, none)

/-- The full tag of a handle and a suffix; the handle must be known. -/
def fullTag : Option (Bytes × Bytes) → Reading (Option Bytes)
  | none => return none
  | some (handle, suffix) => do
    if handle.isEmpty then return some suffix
    match (← get).handles.lookup handle with
    | some start => return some (start ++ suffix)
    | none => fail

/-- Numbers an anchor name; its node has the number and a place. -/
def anchor (name : List Char) : Reading (Nat × Nat) := do
  let p ← get
  let number := p.names.length
  set { p with
    names := (name, number) :: p.names.filter (·.1 != name)
    places := p.places + 1 }
  return (number, p.places)

def aliasNumber (name : List Char) : Reading Nat := do
  match (← get).names.lookup name with
  | some number => return number
  | none => fail

def keep (number : Option (Nat × Nat)) (node : Node) : Reading Node := do
  match number with
  | some (number, place) =>
    modify fun p => { p with anchored := ⟨number, place, node⟩ :: p.anchored }
    return node
  | none => return node

/-! ## Nodes

A node may be a block where `block` says so, and a sequence that is not indented
where `bare` does.
-/

mutual

def node (block bare : Bool) : Nat → Reading Node
  | 0 => fail
  | fuel + 1 => do
    match ← peek with
    | some (.alias name) =>
      skip
      return .alias (← aliasNumber name)
    | _ =>
      let (name, tag) ← properties
      let tag ← fullTag tag
      let number ← name.mapM anchor
      match ← peek with
      | some (.scalar style text) =>
        skip
        keep number (.scalar style tag text)
      | some .flowSequenceStart =>
        skip
        keep number (.sequence tag (← flowItems true fuel))
      | some .flowMappingStart =>
        skip
        keep number (.mapping tag (← flowPairs true fuel))
      | some .blockEntry =>
        if bare then keep number (.sequence tag (← bareItems fuel))
        else if name.isSome || tag.isSome then keep number (.scalar .plain tag [])
        else fail
      | some .blockSequenceStart =>
        if block then
          skip
          keep number (.sequence tag (← blockItems fuel))
        else if name.isSome || tag.isSome then keep number (.scalar .plain tag [])
        else fail
      | some .blockMappingStart =>
        if block then
          skip
          keep number (.mapping tag (← blockPairs fuel))
        else if name.isSome || tag.isSome then keep number (.scalar .plain tag [])
        else fail
      | _ => if name.isSome || tag.isSome then keep number (.scalar .plain tag []) else fail

/-- A node, or an empty one before any of these tokens. -/
def nodeUnless (ends : List Token) (block bare : Bool) : Nat → Reading Node
  | 0 => fail
  | fuel + 1 => do if ← at? ends then return .empty else node block bare fuel

def blockItems : Nat → Reading (List Node)
  | 0 => fail
  | fuel + 1 => do
    if ← at? [.blockEnd] then skip; return []
    expect .blockEntry
    let item ← nodeUnless [.blockEntry, .blockEnd] true false fuel
    return item :: (← blockItems fuel)

def bareItems : Nat → Reading (List Node)
  | 0 => fail
  | fuel + 1 => do
    if !(← at? [.blockEntry]) then return []
    skip
    let item ← nodeUnless [.blockEntry, .key, .value, .blockEnd] true false fuel
    return item :: (← bareItems fuel)

def blockPairs : Nat → Reading (List (Node × Node))
  | 0 => fail
  | fuel + 1 => do
    if ← at? [.blockEnd] then skip; return []
    expect .key
    let ends : List Token := [.key, .value, .blockEnd]
    let key ← nodeUnless ends true true fuel
    let value ← if ← at? [.value] then skip; nodeUnless ends true true fuel else pure .empty
    return (key, value) :: (← blockPairs fuel)

def flowItems (first : Bool) : Nat → Reading (List Node)
  | 0 => fail
  | fuel + 1 => do
    if ← at? [.flowSequenceEnd] then skip; return []
    if !first then expect .flowEntry
    if ← at? [.flowSequenceEnd] then skip; return []
    let item ←
      if ← at? [.key] then
        skip
        let key ←
          if ← at? [.value, .flowEntry, .flowSequenceEnd] then skip; pure .empty
          else node false false fuel
        let value ←
          if ← at? [.value] then
            skip
            nodeUnless [.flowEntry, .flowSequenceEnd] false false fuel
          else pure .empty
        pure (Node.mapping none [(key, value)])
      else node false false fuel
    return item :: (← flowItems false fuel)

def flowPairs (first : Bool) : Nat → Reading (List (Node × Node))
  | 0 => fail
  | fuel + 1 => do
    if ← at? [.flowMappingEnd] then skip; return []
    if !first then expect .flowEntry
    if ← at? [.flowMappingEnd] then skip; return []
    let pair ←
      if ← at? [.key] then
        skip
        let key ← nodeUnless [.value, .flowEntry, .flowMappingEnd] false false fuel
        let value ←
          if ← at? [.value] then
            skip
            nodeUnless [.flowEntry, .flowMappingEnd] false false fuel
          else pure .empty
        pure (key, value)
      else
        let key ← node false false fuel
        pure (key, .empty)
    return pair :: (← flowPairs false fuel)

end

/-! ## Documents -/

/-- Enough for any nesting of that many tokens. -/
def fuelOf (tokens : List Token) : Nat := 4 * tokens.length + 8

/-- The directives before a document; each may stand once. -/
def directives : Nat → Bool → Reading Unit
  | 0, _ => fail
  | fuel + 1, versioned => do
    match ← peek with
    | some (.version major minor) =>
      if versioned || major != 1 || (minor != 1 && minor != 2) then fail
      skip
      directives fuel true
    | some (.tagHandle handle start) =>
      if (← get).handles.any (·.1 == handle) then fail
      skip
      modify fun p => { p with handles := (handle, start) :: p.handles }
      directives fuel versioned
    | _ => return ()

def defaultHandles : List (Bytes × Bytes) :=
  [(ascii "!", ascii "!"), (ascii "!!", ascii "tag:yaml.org,2002:")]

def isDirective : Token → Bool
  | .version .. => true
  | .tagHandle .. => true
  | _ => false

/-- The root of the first document, with the default handles behind those of its directives. -/
def root (fuel : Nat) : Reading Node := do
  match ← peek with
  | none => return .empty
  | some t =>
    let withDefaults : Reading Unit :=
      modify fun p => { p with handles := p.handles ++ defaultHandles }
    if isDirective t || t == .documentStart then
      directives fuel false
      withDefaults
      expect .documentStart
      match ← peek with
      | none => return .empty
      | some t =>
        if isDirective t || t == .documentStart || t == .documentEnd then return .empty
        else node true false fuel
    else
      withDefaults
      node true false fuel

end Reading

def Document.ofText? (text : List Char) : Option Document := do
  let tokens ← Token.listOfText? text
  let (root, p) ← (Reading.root (Reading.fuelOf tokens)).run { tokens, handles := [] }
  if p.tokens.all (· == .documentEnd) then some ⟨root, p.anchored⟩ else none

namespace Document

def anchored? (d : Document) (number : Nat) : Option Node :=
  let candidates := d.anchored.filter (·.number == number)
  let latest := candidates.foldl (fun n a => max n a.place) 0
  (candidates.find? (·.place == latest)).map (·.node)

def resolve (d : Document) : Node → Node
  | .alias number => (d.anchored? number).getD .empty
  | n => n

end Document

end HostLookup.Yaml
