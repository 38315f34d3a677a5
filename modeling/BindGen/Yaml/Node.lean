import BindGen.Yaml.Implicit
import BindGen.Yaml.Token

/-!
# Nodes of YAML

What the tokens of a document write: scalars, sequences and mappings with their tags. Nodes are
numbered, and those with parts give the numbers of their parts, so that an alias stands for the very
node with its anchor. A node may be a part of itself.
-/

namespace BindGen.Yaml

/-- What stands at a node. -/
inductive NodeContent where
  | scalar (text : List Char)
  | sequence (items : List Nat)
  | mapping (entries : List (Nat × Nat))

/-- A node. -/
structure Node where
  tag : String
  content : NodeContent

/-- The nodes of a document by their numbers, with the outermost one. -/
structure NodeGraph where
  nodes : Array Node
  root : Nat
  /-- whether a node stands in several places -/
  aliased : Bool

/-- The tokens of a document that are still to be read, with what is known of those before. -/
structure NodeReader where
  rest : TokenStream
  nodes : Array Node
  anchors : List (String × Nat)
  aliased : Bool
  /-- what the handles of tags stand for -/
  handles : List (String × String)
  /-- how many more sequences and mappings may start inside the open ones -/
  room : Nat

/-- A step of reading nodes. -/
abbrev NodeStep (α : Type) := StateT NodeReader (Except ReadProblem) α

namespace NodeReader

/-- The handles that every document knows. -/
def defaultHandles : List (String × String) := [("!", "!"), ("!!", standardTag "")]

/-- Ends the composition, since no document is like this. -/
def fail {α : Type} : NodeStep α := throw .malformed

/-- The next token, which stays. -/
def peek : NodeStep (Option Token) := do
  let stream := (← get).rest
  match stream.tokens, stream.problem with
  | t :: _, _ => return some t
  | [], some e => throw e
  | [], none => return none

/-- Leaves the next token behind. -/
def skip : NodeStep Unit :=
  modify fun r => { r with rest := { r.rest with tokens := r.rest.tokens.tail } }

/-- Leaves a token behind, if it is the next one. -/
def skipIf (t : Token) : NodeStep Bool := do
  if (← peek) = some t then
    skip
    return true
  return false

/-- Leaves a token behind, which has to be the next one. -/
def expect (t : Token) : NodeStep Unit := do
  if !(← skipIf t) then fail

/-- Whether one of the tokens is next. -/
def isNext (ts : List Token) : NodeStep Bool := do
  return match ← peek with
    | some t => ts.contains t
    | none => false

/-- Adds a node, and gives its number. -/
def add (n : Node) : NodeStep Nat := do
  let r ← get
  set { r with nodes := r.nodes.push n }
  return r.nodes.size

/-- Sets what stands at a node. -/
def setContent (number : Nat) (content : NodeContent) : NodeStep Unit :=
  modify fun r =>
    { r with nodes := r.nodes.modify number fun n => { n with content } }

/-- Adds the node of nothing. -/
def emptyNode : NodeStep Nat := add ⟨standardTag "null", .scalar []⟩

/-- What stands in front of a node: an anchor and a tag. -/
structure Properties where
  anchor : Option String
  tag : Option String

/-- The tag that a handle and a text make up. -/
def fullTag (handle : Option String) (text : String) : NodeStep String := do
  match handle with
  | none => return text
  | some h =>
    match (← get).handles.lookup h with
    | some stem => return stem ++ text
    | none => fail

/-- Reads an anchor, if one is next. -/
def anchor? : NodeStep (Option String) := do
  match ← peek with
  | some (.anchor name) =>
    skip
    return some name
  | _ => return none

/-- Reads a tag, if one is next. -/
def tag? : NodeStep (Option (Option String × String)) := do
  match ← peek with
  | some (.tag handle text) =>
    skip
    return some (handle, text)
  | _ => return none

/-- Reads the properties of a node, in either order. -/
def properties : NodeStep Properties := do
  let first ← anchor?
  let tag ← tag?
  let anchor ← if first.isSome then pure first else if tag.isSome then anchor? else pure none
  match tag with
  | some (handle, text) => return ⟨anchor, some (← fullTag handle text)⟩
  | none => return ⟨anchor, none⟩

/-- Whether a tag leaves the kind of value open. -/
def isOpen (tag : Option String) : Bool := tag == none || tag == some "!"

/-- The tag of a collection. -/
def collectionTag (p : Properties) (name : String) : String :=
  if isOpen p.tag then standardTag name else p.tag.getD ""

/-- The tag of a scalar. -/
def scalarTag (p : Properties) (text : List Char) (plain : Bool) : String :=
  match p.tag with
  | none => if plain then implicitTag text else standardTag "str"
  | some "!" => implicitTag text
  | some t => t

/-- Adds a node and notes it under its anchor, which has to be a new one. -/
def named (p : Properties) (n : Node) : NodeStep Nat := do
  match p.anchor with
  | none => add n
  | some name =>
    if ((← get).anchors.lookup name).isSome then fail
    let number ← add n
    modify fun r => { r with anchors := (name, number) :: r.anchors }
    return number

/-- Reads the parts of a collection, which may be nested only so deep. -/
def inside {α : Type} (parts : NodeStep α) : NodeStep α := do
  let room := (← get).room
  if room = 0 then throw (.fault .endless)
  modify fun r => { r with room := room - 1 }
  let a ← parts
  modify fun r => { r with room }
  return a

/-- Adds a sequence, and then reads its items. -/
def sequenceOf (p : Properties) (items : NodeStep (List Nat)) : NodeStep Nat := do
  let number ← named p ⟨collectionTag p "seq", .sequence []⟩
  setContent number (.sequence (← inside items))
  return number

/-- Adds a mapping, and then reads its entries. -/
def mappingOf (p : Properties) (entries : NodeStep (List (Nat × Nat))) : NodeStep Nat := do
  let number ← named p ⟨collectionTag p "map", .mapping []⟩
  setContent number (.mapping (← inside entries))
  return number

/-- The node that an alias stands for. -/
def nodeUnder (name : String) : NodeStep Nat := do
  match (← get).anchors.lookup name with
  | some number =>
    modify fun r => { r with aliased := true }
    return number
  | none => fail

/-- Where a node stands: whether block collections may start, and whether entries at the indentation
of the parent do. -/
inductive Place where
  | flow
  | block
  | blockOrEntries
deriving DecidableEq

mutual

/-- Reads a node. The fuel bounds the number of steps. -/
def node : Nat → Place → NodeStep Nat
  | 0, _ => fail
  | fuel + 1, place => do
    match ← peek with
    | some (.alias name) =>
      skip
      nodeUnder name
    | _ =>
      let p ← properties
      match ← peek with
      | some .blockEntry =>
        if place != .blockOrEntries then emptyWith p
        else sequenceOf p (looseEntries fuel)
      | some (.scalar text plain) =>
        skip
        named p ⟨scalarTag p text plain, .scalar text⟩
      | some .flowSequenceStart =>
        skip
        sequenceOf p (flowItems fuel true)
      | some .flowMappingStart =>
        skip
        mappingOf p (flowEntries fuel true)
      | some .blockSequenceStart =>
        if place = .flow then emptyWith p
        else
          skip
          sequenceOf p (blockItems fuel)
      | some .blockMappingStart =>
        if place = .flow then emptyWith p
        else
          skip
          mappingOf p (blockEntries fuel)
      | _ => emptyWith p

/-- The empty scalar that properties by themselves stand for. -/
def emptyWith (p : Properties) : NodeStep Nat :=
  if p.anchor.isNone && p.tag.isNone then fail
  else named p ⟨scalarTag p [] true, .scalar []⟩

/-- Reads a node, or nothing if one of the tokens is next. -/
def nodeUnless : Nat → List Token → Place → NodeStep Nat
  | 0, _, _ => fail
  | fuel + 1, ends, place => do
    if ← isNext ends then emptyNode else node fuel place

/-- Reads the entries of a block sequence up to its end. -/
def blockItems : Nat → NodeStep (List Nat)
  | 0 => fail
  | fuel + 1 => do
    if ← skipIf .blockEntry then
      let item ← nodeUnless fuel [.blockEntry, .blockEnd] .block
      return item :: (← blockItems fuel)
    expect .blockEnd
    return []

/-- Reads the entries of a sequence that is not indented more than its parent. -/
def looseEntries : Nat → NodeStep (List Nat)
  | 0 => fail
  | fuel + 1 => do
    if ← skipIf .blockEntry then
      let item ← nodeUnless fuel [.blockEntry, .key, .value, .blockEnd] .block
      return item :: (← looseEntries fuel)
    return []

/-- Reads the entries of a block mapping up to its end. -/
def blockEntries : Nat → NodeStep (List (Nat × Nat))
  | 0 => fail
  | fuel + 1 => do
    if ← skipIf .key then
      let ends := [Token.key, .value, .blockEnd]
      let k ← nodeUnless fuel ends .blockOrEntries
      let hasValue ← skipIf .value
      let v ← if hasValue then nodeUnless fuel ends .blockOrEntries else emptyNode
      return (k, v) :: (← blockEntries fuel)
    expect .blockEnd
    return []

/-- Reads the items of a flow sequence up to its end; all but the first follow a comma. -/
def flowItems : Nat → Bool → NodeStep (List Nat)
  | 0, _ => fail
  | fuel + 1, first => do
    if ← skipIf .flowSequenceEnd then return []
    if !first then expect .flowEntry
    if ← skipIf .flowSequenceEnd then return []
    if ← skipIf .key then
      let item ← mappingOf ⟨none, none⟩ do
        let k ← nodeUnless fuel [.value, .flowEntry, .flowSequenceEnd] .flow
        let hasValue ← skipIf .value
        let v ←
          if hasValue then nodeUnless fuel [.flowEntry, .flowSequenceEnd] .flow else emptyNode
        return [(k, v)]
      return item :: (← flowItems fuel false)
    let item ← node fuel .flow
    return item :: (← flowItems fuel false)

/-- Reads the entries of a flow mapping up to its end; all but the first follow a comma. -/
def flowEntries : Nat → Bool → NodeStep (List (Nat × Nat))
  | 0, _ => fail
  | fuel + 1, first => do
    if ← skipIf .flowMappingEnd then return []
    if !first then expect .flowEntry
    if ← skipIf .flowMappingEnd then return []
    if ← skipIf .key then
      let k ← nodeUnless fuel [.value, .flowEntry, .flowMappingEnd] .flow
      let hasValue ← skipIf .value
      let v ←
        if hasValue then nodeUnless fuel [.flowEntry, .flowMappingEnd] .flow else emptyNode
      return (k, v) :: (← flowEntries fuel false)
    let k ← node fuel .flow
    return (k, ← emptyNode) :: (← flowEntries fuel false)

end

/-- Reads the directives in front of a document: whether there are any. -/
def directives : Nat → Bool → List String → NodeStep Bool
  | 0, _, _ => fail
  | fuel + 1, versioned, handles => do
    match ← peek with
    | some (.directive (.version major _)) =>
      if versioned || major != 1 then fail
      skip
      let _ ← directives fuel true handles
      return true
    | some (.directive (.tag handle stem)) =>
      if handles.contains handle then fail
      skip
      modify fun r => { r with handles := (handle, stem) :: r.handles }
      let _ ← directives fuel versioned (handle :: handles)
      return true
    | some (.directive .other) =>
      skip
      let _ ← directives fuel versioned handles
      return true
    | _ => return false

/-- Leaves the ends of documents behind. -/
def skipEnds : Nat → NodeStep Unit
  | 0 => return
  | fuel + 1 => do
    if ← skipIf .documentEnd then skipEnds fuel

/-- Whether a token starts another document. -/
def startsDocument : Token → Bool
  | .directive _ | .documentStart => true
  | _ => false

/-- Reads the one document of a text, or nothing if there is none. -/
def document (fuel : Nat) : NodeStep (Option Nat) := do
  let implicit : Bool := match ← peek with
    | some t => !startsDocument t
    | none => false
  if implicit then
    let n ← node fuel .block
    finish
    return some n
  skipEnds fuel
  if (← peek).isNone then return none
  let _ ← directives fuel false []
  expect .documentStart
  let hasContent : Bool := match ← peek with
    | some t => !(startsDocument t || t == .documentEnd)
    | none => false
  let n ← if hasContent then node fuel .block else emptyNode
  finish
  return some n
where
  /-- Nothing but ends of documents may follow. -/
  finish : NodeStep Unit := do
    skipEnds fuel
    if (← peek).isSome then fail

end NodeReader

/-- How many sequences and mappings may stand in each other. -/
def deepest : Nat := 488

/-- The nodes of the one document of a text, or nothing. -/
def NodeGraph.ofText? (s : List Char) : Except ReadProblem (Option NodeGraph) := do
  let ts := tokens s
  let reader : NodeReader := ⟨ts, #[], [], false, NodeReader.defaultHandles, deepest⟩
  let (root, after) ← (NodeReader.document (4 * ts.tokens.length + 8)).run reader
  return root.map fun root => ⟨after.nodes, root, after.aliased⟩

end BindGen.Yaml
