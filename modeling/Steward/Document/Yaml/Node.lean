import Steward.Document.Yaml.Tag
import Steward.Document.Yaml.Token.Lexer

/-!
# Nodes

A document is a tree of nodes: scalars, lists and mappings, each with its tag.  A node that an anchor
names may stand at several places; every node has a number of its own by which they can be told to be
the same.  Nodes are read from tokens, of which the next one always tells what follows.
-/

namespace Steward.Yaml

inductive Node where
  | scalar (identity : Nat) (tag : Tag) (text : String)
  | list (identity : Nat) (tag : Tag) (items : List Node)
  | map (identity : Nat) (tag : Tag) (entries : List (Node × Node))
  /-- A collection at a place inside of itself. -/
  | again (identity : Nat)
  deriving Repr, Inhabited

namespace Node

mutual

/-- How deep nodes lie in each other. -/
def depth : Node → Nat
  | .list _ _ items => depthOfItems items + 1
  | .map _ _ entries => depthOfEntries entries + 1
  | _ => 0

def depthOfItems : List Node → Nat
  | [] => 0
  | item :: rest => max (depth item) (depthOfItems rest)

def depthOfEntries : List (Node × Node) → Nat
  | [] => 0
  | (key, value) :: rest => max (max (depth key) (depth value)) (depthOfEntries rest)

end

end Node

/-! ## Reading nodes -/

/-- What is left of the tokens of a text, and what was found in it so far. -/
structure NodeReader where
  tokens : List Token
  /-- What is wrong behind the tokens. -/
  flaw : Option Flaw
  /-- What the handles of tags stand for. -/
  handles : List (String × String)
  /-- The nodes that have a name. -/
  anchors : List (String × Node)
  /-- The number for the next node. -/
  fresh : Nat

abbrev NodeReading := StateT NodeReader (Except Flaw)

namespace NodeReading

/-- The next token, if the text does not end. -/
def peek : NodeReading (Option Token) := do
  let reader ← get
  match reader.tokens, reader.flaw with
  | token :: _, _ => return some token
  | [], none => return none
  | [], some flaw => throw flaw

def skip : NodeReading Unit := modify fun reader => { reader with tokens := reader.tokens.tail }

/-- Whether the next token is one of some; the end of the text is none. -/
def isAt (tokens : List Token) : NodeReading Bool :=
  return (← peek).any tokens.contains

/-- Go past a token, if it is the next one. -/
def accept (token : Token) : NodeReading Bool := do
  if ← isAt [token] then
    skip
    return true
  else return false

/-- Go past a token, which has to be the next one. -/
def expect (token : Token) : NodeReading Unit := do
  unless ← accept token do
    throw .malformed

def newIdentity : NodeReading Nat :=
  modifyGet fun reader => (reader.fresh, { reader with fresh := reader.fresh + 1 })

/-- Give a node a name. -/
def nameNode (anchor : Option String) (node : Node) : NodeReading Unit :=
  match anchor with
  | none => return
  | some name =>
    modify fun reader =>
      { reader with anchors := (name, node) :: reader.anchors.filter (·.1 != name) }

/-- The full name of a tag. -/
def tagName (handle : Option String) (suffix : String) : NodeReading String := do
  match handle with
  | none => return suffix
  | some handle =>
    match (← get).handles.find? (·.1 == handle) with
    | some (_, long) => return long ++ suffix
    | none => throw .malformed

/-- What stands before a node: its name and its tag, in any order. -/
def properties : NodeReading (Option String × Option String) := do
  let anchor : NodeReading (Option String) := do
    match ← peek with
    | some (.anchor name) =>
      skip
      return some name
    | _ => return none
  let tag : NodeReading (Option (Option String × String)) := do
    match ← peek with
    | some (.tag handle suffix) =>
      skip
      return some (handle, suffix)
    | _ => return none
  let first ← anchor
  let written ← tag
  let name ← if first.isNone && written.isSome then anchor else pure first
  match written with
  | none => return (name, none)
  | some (handle, suffix) => return (name, some (← tagName handle suffix))

/-- A scalar that is left out. -/
def nothing : NodeReading Node := return .scalar (← newIdentity) .null ""

/-- The tag of a scalar, which its form tells if it is plain and bears none. -/
def scalarTag (name : Option String) (text : String) (isPlain : Bool) : Tag :=
  match name with
  | none => if isPlain then .ofPlain text.toList else .text
  | some "!" => .ofPlain text.toList
  | some name => .ofName name

/-- The tag of a collection, which is of the usual kind unless it bears another one. -/
def collectionTag (name : Option String) (usual : Tag) : Tag :=
  match name with
  | none | some "!" => usual
  | some name => .ofName name

/-- Where a node stands: in brackets, in a block, or in a block of which the items of a list need not
stand deeper. -/
inductive Place where
  | flow
  | block
  | blockOrItems
  deriving DecidableEq, Repr

mutual

/-- Read a node.  `fuel` bounds the number of steps. -/
def node : Nat → Place → NodeReading Node
  | 0, _ => throw .malformed
  | fuel + 1, place => do
    match ← peek with
    | some (.alias name) =>
      skip
      match (← get).anchors.find? (·.1 == name) with
      | some (_, found) => return found
      | none => throw .malformed
    | _ =>
      let (anchor, tag) ← properties
      let taken := (← get).anchors.map Prod.fst
      if anchor.any taken.contains then throw .malformed
      let inBlock := place != .flow
      let next ← peek
      let list (read : NodeReading (List Node)) : NodeReading Node := do
        let identity ← newIdentity
        nameNode anchor (.again identity)
        let found := Node.list identity (collectionTag tag .list) (← read)
        nameNode anchor found
        return found
      let map (read : NodeReading (List (Node × Node))) : NodeReading Node := do
        let identity ← newIdentity
        nameNode anchor (.again identity)
        let found := Node.map identity (collectionTag tag .map) (← read)
        nameNode anchor found
        return found
      let scalar (text : String) (isPlain : Bool) : NodeReading Node := do
        let found := Node.scalar (← newIdentity) (scalarTag tag text isPlain) text
        nameNode anchor found
        return found
      match next with
      | some (.scalar text isPlain) =>
        skip
        scalar text isPlain
      | some .flowListStart =>
        skip
        list (flowItems fuel true)
      | some .flowMapStart =>
        skip
        map (flowEntries fuel true)
      | some .item =>
        if place = .blockOrItems then list (looseItems fuel)
        else if anchor.isSome || tag.isSome then scalar "" true
        else throw .malformed
      | some .blockListStart =>
        if inBlock then
          skip
          list (blockItems fuel)
        else if anchor.isSome || tag.isSome then scalar "" true
        else throw .malformed
      | some .blockMapStart =>
        if inBlock then
          skip
          map (blockEntries fuel)
        else if anchor.isSome || tag.isSome then scalar "" true
        else throw .malformed
      | _ => if anchor.isSome || tag.isSome then scalar "" true else throw .malformed

/-- Read a node, unless one of some tokens comes next. -/
def nodeBefore : Nat → Place → List Token → NodeReading Node
  | 0, _, _ => throw .malformed
  | fuel + 1, place, stops => do if ← isAt stops then nothing else node fuel place

/-- Read the items of a block up to its end. -/
def blockItems : Nat → NodeReading (List Node)
  | 0 => throw .malformed
  | fuel + 1 => do
    if ← accept .item then
      let first ← nodeBefore fuel .block [.item, .blockEnd]
      return first :: (← blockItems fuel)
    else
      expect .blockEnd
      return []

/-- Read items that stand no deeper than the mapping around them. -/
def looseItems : Nat → NodeReading (List Node)
  | 0 => throw .malformed
  | fuel + 1 => do
    if ← accept .item then
      let first ← nodeBefore fuel .block [.item, .key, .value, .blockEnd]
      return first :: (← looseItems fuel)
    else return []

/-- Read the entries of a block up to its end. -/
def blockEntries : Nat → NodeReading (List (Node × Node))
  | 0 => throw .malformed
  | fuel + 1 => do
    if ← accept .key then
      let stops : List Token := [.key, .value, .blockEnd]
      let key ← nodeBefore fuel .blockOrItems stops
      let value ← if ← accept .value then nodeBefore fuel .blockOrItems stops else nothing
      return (key, value) :: (← blockEntries fuel)
    else
      expect .blockEnd
      return []

/-- Read the items of a list in brackets.  An item with a key is a mapping of one entry. -/
def flowItems : Nat → Bool → NodeReading (List Node)
  | 0, _ => throw .malformed
  | fuel + 1, isFirst => do
    if ← accept .flowListEnd then return []
    unless isFirst do
      expect .comma
    if ← accept .flowListEnd then return []
    let first ←
      if ← accept .key then do
        let identity ← newIdentity
        let key ← nodeBefore fuel .flow [.value, .comma, .flowListEnd]
        let value ←
          if ← accept .value then nodeBefore fuel .flow [.comma, .flowListEnd] else nothing
        pure (Node.map identity .map [(key, value)])
      else node fuel .flow
    return first :: (← flowItems fuel false)

/-- Read the entries of a mapping in brackets. -/
def flowEntries : Nat → Bool → NodeReading (List (Node × Node))
  | 0, _ => throw .malformed
  | fuel + 1, isFirst => do
    if ← accept .flowMapEnd then return []
    unless isFirst do
      expect .comma
    if ← accept .flowMapEnd then return []
    let entry ←
      if ← accept .key then do
        let key ← nodeBefore fuel .flow [.value, .comma, .flowMapEnd]
        let value ← if ← accept .value then nodeBefore fuel .flow [.comma, .flowMapEnd] else nothing
        pure (key, value)
      else do
        let key ← node fuel .flow
        pure (key, ← nothing)
    return entry :: (← flowEntries fuel false)

end

/-! ## Documents -/

/-- Read the directives before a document. -/
def directives : Nat → Bool → List (String × String) → NodeReading (List (String × String))
  | 0, _, _ => throw .malformed
  | fuel + 1, versioned, handles => do
    match ← peek with
    | some (.directive directive) =>
      skip
      match directive with
      | .version major => if versioned || major != 1 then throw .malformed else directives fuel true handles
      | .handle handle long =>
        if handles.any (·.1 == handle) then throw .malformed
        else directives fuel versioned (handles ++ [(handle, long)])
      | .other _ => directives fuel versioned handles
    | _ => return handles

/-- What the handles of tags stand for where no directive says it. -/
def usualHandles : List (String × String) := [("!", "!"), ("!!", Tag.family)]

/-- Go past marks for the end of a document. -/
def skipEnds : Nat → NodeReading Unit
  | 0 => return
  | fuel + 1 => do
    if ← accept .documentEnd then skipEnds fuel

/-- Whether a directive or the mark for the beginning of a document comes next. -/
def atPreamble : NodeReading Bool := do
  match ← peek with
  | some (.directive _) | some .documentStart => return true
  | _ => return false

/-- Read the only document of a text, if there is one. -/
def document (fuel : Nat) : NodeReading (Option Node) := do
  let root ←
    if (← peek).isNone then pure none
    else if ← atPreamble then do
      let handles ← directives fuel false []
      expect .documentStart
      modify fun reader => { reader with handles := handles ++ usualHandles }
      match ← peek with
      | none | some (.directive _) | some .documentStart | some .documentEnd => pure (some (← nothing))
      | some _ => pure (some (← node fuel .block))
    else pure (some (← node fuel .block))
  skipEnds fuel
  if (← peek).isSome then throw .malformed
  return root

end NodeReading

/-- Read the only document of a text, if there is one.  Nodes are numbered from a first number on; the
answer also holds the number after the last. -/
def Node.ofText (text : List Char) (first : Nat) : Except Flaw (Option Node × Nat) := do
  let (tokens, flaw) := Token.ofText text
  let (root, reader) ←
    (NodeReading.document (4 * tokens.length + 8)).run
      ⟨tokens, flaw, NodeReading.usualHandles, [], first⟩
  return (root, reader.fresh)

end Steward.Yaml
