import Steward.OrderedMap
import Steward.Parse.Parser

/-!
# Command trees

A command is a tree of literal nodes, matched by their exact text, and argument nodes, which read a
value.  Every node can bring flags, assertions and an executor.  Callbacks are known by their
names, of a type `F`.
-/

namespace Steward

/-- Where a default value comes from. -/
inductive Supplier (F : Type) where
  | constant (value : Value)
  | custom (name : F)
  deriving Repr

/-- A modifier that a node brings for itself and its descendants.  A flag with a parser takes a
value, one without is true when it is given. -/
structure Flag (F : Type) where
  name : String
  aliases : List String
  parser : Option (Parser F)
  fallback : Option (Supplier F)
  deriving Repr

/-- A condition for entering a node. -/
inductive Assertion (F : Type) where
  /-- Every path is allowed for the invoking member. -/
  | permissions (paths : List String)
  /-- The platform grants every permission in the channel. -/
  | platform (names : List String)
  | custom (name : F)
  deriving Repr

inductive NodeKind (F : Type) where
  | literal
  | argument (parser : Parser F)
  deriving Repr

/-- What a node is apart from its children. -/
structure NodeHead (F : Type) where
  name : String
  kind : NodeKind F
  /-- The text before the name of a command, if it has its own. -/
  lead : Option String
  aliases : List String
  optional : Bool
  fallback : Option (Supplier F)
  flags : List (Flag F)
  assertions : List (Assertion F)
  executor : Option F
  labels : List (String × Value)
  deriving Repr

inductive Node (F : Type) where
  | node (head : NodeHead F) (children : List (Node F))
  deriving Repr

namespace Node

variable {F : Type}

def head : Node F → NodeHead F
  | .node head _ => head

def children : Node F → List (Node F)
  | .node _ children => children

def name (node : Node F) : String := node.head.name

def isLiteral (node : Node F) : Bool :=
  match node.head.kind with
  | .literal => true
  | .argument _ => false

/-- Whether a token selects the node. -/
def isSelectedBy (token : String) (node : Node F) : Bool :=
  node.isLiteral && (token == node.head.name || node.head.aliases.contains token)

/-- The first child that reads a value. -/
def argumentChild? (node : Node F) : Option (Node F) := node.children.find? (!·.isLiteral)

/-- How a node is shown. -/
def form (node : Node F) : String :=
  let kind := if node.isLiteral then "literal" else "argument"
  s!"CommandNode({kind} {Quoted.quote node.name}, children={node.children.length})"

end Node

end Steward
