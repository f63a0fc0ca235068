import Steward.Permission.Tree

/-!
# Shared permission nodes

Nodes that are put together by hand keep their identity: a node may stand below several others, and
a change of it shows wherever it stands.  A forest is the table of such nodes; a tree is what can be
seen from one of them.
-/

namespace Steward

/-- A node of a forest; the children are listed by their names. -/
structure ForestNode where
  name : Option String
  permit : Permit
  children : List (Option String × Nat)
  deriving DecidableEq, Repr

structure Forest where
  nodes : List ForestNode

namespace Forest

def get (forest : Forest) (id : Nat) : ForestNode := forest.nodes.getD id ⟨none, .none, []⟩

def update (forest : Forest) (id : Nat) (f : ForestNode → ForestNode) : Forest :=
  ⟨forest.nodes.modify id f⟩

/-- Add a node that has no children. -/
def add (forest : Forest) (name : Option String) (permit : Permit) : Nat × Forest :=
  (forest.nodes.length, ⟨forest.nodes ++ [⟨name, permit, []⟩]⟩)

def putChild (name : Option String) (child : Nat) :
    List (Option String × Nat) → List (Option String × Nat)
  | [] => [(name, child)]
  | (other, old) :: rest =>
    if other = name then (name, child) :: rest else (other, old) :: putChild name child rest

/-- Put a node below another one, in the place of a child of the same name. -/
def attach (forest : Forest) (parent child : Nat) : Forest :=
  forest.update parent fun node =>
    { node with children := putChild (forest.get child).name child node.children }

def child? (forest : Forest) (id : Nat) (segment : String) : Option Nat :=
  ((forest.get id).children.find? (·.1 == some segment)).map Prod.snd

/-- Set the permit at the end of a path from a node; the answer begins with the node there. -/
def set (permit : Permit) : PermissionPath → Nat → Forest → Nat × Forest
  | [], id, forest => (id, forest.update id fun node => { node with permit := permit })
  | segment :: rest, id, forest =>
    if PermissionPath.isStay segment then set permit rest id forest
    else
      match forest.child? id segment with
      | some child => set permit rest child forest
      | none =>
        let (child, grown) := forest.add (some segment) .none
        set permit rest child (grown.attach id child)

def check (forest : Forest) (fallback : Permit) : PermissionPath → Nat → Permit
  | [], id => (forest.get id).permit.orElse fallback
  | segment :: rest, id =>
    let result := (forest.get id).permit.orElse fallback
    if PermissionPath.isStay segment then forest.check result rest id
    else
      match forest.child? id segment with
      | none => result
      | some child => forest.check result rest child

def clear (forest : Forest) (id : Nat) : Forest :=
  forest.update id fun node => ⟨node.name, .none, []⟩

/-- What can be seen from a node down to a depth; nothing if the nodes go deeper. -/
def tree? (forest : Forest) : Nat → Nat → Option PermissionTree
  | 0, _ => none
  | depth + 1, id => do
    let node := forest.get id
    let children ← node.children.mapM fun (_, child) => forest.tree? depth child
    return .node node.name node.permit children

/-- The tree below a node, unless a node stands below itself. -/
def tree (forest : Forest) (id : Nat) : Except Failure PermissionTree :=
  (forest.tree? (forest.nodes.length + 1) id).elim
    (.error (.fault .tooDeep "a node stands below itself")) .ok

/-- Set the permits of saved entries below a node, up to the first that is at fault. -/
def unflatten (id : Nat) : List Value → Forest → Except Failure Unit × Forest
  | [], forest => (.ok (), forest)
  | entry :: rest, forest =>
    match PermissionTree.savedEntry entry with
    | .error failure => (.error failure, forest)
    | .ok (path, permit) => unflatten id rest (forest.set permit path id).2

end Forest

end Steward
