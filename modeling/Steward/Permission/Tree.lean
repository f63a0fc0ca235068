import Steward.Failure
import Steward.Value

/-!
# Permission trees

A path such as `admin.roles.give` leads from the root of a tree to a node; the segment `*` stays
where it is.  A permit holds for everything below its node unless a deeper node says otherwise, so
the deepest permit on the way decides.
-/

namespace Steward

inductive Permit where
  | none
  | allow
  | deny
  deriving DecidableEq, Repr

namespace Permit

def toInt : Permit → Int
  | .none => 0
  | .allow => 1
  | .deny => -1

def name : Permit → String
  | .none => "NONE"
  | .allow => "ALLOW"
  | .deny => "DENY"

/-- The permit that a number stands for, whatever kind of number it is. -/
def ofValue? (value : Value) : Option Permit :=
  [Permit.none, .allow, .deny].find? fun permit => value.same (.int permit.toInt)

/-- The permit, or another one where it leaves things open. -/
def orElse (permit other : Permit) : Permit := if permit = .none then other else permit

end Permit

abbrev PermissionPath := List String

namespace PermissionPath

/-- The segments of a path written with points. -/
def ofText (text : String) : PermissionPath := (text.toList.splitOn '.').map String.ofList

/-- Whether a segment stays at the node. -/
def isStay (segment : String) : Bool := segment == "*"

end PermissionPath

inductive PermissionTree where
  | node (name : Option String) (permit : Permit) (children : List PermissionTree)
  deriving Repr

namespace PermissionTree

def name : PermissionTree → Option String
  | .node name _ _ => name

def permit : PermissionTree → Permit
  | .node _ permit _ => permit

def children : PermissionTree → List PermissionTree
  | .node _ _ children => children

/-- A node without a permit and children. -/
def leaf (name : Option String) : PermissionTree := .node name .none []

/-- The empty tree. -/
def root : PermissionTree := leaf none

def withPermit (permit : Permit) : PermissionTree → PermissionTree
  | .node name _ children => .node name permit children

def clear : PermissionTree → PermissionTree
  | .node name _ _ => .node name .none []

/-- The child of a name among some nodes. -/
def child? (segment : String) : List PermissionTree → Option PermissionTree
  | [] => none
  | child :: rest => if child.name = some segment then some child else child? segment rest

/-- Change the child of a name, which is added at the end if there is none. -/
def updateChild (segment : String) (update : PermissionTree → PermissionTree) :
    List PermissionTree → List PermissionTree
  | [] => [update (leaf (some segment))]
  | child :: rest =>
    if child.name = some segment then update child :: rest
    else child :: updateChild segment update rest

/-- Set the permit at the end of a path, adding nodes on the way as needed. -/
def set (permit : Permit) : PermissionPath → PermissionTree → PermissionTree
  | [], tree => tree.withPermit permit
  | segment :: rest, .node name own children =>
    if PermissionPath.isStay segment then set permit rest (.node name own children)
    else .node name own (updateChild segment (set permit rest) children)

/-- The deepest permit on the way along a path, as far as the tree goes; the default if there is
none. -/
def check (fallback : Permit) : PermissionPath → PermissionTree → Permit
  | [], tree => tree.permit.orElse fallback
  | segment :: rest, .node name own children =>
    if PermissionPath.isStay segment then check (own.orElse fallback) rest (.node name own children)
    else
      match child? segment children with
      | none => own.orElse fallback
      | some child => check (own.orElse fallback) rest child

def entry (path : String) (permit : Permit) : Value :=
  .map [("name", .text path), ("permit", .int permit.toInt)]

mutual

/-- The permits of a tree whose node is reached by a path, each with its own path. -/
def flattenAt (path : String) : PermissionTree → List Value
  | .node _ permit children =>
    (if permit = .none then [] else [entry path permit]) ++ flattenAll path children

def flattenAll (path : String) : List PermissionTree → List Value
  | [] => []
  | child :: rest => flattenAt (path ++ "." ++ child.name.getD "None") child ++ flattenAll path rest

end

/-- The permits of a tree, each with its path from the root. -/
def flatten (tree : PermissionTree) : List Value := flattenAt "*" tree

/-- The segments that a saved path names.  Segments are texts; a path with any other is refused. -/
def savedPath : Value → Except Failure PermissionPath
  | .text path => .ok (PermissionPath.ofText path)
  | path =>
    match path.members?.bind fun segments => segments.mapM Value.text? with
    | some segments => .ok segments
    | none => .error (.fault .wrongType "a path is a text or a list of texts")

/-- The field of a saved entry. -/
def savedField (entry : Value) (field : String) : Except Failure Value :=
  match entry with
  | .map _ => (entry.get? field).elim (.error (.fault .missingKey field)) .ok
  | _ => .error (.fault .wrongType "an entry is a mapping")

/-- The path and permit of a saved entry. -/
def savedEntry (entry : Value) : Except Failure (PermissionPath × Permit) := do
  let path ← savedField entry "name"
  let number ← savedField entry "permit"
  match Permit.ofValue? number with
  | none => .error (.fault .wrongValue "not a permit")
  | some permit => return (← savedPath path, permit)

/-- Set the permits of saved entries in order, up to the first that is at fault. -/
def unflatten : List Value → PermissionTree → Except Failure Unit × PermissionTree
  | [], tree => (.ok (), tree)
  | entry :: rest, tree =>
    match savedEntry entry with
    | .error failure => (.error failure, tree)
    | .ok (path, permit) => unflatten rest (set permit path tree)

end PermissionTree

end Steward
