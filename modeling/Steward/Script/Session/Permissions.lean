import Steward.OrderedMap
import Steward.Permission.Forest
import Steward.Permission.Groups
import Steward.Script.Document
import Steward.Text.Quoted

/-!
# Scripts of permissions

A session with permission nodes, holders, groups and members, all known by names, and with the
document that the groups are saved to.  Each step of a session answers a value or fails.
-/

namespace Steward.Scripting

/-- What a name stands for in a session. -/
inductive Subject where
  | node (id : Nat)
  | permissible (id : Nat)
  /-- A group that was asked for and is not registered. -/
  | missing
  deriving DecidableEq, Repr

structure PermissionSession where
  names : OrderedMap String Subject
  forest : Forest
  store : PermissionStore
  /-- What the groups were last saved to, and how often. -/
  document : Value
  saves : Nat

/-- What a step of a session does. -/
abbrev PermissionStep := PermissionSession → Except Failure Value × PermissionSession

namespace PermissionSession

def start (document : Value) : PermissionSession := ⟨.empty, ⟨[]⟩, .empty, document, 0⟩

def unfit : Failure := .fault .missingAttribute "not for this kind"

def bind (name : String) (subject : Subject) (session : PermissionSession) : PermissionSession :=
  { session with names := session.names.insert name subject }

/-- Use what a name stands for. -/
def withSubject (name : String) (f : Subject → PermissionStep) : PermissionStep := fun session =>
  match session.names.get? name with
  | some subject => f subject session
  | none => (.error (.fault .missingKey name), session)

def withNode (name : String) (f : Nat → PermissionStep) : PermissionStep :=
  withSubject name fun
    | .node id => f id
    | _ => fun session => (.error unfit, session)

def withPermissible (name : String) (f : Nat → PermissionStep) : PermissionStep :=
  withSubject name fun
    | .permissible id => f id
    | _ => fun session => (.error unfit, session)

/-- Use a holder of permissions. -/
def withHolder (name : String) (f : Nat → Holder → PermissionStep) : PermissionStep :=
  withPermissible name fun id session =>
    match session.store.holder? id with
    | some holder => f id holder session
    | none => (.error unfit, session)

/-- Use the permissibles of some names, in order. -/
def withPermissibles : List String → (List Nat → PermissionStep) → PermissionStep
  | [], f => f []
  | name :: rest, f => withPermissible name fun id => withPermissibles rest fun ids => f (id :: ids)

/-- A step that answers nothing and can not fail. -/
def quietly (f : PermissionSession → PermissionSession) : PermissionStep := fun session =>
  (.ok .null, f session)

/-- A change of the groups and members that may fail. -/
def onStore (f : PermissionStore → Except Failure Unit × PermissionStore) : PermissionStep :=
  fun session =>
    let (outcome, store) := f session.store
    (outcome.map fun _ => .null, { session with store := store })

/-- Name a new node. -/
def newNode (key : String) (name : Option String) (permit : Permit) : PermissionStep :=
  quietly fun session =>
    let (id, forest) := session.forest.add name permit
    { session with forest := forest }.bind key (.node id)

/-- Name a new permissible. -/
def newPermissible (key : String) (add : PermissionStore → Nat × PermissionStore) :
    PermissionStep :=
  quietly fun session =>
    let (id, store) := add session.store
    { session with store := store }.bind key (.permissible id)

end PermissionSession

mutual

/-- A tree as a value: its name, its permit and its children. -/
def treeValue : PermissionTree → Value
  | .node name permit children =>
    .list [name.elim .null .text, .text permit.name, .list (treeValues children)]

def treeValues : List PermissionTree → List Value
  | [] => []
  | child :: rest => treeValue child :: treeValues rest

end

def pathOf : Value → PermissionPath
  | .list segments => segments.map Value.shown
  | path => .ofText path.shown

/-- The permit of a number, or else the failure of what is none. -/
def permitOf (number : Value) : Except Failure Permit :=
  (Permit.ofValue? number).elim (.error (.fault .wrongValue "not a permit")) .ok

/-- How a node is shown. -/
def nodeForm (node : ForestNode) : String :=
  let name := node.name.elim "None" Quoted.quote
  s!"PermissionNode({name}, {node.permit.name}, children={node.children.length})"

/-- How a group is shown. -/
def groupForm (holder : Holder) : String :=
  match holder.kind with
  | .roleGroup name _ => s!"RoleBasedPermissionGroup({Quoted.quote name})"
  | .group name => s!"PermissionGroup({Quoted.quote name})"
  | .bare => "PermissionObject"

def namesOf (store : PermissionStore) (groups : List Nat) : Value :=
  .list (groups.map fun id => .text (store.nameOf id))

def roleKeyValue : RoleKey → Value
  | .number value => .int value
  | .text value => .text value
  | .fraction value => .float value

/-- What is registered: the groups, their names and roles, and the members. -/
def registered (store : PermissionStore) : Value :=
  let byRole := store.groupsByRole.entries.map fun (role, id) =>
    Value.list [roleKeyValue role, .text (store.nameOf id)]
  .map [("groups", namesOf store store.groups),
    ("by_name", .list (store.groupsByName.keys.map .text)),
    ("by_role", .list byRole),
    ("members", .list (store.members.keys.map .text))]

open PermissionSession

/-- Set a permit below a node, and answer the node there, or in a holder. -/
def setStep (name : String) (path : PermissionPath) (permit : Permit) : PermissionStep :=
  withSubject name fun
    | .node id => fun session =>
      let (last, forest) := session.forest.set permit path id
      ((forest.tree last).map treeValue, { session with forest := forest })
    | .permissible _ => withHolder name fun id _ => quietly fun session =>
      { session with store := session.store.setPermit id path permit }
    | .missing => fun session => (.error unfit, session)

def checkStep (name : String) (path : PermissionPath) (fallback : Permit) : PermissionStep :=
  withSubject name fun
    | .node id => fun session => (.ok (.text (session.forest.check fallback path id).name), session)
    | .permissible id => fun session =>
      let (outcome, store) := session.store.check id path fallback
      (outcome.map fun permit => .text permit.name, { session with store := store })
    | .missing => fun session => (.error unfit, session)

/-- The tree of a node, or a holder's own. -/
def treeStep (name : String) : PermissionStep :=
  withSubject name fun
    | .node id => fun session => ((session.forest.tree id).map treeValue, session)
    | _ => withHolder name fun _ holder session => (.ok (treeValue holder.tree), session)

def formStep (name : String) : PermissionStep :=
  withSubject name fun
    | .node id => fun session => (.ok (.text (nodeForm (session.forest.get id))), session)
    | .missing => fun session => (.ok (.text "None"), session)
    | .permissible _ => withHolder name fun _ holder session =>
      (.ok (.text (groupForm holder)), session)

/-- The groups of a union or a member. -/
def groupsStep (name : String) : PermissionStep :=
  withPermissible name fun id session =>
    match session.store.get? id with
    | some (.union groups) => (.ok (namesOf session.store groups), session)
    | some (.member ..) =>
      let (groups, store) := session.store.memberGroups id
      (.ok (namesOf store groups), { session with store := store })
    | _ => (.error unfit, session)

def saveAll : PermissionStep := fun session =>
  let session :=
    { session with document := session.store.save, saves := session.saves + 1 }
  (.ok (.list [.int session.saves, session.document]), session)

/-- A step about one name. -/
def namedStep (word name : String) (arguments : List Value) : PermissionStep :=
  let argument (place : Nat) : Value := arguments.getD place .null
  let orElse (place : Nat) (fallback : Permit) : Except Failure Permit :=
    (arguments[place]?).elim (.ok fallback) permitOf
  let permitted (permit : Except Failure Permit) (f : Permit → PermissionStep) : PermissionStep :=
    match permit with
    | .ok permit => f permit
    | .error failure => fun session => (.error failure, session)
  match word with
  | "node" => newNode name (argument 0).text? .none
  | "allow" => newNode name (argument 0).text? .allow
  | "deny" => newNode name (argument 0).text? .deny
  | "permit" => permitted (permitOf (argument 1)) (newNode name (argument 0).text?)
  | "then" => withNode name fun parent => withNode (argument 0).shown fun child =>
      quietly fun session => { session with forest := session.forest.attach parent child }
  | "set" => permitted (permitOf (argument 1)) (setStep name (pathOf (argument 0)))
  | "check" => permitted (orElse 1 .deny) (checkStep name (pathOf (argument 0)))
  | "flatten" => withNode name fun id session =>
      ((session.forest.tree id).map fun tree => .list tree.flatten, session)
  | "unflatten" => withNode name fun id session =>
      let (outcome, forest) := session.forest.unflatten id ((argument 0).list?.getD [])
      (outcome.map fun _ => .null, { session with forest := forest })
  | "clear" => withNode name fun id =>
      quietly fun session => { session with forest := session.forest.clear id }
  | "tree" => treeStep name
  | "cache_tree" => withHolder name fun _ holder session =>
      (.ok (holder.cache.elim .null treeValue), session)
  | "repr" => formStep name
  | "group" => newPermissible name (·.addGroup (argument 0).shown)
  | "role_group" => newPermissible name (·.addRoleGroup (argument 0).shown (argument 1))
  | "holder" => newPermissible name (·.add (.holder (.new .bare)))
  | "groups" => withPermissibles (textsOf arguments) fun groups =>
      newPermissible name (·.add (.union groups))
  | "inherit" => withHolder name fun id _ => withPermissible (argument 0).shown fun inherited =>
      quietly fun session => { session with store := session.store.addInherits id inherited }
  | "uninherit" => withHolder name fun id _ => withPermissible (argument 0).shown fun inherited =>
      onStore (·.removeInherits id inherited)
  | "caching" => withHolder name fun id _ =>
      quietly fun session =>
        { session with store := session.store.setCaching id (argument 0).isTruthy }
  | "invalidate" => withPermissible name fun id =>
      quietly fun session => { session with store := session.store.invalidate id }
  | "save" => withHolder name fun _ holder session =>
      (.ok (.map (PermissionStore.savedFields holder)), session)
  | "load" => withHolder name fun id _ => onStore (·.load id (argument 0))
  | "register" => withHolder name fun id _ => onStore (·.register id)
  | "bind_group" => quietly fun session =>
      let found := session.store.groupsByName.get? (argument 0).shown
      session.bind name (found.elim .missing .permissible)
  | "member" => fun session =>
      match session.store.forMember (memberOf (argument 0)) with
      | (.error failure, store) => (.error failure, { session with store := store })
      | (.ok id, store) => (.ok .null, { session with store := store }.bind name (.permissible id))
  | "member_groups" => groupsStep name
  | "same" => withSubject name fun left => withSubject (argument 0).shown fun right session =>
      (.ok (.bool (left = right)), session)
  | _ => fun session => (.error (.fault .wrongValue "not a step"), session)

/-- Run a step of a session. -/
def permissionStep : List Value → PermissionStep
  | [.text "mgr_load"] => fun session => onStore (·.loadAll session.document) session
  | [.text "mgr_save"] => saveAll
  | [.text "mgr"] => fun session => (.ok (registered session.store), session)
  | [.text "get_group", name] => fun session =>
    let found := (session.store.groupsByName.get? name.shown).bind session.store.holder?
    (.ok (found.elim .null fun holder => .text (groupForm holder)), session)
  | [.text "invalidate_member", member] => onStore (·.invalidateMember (memberOf member))
  | .text word :: name :: arguments => namedStep word name.shown arguments
  | _ => fun session => (.error (.fault .wrongValue "not a step"), session)

/-- Run the steps of a session in order; a step that fails does not end it. -/
def runPermissions : List Value → PermissionSession → List (Except Failure Value)
  | [], _ => []
  | step :: rest, session =>
    let (answer, session) := permissionStep (step.list?.getD []) session
    answer :: runPermissions rest session

end Steward.Scripting
