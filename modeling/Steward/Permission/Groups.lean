import Steward.Permission.Holder

/-!
# Groups and members

Groups are registered under their names, groups for roles under their roles too; a member's
permissions are those of the groups of its roles.  Groups are saved as a document and restored from
it, entry by entry.
-/

namespace Steward

namespace PermissionStore

def addGroup (store : PermissionStore) (name : String) : Nat × PermissionStore :=
  store.add (.holder (.new (.group name)))

def addRoleGroup (store : PermissionStore) (name : String) (role : Value) : Nat × PermissionStore :=
  store.add (.holder (.new (.roleGroup name role)))

def roleOf (store : PermissionStore) (id : Nat) : Option Value :=
  match store.holder? id with
  | some ⟨.roleGroup _ role, _, _, _⟩ => some role
  | _ => none

def nameOf (store : PermissionStore) (id : Nat) : String :=
  ((store.holder? id).bind Holder.name?).getD ""

/-- Remove a group from the list, which it must be on, and its role from the index. -/
def unlist (store : PermissionStore) (id : Nat) : Except Failure Unit × PermissionStore :=
  if !store.groups.contains id then (.error (.fault .wrongValue "not listed"), store)
  else
    let store := { store with groups := store.groups.erase id }
    match store.roleOf id with
    | none => (.ok (), store)
    | some role =>
      match RoleKey.ofValue role with
      | .error failure => (.error failure, store)
      | .ok none => (.ok (), store)
      | .ok (some key) => (.ok (), { store with groupsByRole := store.groupsByRole.erase key })

/-- Forget the groups of all members. -/
def invalidateMembers (store : PermissionStore) : PermissionStore :=
  store.members.values.foldl invalidate store

/-- List a group under its name and role. -/
def list (store : PermissionStore) (id : Nat) : Except Failure Unit × PermissionStore :=
  let listed := { store with
    groups := store.groups ++ [id]
    groupsByName := store.groupsByName.insert (store.nameOf id) id }
  match RoleKey.ofValue ((listed.roleOf id).getD .null) with
  | .error failure => (.error failure, listed)
  | .ok none => (.ok (), listed.invalidateMembers)
  | .ok (some key) =>
    (.ok (), { listed with groupsByRole := listed.groupsByRole.insert key id }.invalidateMembers)

/-- Register a group in the place of any group of its name. -/
def register (store : PermissionStore) (id : Nat) : Except Failure Unit × PermissionStore :=
  match store.groupsByName.get? (store.nameOf id) with
  | none => store.list id
  | some old =>
    match store.unlist old with
    | (.error failure, store) => (.error failure, store)
    | (.ok _, store) => store.list id

/-- The permissible of a guild member, made when it is first asked for. -/
def forMember (store : PermissionStore) (account : Account) : Except Failure Nat × PermissionStore :=
  match account.memberKey with
  | none => (.error (.fault .missingAttribute "not a member of a guild"), store)
  | some key =>
    match store.members.get? key with
    | some id => (.ok id, store)
    | none =>
      let (id, store) := store.add (.member account none)
      (.ok id, { store with members := store.members.insert key id })

/-- Take over a member as it is now, and forget its groups. -/
def invalidateMember (store : PermissionStore) (account : Account) :
    Except Failure Unit × PermissionStore :=
  match account.memberKey with
  | none => (.error (.fault .missingAttribute "not a member of a guild"), store)
  | some key =>
    match store.members.get? key with
    | some id => (.ok (), store.set id (.member account none))
    | none => (.ok (), store)

/-- The first of some paths that a member is not allowed. -/
def lackingFrom (id : Nat) : List String → PermissionStore →
    Except Failure (Option String) × PermissionStore
  | [], store => (.ok none, store)
  | path :: rest, store =>
    match store.check id (PermissionPath.ofText path) .deny with
    | (.error failure, store) => (.error failure, store)
    | (.ok .allow, store) => lackingFrom id rest store
    | (.ok _, store) => (.ok (some path), store)

def lacking (store : PermissionStore) (account : Account) (paths : List String) :
    Except Failure (Option String) × PermissionStore :=
  match store.forMember account with
  | (.error failure, store) => (.error failure, store)
  | (.ok id, store) => lackingFrom id paths store

/-- The fields that a holder is saved as. -/
def savedFields (holder : Holder) : List (String × Value) :=
  ("permissions", .list holder.tree.flatten) ::
    (match holder.kind with
      | .roleGroup _ role => [("roleId", role)]
      | _ => [])

/-- The document of all registered groups. -/
def save (store : PermissionStore) : Value :=
  let groups := store.groups.filterMap fun id =>
    (store.holder? id).map fun holder =>
      Value.map (("name", .text (store.nameOf id)) :: savedFields holder)
  .map [("groups", .list groups)]

/-- The items of a saved list. -/
def itemsOf (data : Value) : Except Failure (List Value) :=
  data.members?.elim (.error (.fault .wrongType "not a list")) .ok

/-- The value under a key of a saved mapping, or a default. -/
def savedField (data : Value) (key : String) (fallback : Value) : Except Failure Value :=
  match data with
  | .map _ => .ok ((data.get? key).getD fallback)
  | _ => .error (.fault .missingAttribute "not a mapping")

/-- Restore a holder's permissions, and the role of a group for a role. -/
def load (store : PermissionStore) (id : Nat) (data : Value) : Except Failure Unit × PermissionStore :=
  match savedField data "permissions" (.list []) >>= itemsOf with
  | .error failure => (.error failure, store)
  | .ok entries =>
    match store.holder? id with
    | none => (.error (.fault .missingAttribute "not a holder"), store)
    | some holder =>
      match PermissionTree.unflatten entries holder.tree with
      | (.error failure, tree) => (.error failure, store.updateHolder id ({ · with tree := tree }))
      | (.ok _, tree) =>
        let kind := match holder.kind with
          | .roleGroup name _ => .roleGroup name (data.getD "roleId")
          | kind => kind
        (.ok (), (store.updateHolder id ({ · with tree := tree, kind := kind })).invalidate id)

/-- The name of a saved group. -/
def savedName (data : Value) : Except Failure String :=
  match data.get? "name" with
  | none => .error (.fault .missingKey "name")
  | some (.list _) | some (.map _) => .error (.fault .wrongType "not a key")
  | some name => .ok name.shown

/-- Restore one saved group. -/
def loadGroup (store : PermissionStore) (data : Value) : Except Failure Unit × PermissionStore :=
  match savedField data "roleId" .null, savedName data with
  | .error failure, _ | _, .error failure => (.error failure, store)
  | .ok role, .ok name =>
    let (id, store) := if role.isNull then store.addGroup name else store.addRoleGroup name role
    match store.load id data with
    | (.error failure, store) => (.error failure, store)
    | (.ok _, store) => store.register id

def loadGroups : List Value → PermissionStore → Except Failure Unit × PermissionStore
  | [], store => (.ok (), store)
  | data :: rest, store =>
    match store.loadGroup data with
    | (.error failure, store) => (.error failure, store)
    | (.ok _, store) => loadGroups rest store

/-- Restore the groups of a document, up to the first that is at fault.  Nothing is in a document
that counts as false. -/
def loadAll (store : PermissionStore) (document : Value) : Except Failure Unit × PermissionStore :=
  if !document.isTruthy then (.ok (), store)
  else
    match savedField document "groups" (.list []) >>= itemsOf with
    | .error failure => (.error failure, store)
    | .ok groups => loadGroups groups store

end PermissionStore

end Steward
