import Steward.OrderedMap
import Steward.Permission.Tree

/-!
# Holders of permissions

A holder has a tree of its own and inherits from others, the first before the later ones.  It may
keep a cache of what it found out by inheritance.  Holders, unions of groups and members are numbered
in one table, so that several can inherit from one.
-/

namespace Steward

/-- The key of a role among the groups. -/
inductive RoleKey where
  | number (value : Int)
  | text (value : String)
  | fraction (value : Binary64)
  deriving DecidableEq, Repr

/-- The key that a saved role stands for; equal numbers are one key.  Null is no role, and lists and
mappings can not be keys. -/
def RoleKey.ofValue : Value → Except Failure (Option RoleKey)
  | .null => .ok none
  | .bool value => .ok (some (.number (if value then 1 else 0)))
  | .int value => .ok (some (.number value))
  | .text value => .ok (some (.text value))
  | .float value =>
    .ok (some (if value.isIntegral then .number (value.truncate?.getD 0) else .fraction value))
  | _ => .error (.fault .wrongType "not a key")

/-- What a holder is. -/
inductive HolderKind where
  | bare
  | group (name : String)
  /-- A group for every member that has a role. -/
  | roleGroup (name : String) (role : Value)
  deriving Repr

structure Holder where
  kind : HolderKind
  tree : PermissionTree
  inherits : List Nat
  cache : Option PermissionTree
  deriving Repr

def Holder.new (kind : HolderKind) : Holder := ⟨kind, .root, [], none⟩

def Holder.name? (holder : Holder) : Option String :=
  match holder.kind with
  | .bare => none
  | .group name | .roleGroup name _ => some name

/-- Anything that permissions can be checked against. -/
inductive Permissible where
  | holder (holder : Holder)
  | union (groups : List Nat)
  /-- A member of a guild, with the groups of its roles once they are looked up. -/
  | member (account : Account) (groups : Option (List Nat))
  deriving Repr

structure PermissionStore where
  permissibles : List Permissible
  /-- The registered groups, in order. -/
  groups : List Nat
  groupsByName : OrderedMap String Nat
  groupsByRole : OrderedMap RoleKey Nat
  members : OrderedMap String Nat
  deriving Repr

namespace PermissionStore

def empty : PermissionStore := ⟨[], [], .empty, .empty, .empty⟩

def add (store : PermissionStore) (permissible : Permissible) : Nat × PermissionStore :=
  (store.permissibles.length, { store with permissibles := store.permissibles ++ [permissible] })

def get? (store : PermissionStore) (id : Nat) : Option Permissible := store.permissibles[id]?

def holder? (store : PermissionStore) (id : Nat) : Option Holder :=
  match store.get? id with
  | some (.holder holder) => some holder
  | _ => none

def set (store : PermissionStore) (id : Nat) (permissible : Permissible) : PermissionStore :=
  { store with permissibles := store.permissibles.set id permissible }

def updateHolder (store : PermissionStore) (id : Nat) (f : Holder → Holder) : PermissionStore :=
  match store.holder? id with
  | some holder => store.set id (.holder (f holder))
  | none => store

/-- Forget what was cached. -/
def invalidate (store : PermissionStore) (id : Nat) : PermissionStore :=
  match store.get? id with
  | some (.holder holder) =>
    store.set id (.holder { holder with cache := holder.cache.map PermissionTree.clear })
  | some (.member account _) => store.set id (.member account none)
  | _ => store

/-- The groups of a member's roles, which are kept until they are invalidated. -/
def memberGroups (store : PermissionStore) (id : Nat) : List Nat × PermissionStore :=
  match store.get? id with
  | some (.member _ (some groups)) => (groups, store)
  | some (.member account none) =>
    let groups := account.roles.filterMap fun role => store.groupsByRole.get? (.number role)
    (groups, store.set id (.member account (some groups)))
  | _ => ([], store)

/-- The first permit that is not open among some permissibles, asked in order. -/
def firstPermit (checkOne : Nat → PermissionStore → Except Failure Permit × PermissionStore) :
    List Nat → PermissionStore → Except Failure Permit × PermissionStore
  | [], store => (.ok .none, store)
  | id :: rest, store =>
    match checkOne id store with
    | (.ok .none, store) => firstPermit checkOne rest store
    | answer => answer

/-- Keep a permit that was found by inheritance. -/
def remember (store : PermissionStore) (id : Nat) (path : PermissionPath) (permit : Permit) :
    PermissionStore :=
  store.updateHolder id fun holder =>
    { holder with cache := holder.cache.map (PermissionTree.set permit path) }

/-- The permit for a path, open if nothing decides.  `depth` bounds the length of chains of
inheritance. -/
def permitWithin (path : PermissionPath) :
    Nat → Nat → PermissionStore → Except Failure Permit × PermissionStore
  | 0, _, store => (.error (.fault .tooDeep "inheritance goes in a circle"), store)
  | depth + 1, id, store =>
    match store.get? id with
    | none => (.ok .none, store)
    | some (.holder holder) =>
      let own := holder.tree.check .none path
      if own ≠ .none then (.ok own, store)
      else
        let cached := (holder.cache.map (PermissionTree.check .none path)).getD .none
        if cached ≠ .none then (.ok cached, store)
        else
          match firstPermit (permitWithin path depth) holder.inherits store with
          | (.ok .none, store) => (.ok .none, store)
          | (.ok permit, store) => (.ok permit, store.remember id path permit)
          | failed => failed
    | some (.union groups) => firstPermit (permitWithin path depth) groups store
    | some (.member ..) =>
      let (groups, store) := store.memberGroups id
      firstPermit (permitWithin path depth) groups store

/-- The permit of a permissible for a path, or the default. -/
def check (store : PermissionStore) (id : Nat) (path : PermissionPath) (fallback : Permit) :
    Except Failure Permit × PermissionStore :=
  let (answer, store) := permitWithin path (store.permissibles.length + 1) id store
  (answer.map (·.orElse fallback), store)

/-- Set a permit in a holder's own tree. -/
def setPermit (store : PermissionStore) (id : Nat) (path : PermissionPath) (permit : Permit) :
    PermissionStore :=
  (store.updateHolder id fun holder => { holder with tree := holder.tree.set permit path }).invalidate
    id

def addInherits (store : PermissionStore) (id inherited : Nat) : PermissionStore :=
  (store.updateHolder id fun holder =>
    { holder with inherits := holder.inherits ++ [inherited] }).invalidate id

/-- Stop inheriting from a permissible that is inherited from. -/
def removeInherits (store : PermissionStore) (id inherited : Nat) :
    Except Failure Unit × PermissionStore :=
  match store.holder? id with
  | some holder =>
    if holder.inherits.contains inherited then
      (.ok (), (store.updateHolder id fun holder =>
        { holder with inherits := holder.inherits.erase inherited }).invalidate id)
    else (.error (.fault .wrongValue "not inherited"), store)
  | none => (.error (.fault .missingAttribute "not a holder"), store)

/-- Switch a holder's cache on, empty, or off. -/
def setCaching (store : PermissionStore) (id : Nat) (enabled : Bool) : PermissionStore :=
  store.updateHolder id fun holder => { holder with cache := if enabled then some .root else none }

end PermissionStore

end Steward
