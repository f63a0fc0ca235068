import Steward.Proofs.OrderedMap
import Steward.Proofs.Permission.Calls

/-!
# Registering groups

A group is registered in the place of the group of its name.  The one that it displaces leaves the
list and the index of roles, the new one goes to the end of the list and into both indexes, and all
members forget their groups.

`register_cases` says all that this can come to.  Two things can go wrong.  The displaced group may
not be removable, and then nothing but the list may have changed.  Or the role of the new group may
be no key, and then the list and the indexes have changed already while no member has forgotten its
groups.
-/

namespace Steward

/-- A permissible without what it remembers. -/
def Permissible.bare : Permissible → Permissible
  | .holder own => .holder { own with cache := none }
  | .union groups => .union groups
  | .member account _ => .member account none

namespace HolderKind

def name? : HolderKind → Option String
  | .bare => none
  | .group name | .roleGroup name _ => some name

def role? : HolderKind → Option Value
  | .roleGroup _ role => some role
  | _ => none

end HolderKind

namespace PermissionStore

variable {store before after : PermissionStore} {id : Nat}

/-! ## What does not depend on what is remembered -/

/-- The permissibles of a store without what they remember. -/
def table (store : PermissionStore) : List Permissible := store.permissibles.map Permissible.bare

/-- Everything of a store but its permissibles. -/
def index (store : PermissionStore) : PermissionStore := { store with permissibles := [] }

def kind? (store : PermissionStore) (id : Nat) : Option HolderKind :=
  (store.holder? id).map Holder.kind

theorem table_getElem? (store : PermissionStore) (id : Nat) :
    store.table[id]? = (store.get? id).map Permissible.bare := by
  exact List.getElem?_map ..

theorem nameOf_eq (store : PermissionStore) (id : Nat) :
    store.nameOf id = ((store.kind? id).bind HolderKind.name?).getD "" := by
  rw [nameOf, kind?]
  cases store.holder? id with
  | none =>
      rfl
  | some holder =>
      rcases holder with ⟨_ | _ | _, _, _, _⟩ <;> rfl

theorem roleOf_eq (store : PermissionStore) (id : Nat) :
    store.roleOf id = (store.kind? id).bind HolderKind.role? := by
  rw [roleOf, kind?]
  cases store.holder? id with
  | none =>
      rfl
  | some holder =>
      rcases holder with ⟨_ | _ | _, _, _, _⟩ <;> rfl

theorem kind?_eq (store : PermissionStore) (id : Nat) :
    store.kind? id = store.table[id]?.bind fun
      | .holder holder => some holder.kind
      | _ => none := by
  rw [table_getElem?, kind?, holder?]
  rcases store.get? id with _ | _ | _ | _ <;> rfl

theorem kind?_congr (same : after.table = before.table) (id : Nat) :
    after.kind? id = before.kind? id := by
  rw [kind?_eq, kind?_eq, same]

theorem nameOf_congr (same : after.table = before.table) (id : Nat) :
    after.nameOf id = before.nameOf id := by
  rw [nameOf_eq, nameOf_eq, kind?_congr same]

theorem roleOf_congr (same : after.table = before.table) (id : Nat) :
    after.roleOf id = before.roleOf id := by
  rw [roleOf_eq, roleOf_eq, kind?_congr same]

/-- To change what a permissible remembers does not change the table. -/
theorem table_set {old new : Permissible} (found : store.get? id = some old)
    (same : new.bare = old.bare) : (store.set id new).table = store.table := by
  apply List.ext_getElem?
  intro other
  rw [table_getElem?, table_getElem?]
  by_cases isIt : other = id
  · subst isIt
    rw [get?_set_self found, found, Option.map_some, Option.map_some, same]
  · rw [get?, set, List.getElem?_set_ne (Ne.symm isIt), get?]

/-! ## Forgetting -/

@[simp]
theorem table_invalidate (store : PermissionStore) (id : Nat) :
    (store.invalidate id).table = store.table := by
  rw [invalidate]
  split
  · rename_i holder found
    exact table_set found rfl
  · rename_i account groups found
    exact table_set found rfl
  · rfl

@[simp]
theorem index_invalidate (store : PermissionStore) (id : Nat) :
    (store.invalidate id).index = store.index := by
  rw [invalidate]
  split <;> rfl

theorem get?_invalidate_of_ne {other : Nat} (differ : other ≠ id) :
    (store.invalidate id).get? other = store.get? other := by
  rw [invalidate]
  split
  · exact List.getElem?_set_ne (Ne.symm differ)
  · exact List.getElem?_set_ne (Ne.symm differ)
  · rfl

/-- A member that has been told to forget its groups has none. -/
theorem get?_invalidate_member {account : Account} {groups : Option (List Nat)}
    (found : store.get? id = some (.member account groups)) :
    (store.invalidate id).get? id = some (.member account none) := by
  rw [invalidate, found]
  exact get?_set_self found _

theorem table_foldl_invalidate (ids : List Nat) (store : PermissionStore) :
    (ids.foldl invalidate store).table = store.table := by
  induction ids generalizing store with
  | nil =>
      rfl
  | cons id rest ih =>
      rw [List.foldl_cons, ih, table_invalidate]

theorem index_foldl_invalidate (ids : List Nat) (store : PermissionStore) :
    (ids.foldl invalidate store).index = store.index := by
  induction ids generalizing store with
  | nil =>
      rfl
  | cons id rest ih =>
      rw [List.foldl_cons, ih, index_invalidate]

theorem get?_foldl_invalidate {ids : List Nat} {account : Account} {groups : Option (List Nat)}
    (found : store.get? id = some (.member account groups)) :
    (ids.foldl invalidate store).get? id =
      some (.member account (if id ∈ ids then none else groups)) := by
  induction ids generalizing store groups with
  | nil =>
      exact found
  | cons first rest ih =>
      rw [List.foldl_cons]
      by_cases isIt : id = first
      · subst isIt
        rw [ih (get?_invalidate_member found)]
        simp
      · rw [ih ((get?_invalidate_of_ne isIt).trans found)]
        simp [isIt]

@[simp]
theorem table_invalidateMembers (store : PermissionStore) :
    store.invalidateMembers.table = store.table := by
  exact table_foldl_invalidate ..

@[simp]
theorem index_invalidateMembers (store : PermissionStore) :
    store.invalidateMembers.index = store.index := by
  exact index_foldl_invalidate ..

/-! ## What registering comes to -/

/-- The key of a group in the index of roles. -/
def roleKey? (store : PermissionStore) (id : Nat) : Option RoleKey :=
  match RoleKey.ofValue ((store.roleOf id).getD .null) with
  | .ok key => key
  | .error _ => none

theorem roleKey?_congr (same : after.table = before.table) (id : Nat) :
    after.roleKey? id = before.roleKey? id := by
  rw [roleKey?, roleKey?, roleOf_congr same]

/-- The role of a group is a key, or it has none. -/
def IsKeyed (store : PermissionStore) (id : Nat) : Prop :=
  RoleKey.ofValue ((store.roleOf id).getD .null) = .ok (store.roleKey? id)

theorem isKeyed_of_ok {key : Option RoleKey}
    (isKey : RoleKey.ofValue ((store.roleOf id).getD .null) = .ok key) : store.IsKeyed id := by
  rw [IsKeyed, roleKey?, isKey]

theorem IsKeyed.congr (keyed : before.IsKeyed id) (same : after.table = before.table) :
    after.IsKeyed id := by
  rw [IsKeyed, roleOf_congr same, roleKey?_congr same]
  exact keyed

/-- The group whose place a group takes when it is registered. -/
def displaced? (store : PermissionStore) (id : Nat) : Option Nat :=
  store.groupsByName.get? (store.nameOf id)

/-- The groups that stay on the list when a group is registered. -/
def spared (store : PermissionStore) (id : Nat) : List Nat :=
  (store.displaced? id).elim store.groups store.groups.erase

/-- The index of roles without the role of the group that is displaced. -/
def freed (store : PermissionStore) (id : Nat) : OrderedMap RoleKey Nat :=
  ((store.displaced? id).bind store.roleKey?).elim store.groupsByRole store.groupsByRole.erase

theorem get?_freed (store : PermissionStore) (id : Nat) (key : RoleKey) :
    (store.freed id).get? key =
      if (store.displaced? id).bind store.roleKey? = some key then none
      else store.groupsByRole.get? key := by
  rw [freed]
  cases (store.displaced? id).bind store.roleKey? with
  | none =>
      simp
  | some old =>
      rw [Option.elim_some, OrderedMap.get?_erase]
      simp

/-- A store in which a group has taken its place on the list and in the index of names. -/
def seated (store : PermissionStore) (id : Nat) (roles : OrderedMap RoleKey Nat) :
    PermissionStore :=
  { store with
    groups := store.spared id ++ [id]
    groupsByName := store.groupsByName.insert (store.nameOf id) id
    groupsByRole := roles }

/-- The index of roles with a group that is registered. -/
def indexed (store : PermissionStore) (id : Nat) : OrderedMap RoleKey Nat :=
  (store.roleKey? id).elim (store.freed id) fun key => (store.freed id).insert key id

theorem list_cases (store : PermissionStore) (id : Nat) :
    (∃ failure, RoleKey.ofValue ((store.roleOf id).getD .null) = .error failure ∧
      store.list id = (.error failure, { store with
        groups := store.groups ++ [id]
        groupsByName := store.groupsByName.insert (store.nameOf id) id })) ∨
    store.IsKeyed id ∧ store.list id = (.ok (), { store with
      groups := store.groups ++ [id]
      groupsByName := store.groupsByName.insert (store.nameOf id) id
      groupsByRole := (store.roleKey? id).elim store.groupsByRole fun key =>
        store.groupsByRole.insert key id }.invalidateMembers) := by
  let listed := { store with
    groups := store.groups ++ [id]
    groupsByName := store.groupsByName.insert (store.nameOf id) id }
  have sameRole : listed.roleOf id = store.roleOf id := rfl
  rcases isKey : RoleKey.ofValue ((store.roleOf id).getD .null) with failure | key
  · left
    refine ⟨failure, rfl, ?_⟩
    rw [list, sameRole, isKey]
  · right
    have keyed := isKeyed_of_ok isKey
    refine ⟨keyed, ?_⟩
    rw [IsKeyed, isKey, Except.ok.injEq] at keyed
    rw [list, sameRole, isKey, ← keyed]
    cases key <;> rfl

theorem unlist_cases (store : PermissionStore) (old : Nat) :
    (∃ failure groups, store.unlist old = (.error failure, { store with groups := groups }) ∧
      ¬ (old ∈ store.groups ∧ store.IsKeyed old)) ∨
    old ∈ store.groups ∧ store.unlist old = (.ok (), { store with
      groups := store.groups.erase old
      groupsByRole := (store.roleKey? old).elim store.groupsByRole store.groupsByRole.erase }) := by
  by_cases listed : old ∈ store.groups
  · have sameRole : { store with groups := store.groups.erase old }.roleOf old =
        store.roleOf old := rfl
    rw [unlist, if_neg (by simp [listed])]
    dsimp only
    rw [sameRole, roleKey?]
    cases hasRole : store.roleOf old with
    | none =>
        exact .inr ⟨listed, rfl⟩
    | some role =>
        dsimp only
        rcases isKey : RoleKey.ofValue role with failure | _ | key
        · refine .inl ⟨failure, _, rfl, ?_⟩
          rintro ⟨-, keyed⟩
          rw [IsKeyed, hasRole, Option.getD_some, isKey] at keyed
          cases keyed
        · rw [Option.getD_some, isKey]
          exact .inr ⟨listed, rfl⟩
        · rw [Option.getD_some, isKey]
          exact .inr ⟨listed, rfl⟩
  · have refused : store.unlist old = (.error (.fault .wrongValue "not listed"), store) := by
      rw [unlist, if_pos (by simp [listed])]
    exact .inl ⟨_, store.groups, refused, fun both => listed both.1⟩

/-- All that registering a group can come to: it fails and only the list may have changed, it fails
when the group has been listed already, or it goes well. -/
theorem register_cases (store : PermissionStore) (id : Nat) :
    (∃ failure groups old, store.register id = (.error failure, { store with groups := groups }) ∧
      store.displaced? id = some old ∧ ¬ (old ∈ store.groups ∧ store.IsKeyed old)) ∨
    (∃ failure, RoleKey.ofValue ((store.roleOf id).getD .null) = .error failure ∧
      store.register id = (.error failure, store.seated id (store.freed id)) ∧
      ∀ old, store.displaced? id = some old → old ∈ store.groups) ∨
    store.IsKeyed id ∧
      store.register id = (.ok (), (store.seated id (store.indexed id)).invalidateMembers) := by
  rw [register]
  cases displaces : store.groupsByName.get? (store.nameOf id) with
  | none =>
      have spared : store.spared id = store.groups := by rw [spared, displaced?, displaces]; rfl
      have freed : store.freed id = store.groupsByRole := by rw [freed, displaced?, displaces]; rfl
      rcases store.list_cases id with ⟨failure, notKey, listed⟩ | ⟨keyed, listed⟩
      · refine .inr (.inl ⟨failure, notKey, ?_, ?_⟩)
        · rw [listed, seated, spared, freed]
        · intro old displaced
          cases displaces.symm.trans displaced
      · refine .inr (.inr ⟨keyed, ?_⟩)
        rw [listed, seated, spared, indexed, freed]
  | some old =>
      have spared : store.spared id = store.groups.erase old := by
        rw [spared, displaced?, displaces]
        rfl
      have freed : store.freed id =
          (store.roleKey? old).elim store.groupsByRole store.groupsByRole.erase := by
        rw [freed, displaced?, displaces]
        rfl
      dsimp only
      rcases store.unlist_cases old with ⟨failure, groups, unlisted, unfit⟩ | ⟨present, unlisted⟩
      · refine .inl ⟨failure, groups, old, ?_, displaces, unfit⟩
        rw [unlisted]
      · rw [unlisted]
        let without := { store with
          groups := store.groups.erase old
          groupsByRole :=
            (store.roleKey? old).elim store.groupsByRole store.groupsByRole.erase }
        rcases without.list_cases id with ⟨failure, notKey, listed⟩ | ⟨keyed, listed⟩
        · refine .inr (.inl ⟨failure, notKey, ?_, ?_⟩)
          · dsimp only
            rw [listed, seated, spared, freed]
            rfl
          · intro other displaced
            cases displaces.symm.trans displaced
            exact present
        · refine .inr (.inr ⟨keyed, ?_⟩)
          dsimp only
          rw [listed, seated, spared, indexed, freed]
          rfl

/-- A group whose role is a key is registered, if the group that it displaces is one that was
registered before. -/
theorem register_ok (keyed : store.IsKeyed id)
    (sound : ∀ old, store.displaced? id = some old → old ∈ store.groups ∧ store.IsKeyed old) :
    store.register id = (.ok (), (store.seated id (store.indexed id)).invalidateMembers) := by
  rcases store.register_cases id with
    ⟨_, _, old, -, displaced, unfit⟩ | ⟨_, notKey, -⟩ | ⟨-, registered⟩
  · exact absurd (sound old displaced) unfit
  · rw [IsKeyed, notKey] at keyed
    cases keyed
  · exact registered

/-! ## Groups that are loaded -/

/-- Make a saved group and restore it, before it is registered. -/
def madeGroup (store : PermissionStore) (data : Value) : Except Failure Nat × PermissionStore :=
  match savedField data "roleId" .null, savedName data with
  | .error failure, _ | _, .error failure => (.error failure, store)
  | .ok role, .ok name =>
    let (id, store) := if role.isNull then store.addGroup name else store.addRoleGroup name role
    match store.load id data with
    | (.error failure, store) => (.error failure, store)
    | (.ok _, store) => (.ok id, store)

theorem loadGroup_eq (store : PermissionStore) (data : Value) :
    store.loadGroup data =
      match store.madeGroup data with
      | (.error failure, store) => (.error failure, store)
      | (.ok id, store) => store.register id := by
  rw [loadGroup, madeGroup]
  rcases savedField data "roleId" .null with failure | role
  · rfl
  · rcases savedName data with failure | name
    · rfl
    · dsimp only
      generalize (if role.isNull = true then store.addGroup name
        else store.addRoleGroup name role) = made
      rcases made.2.load made.1 data with ⟨failure | _, loaded⟩ <;> rfl

end PermissionStore

end Steward
