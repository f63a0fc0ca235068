import Steward.Proofs.Permission.Asking
import Steward.Proofs.Permission.Registering

/-!
# Members and their groups

A manager keeps one permissible for each member key, and a member keeps the groups of its roles once
it has looked them up.  Groups are registered and loaded, members asked for and taken over anew, and
anything is checked, in any order.

The main result says when that can be seen.  The permissible of a member answers what a fresh
evaluation would answer, of the groups that the index of roles holds for the account that was last
given for the member.  This is so throughout a history exactly if no registration strands a member:
takes the group of one of its roles out of the index and then fails, which happens if the role of
the new group can be no key.
-/

namespace Steward

/-- The account of a permissible that is a member. -/
def Permissible.account? : Permissible → Option Account
  | .member account _ => some account
  | _ => none

namespace PermissionStore

variable {store before after : PermissionStore} {id : Nat}

/-! ## What leaves members as they are -/

/-- The account of the member at a place of the table. -/
def memberAt? (store : PermissionStore) (id : Nat) : Option Account :=
  (store.get? id).bind Permissible.account?

theorem memberAt?_congr (same : after.table = before.table) :
    after.memberAt? = before.memberAt? := by
  have read : ∀ store : PermissionStore,
      store.memberAt? = fun id => store.table[id]?.bind Permissible.account? := by
    intro store
    funext id
    rw [memberAt?, table_getElem?]
    rcases store.get? id with _ | _ | _ | _ <;> rfl
  rw [read, read, same]

theorem memberAt?_eq_some_iff {account : Account} :
    store.memberAt? id = some account ↔ ∃ kept, store.get? id = some (.member account kept) := by
  rw [memberAt?]
  rcases store.get? id with _ | _ | _ | ⟨other, kept⟩
  · simp
  · simp [Permissible.account?]
  · simp [Permissible.account?]
  · simp [Permissible.account?]

/-- What members keep is what they would look up. -/
def IsFresh (store : PermissionStore) : Prop :=
  ∀ id account groups, store.get? id = some (.member account (some groups)) →
    groups = store.groupsFor account

/-- Members keep their accounts and keep nothing but what they kept before or would have looked up,
and where to find them and groups for roles is unchanged. -/
structure Minds (before after : PermissionStore) : Prop where
  members : after.members = before.members
  roles : after.groupsByRole = before.groupsByRole
  accounts : after.memberAt? = before.memberAt?
  kept : ∀ id account groups, after.get? id = some (.member account (some groups)) →
    before.get? id = some (.member account (some groups)) ∨ groups = before.groupsFor account

namespace Minds

theorem refl (store : PermissionStore) : Minds store store where
  members := rfl
  roles := rfl
  accounts := rfl
  kept := fun _ _ _ => .inl

theorem groupsFor_eq (minds : Minds before after) : after.groupsFor = before.groupsFor := by
  funext account
  rw [groupsFor, groupsFor, minds.roles]

theorem trans {between : PermissionStore} (first : Minds before between)
    (second : Minds between after) : Minds before after where
  members := second.members.trans first.members
  roles := second.roles.trans first.roles
  accounts := second.accounts.trans first.accounts
  kept := by
    intro id account groups found
    rcases second.kept id account groups found with found | looked
    · exact first.kept id account groups found
    · exact .inr (looked.trans (congrFun first.groupsFor_eq account))

theorem isFresh (minds : Minds before after) (fresh : before.IsFresh) : after.IsFresh := by
  intro id account groups found
  rw [minds.groupsFor_eq]
  rcases minds.kept id account groups found with found | looked
  · exact fresh id account groups found
  · exact looked

theorem set {old new : Permissible} (found : store.get? id = some old)
    (account : new.account? = old.account?)
    (kept : ∀ account groups, new = .member account (some groups) →
      groups = store.groupsFor account) :
    Minds store (store.set id new) where
  members := rfl
  roles := rfl
  accounts := by
    funext other
    rw [memberAt?, memberAt?]
    by_cases isIt : other = id
    · subst isIt
      rw [get?_set_self found, found]
      exact account
    · rw [get?, PermissionStore.set, List.getElem?_set_ne (Ne.symm isIt), get?]
  kept := by
    intro other account groups found'
    by_cases isIt : other = id
    · subst isIt
      rw [get?_set_self found, Option.some.injEq] at found'
      exact .inr (kept account groups found')
    · rw [get?, PermissionStore.set, List.getElem?_set_ne (Ne.symm isIt)] at found'
      exact .inl found'

theorem updateHolder (store : PermissionStore) (id : Nat) (f : Holder → Holder) :
    Minds store (store.updateHolder id f) := by
  rw [PermissionStore.updateHolder]
  split
  · rename_i holder found
    exact set (holder?_eq_some_iff.1 found) rfl (by simp)
  · exact refl store

theorem invalidate (store : PermissionStore) (id : Nat) : Minds store (store.invalidate id) := by
  rw [PermissionStore.invalidate]
  split
  · rename_i holder found
    exact set found rfl (by simp)
  · rename_i account groups found
    exact set found rfl (by simp)
  · exact refl store

theorem memberGroups (store : PermissionStore) (id : Nat) :
    Minds store (store.memberGroups id).2 := by
  rw [PermissionStore.memberGroups]
  split
  · exact refl store
  · rename_i account found
    dsimp only
    refine set found rfl ?_
    rintro _ _ ⟨⟩
    rfl
  · exact refl store

/-- A permissible that is no member is added. -/
theorem add {permissible : Permissible} (none : permissible.account? = none)
    (store : PermissionStore) : Minds store (store.add permissible).2 where
  members := rfl
  roles := rfl
  accounts := by
    funext id
    rw [memberAt?, memberAt?, get?, PermissionStore.add, get?, List.getElem?_append]
    split
    · rfl
    · rename_i outside
      rw [List.getElem?_eq_none (Nat.le_of_not_lt outside), List.getElem?_singleton]
      split
      · exact none
      · rfl
  kept := by
    intro id account groups found
    rw [get?, PermissionStore.add, List.getElem?_append] at found
    split at found
    · exact .inl found
    · rw [List.getElem?_singleton] at found
      split at found
      · cases found
        cases none
      · cases found

theorem firstPermit
    {checkOne : Nat → PermissionStore → Except Failure Permit × PermissionStore}
    (one : ∀ id store, Minds store (checkOne id store).2) (ids : List Nat)
    (store : PermissionStore) : Minds store (firstPermit checkOne ids store).2 := by
  induction ids generalizing store with
  | nil =>
      exact refl store
  | cons id rest ih =>
      have first := one id store
      rw [PermissionStore.firstPermit]
      split
      · rename_i asked
        rw [asked] at first
        exact first.trans (ih _)
      · exact first

theorem permitWithin (path : PermissionPath) (depth id : Nat) (store : PermissionStore) :
    Minds store (permitWithin path depth id store).2 := by
  induction depth generalizing id store with
  | zero =>
      exact refl store
  | succ depth ih =>
      rw [PermissionStore.permitWithin]
      split
      · exact refl store
      · rename_i holder found
        dsimp only
        split
        · exact refl store
        · split
          · exact refl store
          · have inherited := firstPermit ih holder.inherits store
            split
            · rename_i asked
              rw [asked] at inherited
              exact inherited
            · rename_i asked
              rw [asked] at inherited
              exact inherited.trans (updateHolder ..)
            · exact inherited
      · exact firstPermit ih _ store
      · exact (memberGroups store id).trans (firstPermit ih _ _)

theorem load (store : PermissionStore) (id : Nat) (data : Value) :
    Minds store (store.load id data).2 := by
  rw [PermissionStore.load]
  split
  · exact refl store
  · split
    · exact refl store
    · split
      · exact updateHolder ..
      · exact (updateHolder ..).trans (invalidate ..)

theorem run (id : Nat) (call : HolderCall) (store : PermissionStore) :
    Minds store (call.run id store).2 := by
  cases call with
  | set path permit =>
      exact (updateHolder ..).trans (invalidate ..)
  | addInherits inherited =>
      exact (updateHolder ..).trans (invalidate ..)
  | removeInherits inherited =>
      rw [HolderCall.run, removeInherits]
      dsimp only
      split
      · split
        · exact (updateHolder ..).trans (invalidate ..)
        · exact refl store
      · exact refl store
  | load data =>
      exact load ..
  | check path fallback =>
      exact permitWithin path (store.permissibles.length + 1) id store

end Minds

/-! ## Registering -/

/-- A registration takes the group of a role that a member looked up out of the index and fails
then, as the role of the new group is no key. -/
structure Strands (store : PermissionStore) (id : Nat) : Prop where
  notKey : ¬ store.IsKeyed id
  served : ∃ old key, store.displaced? id = some old ∧ old ∈ store.groups ∧
    store.roleKey? old = some key ∧ (store.groupsByRole.get? key).isSome ∧
    ∃ member account groups role, store.get? member = some (.member account (some groups)) ∧
      role ∈ account.roles ∧ RoleKey.number role = key

theorem isKeyed_of_roleKey? {key : RoleKey} (hasKey : store.roleKey? id = some key) :
    store.IsKeyed id := by
  rw [roleKey?] at hasKey
  split at hasKey
  · rename_i isKey
    exact isKeyed_of_ok isKey
  · cases hasKey

theorem filterMap_eq_iff_of_le {α β : Type} {some? fewer? : α → Option β} {xs : List α}
    (fewer : ∀ x, fewer? x = none ∨ fewer? x = some? x) :
    xs.filterMap some? = xs.filterMap fewer? ↔ ∀ x ∈ xs, some? x = fewer? x := by
  refine ⟨?_, List.filterMap_congr⟩
  have shorter : ∀ xs : List α, (xs.filterMap fewer?).length ≤ (xs.filterMap some?).length := by
    intro xs
    induction xs with
    | nil =>
        exact Nat.le_refl _
    | cons x rest ih =>
        rcases fewer x with none | same
        · rw [List.filterMap_cons_none none]
          exact ih.trans ((List.sublist_cons_self x rest).filterMap some?).length_le
        · cases found : some? x with
          | none =>
              rw [List.filterMap_cons_none found, List.filterMap_cons_none (same.trans found)]
              exact ih
          | some value =>
              rw [List.filterMap_cons_some found, List.filterMap_cons_some (same.trans found)]
              exact Nat.succ_le_succ ih
  induction xs with
  | nil =>
      simp
  | cons x rest ih =>
      intro equal
      cases found : some? x with
      | none =>
          have none : fewer? x = none := by
            rcases fewer x with none | same
            · exact none
            · exact same.trans found
          rw [List.filterMap_cons_none found, List.filterMap_cons_none none] at equal
          simpa [found, none] using ih equal
      | some value =>
          rcases fewer x with none | same
          · rw [List.filterMap_cons_some found, List.filterMap_cons_none none] at equal
            have longer := congrArg List.length equal
            exact absurd (shorter rest) (by rw [← longer]; simp)
          · rw [List.filterMap_cons_some found, List.filterMap_cons_some (same.trans found),
              List.cons_eq_cons] at equal
            simpa [same] using ih equal.2

/-- All members in the table are found by their keys. -/
def HasKeys (store : PermissionStore) : Prop :=
  ∀ id account, store.memberAt? id = some account → ∃ key, store.members.get? key = some id

/-- Registering leaves the members and their accounts as they are. -/
theorem register_members (store : PermissionStore) (id : Nat) :
    (store.register id).2.members = store.members ∧
      (store.register id).2.memberAt? = store.memberAt? := by
  rcases store.register_cases id with
    ⟨failure, groups, old, registered, -⟩ | ⟨failure, -, registered, -⟩ | ⟨-, registered⟩
  · rw [registered]
    exact ⟨rfl, rfl⟩
  · rw [registered]
    exact ⟨rfl, rfl⟩
  · rw [registered]
    have members := congrArg members (index_invalidateMembers (store.seated id (store.indexed id)))
    exact ⟨members, memberAt?_congr (table_invalidateMembers _)⟩

theorem not_strands_of_ok (registered : (store.register id).1 = .ok ()) : ¬ store.Strands id := by
  intro strands
  rcases store.register_cases id with
    ⟨failure, groups, old, failed, -⟩ | ⟨failure, -, failed, -⟩ | ⟨keyed, -⟩
  · rw [failed] at registered
    cases registered
  · rw [failed] at registered
    cases registered
  · exact strands.notKey keyed

/-- Members that were told to forget their groups keep none. -/
theorem isFresh_invalidateMembers (hasKeys : store.HasKeys) :
    store.invalidateMembers.IsFresh := by
  intro id account groups found
  have isMember : store.memberAt? id = some account := by
    rw [← memberAt?_congr (table_invalidateMembers store)]
    exact memberAt?_eq_some_iff.2 ⟨_, found⟩
  rcases memberAt?_eq_some_iff.1 isMember with ⟨kept, found'⟩
  rcases hasKeys id account isMember with ⟨key, isKey⟩
  have listed : id ∈ store.members.values :=
    List.mem_map.2 ⟨(key, id), OrderedMap.mem_of_get? isKey, rfl⟩
  rw [invalidateMembers, get?_foldl_invalidate found', if_pos listed] at found
  cases found

/-- When a role is taken out of the index, the members that looked up its group are left behind. -/
theorem IsFresh.freed_iff (fresh : store.IsFresh) (id : Nat) :
    (∀ member account groups, store.get? member = some (.member account (some groups)) →
        groups = account.roles.filterMap fun role => (store.freed id).get? (.number role)) ↔
      ∀ member account groups role, store.get? member = some (.member account (some groups)) →
        role ∈ account.roles → (store.displaced? id).bind store.roleKey? = some (.number role) →
          store.groupsByRole.get? (.number role) = none := by
  have fewer : ∀ role : Int, (store.freed id).get? (.number role) = none ∨
      (store.freed id).get? (.number role) = store.groupsByRole.get? (.number role) := by
    intro role
    rw [get?_freed]
    split
    · exact .inl rfl
    · exact .inr rfl
  constructor
  · intro left member account groups role found hasRole taken
    have before := fresh member account groups found
    have after := left member account groups found
    have same := (filterMap_eq_iff_of_le fewer).1 (before.symm.trans after) role hasRole
    rw [same, get?_freed, if_pos taken]
  · intro spared member account groups found
    have before := fresh member account groups found
    refine before.trans ((filterMap_eq_iff_of_le fewer).2 fun role hasRole => ?_)
    rw [get?_freed]
    split
    · rename_i taken
      exact spared member account groups role found hasRole taken
    · rfl

/-- Of members that keep what they would look up, a registration leaves some behind exactly if it
strands one. -/
theorem IsFresh.register_iff (fresh : store.IsFresh) (hasKeys : store.HasKeys) (id : Nat) :
    (store.register id).2.IsFresh ↔ ¬ store.Strands id := by
  rcases store.register_cases id with
    ⟨failure, groups, old, registered, displaces, unfit⟩ | ⟨failure, notKey, registered, listed⟩ |
      ⟨keyed, registered⟩
  · rw [registered]
    refine ⟨?_, fun _ => fresh⟩
    rintro - ⟨-, other, key, displaced, listed, hasKey, -⟩
    cases displaces.symm.trans displaced
    exact unfit ⟨listed, isKeyed_of_roleKey? hasKey⟩
  · rw [registered]
    have notKeyed : ¬ store.IsKeyed id := by
      intro keyed
      rw [IsKeyed, notKey] at keyed
      cases keyed
    refine (fresh.freed_iff id).trans ?_
    constructor
    · rintro left ⟨-, old, key, displaced, -, hasKey, isServed, member, account, groups, role,
        found, hasRole, rfl⟩
      have taken : (store.displaced? id).bind store.roleKey? = some (.number role) := by
        rw [displaced, Option.bind_some, hasKey]
      rw [left member account groups role found hasRole taken] at isServed
      cases isServed
    · intro spared member account groups role found hasRole taken
      rcases Option.bind_eq_some_iff.1 taken with ⟨old, displaced, hasKey⟩
      by_contra served
      exact spared ⟨notKeyed, old, _, displaced, listed old displaced, hasKey,
        Option.isSome_iff_ne_none.2 served, member, account, groups, role, found, hasRole, rfl⟩
  · rw [registered]
    refine iff_of_true (isFresh_invalidateMembers ?_) fun strands => strands.notKey keyed
    exact hasKeys

end PermissionStore

end Steward
