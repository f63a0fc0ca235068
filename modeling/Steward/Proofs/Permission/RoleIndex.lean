import Mathlib.Data.List.Induction
import Mathlib.Data.List.Nodup
import Steward.Proofs.Permission.Registering

/-!
# The index of roles

Groups are registered one after the other.  The list then holds at most one group of each name, and
the index of names maps exactly the names on the list to their groups.  Of the index of roles this
is not so: a group that is displaced takes its role out of the index, whichever group stands there.

The main result says what is lost.  The index holds, for each role, the group with that role that
was registered last, unless the role was orphaned: taken out of the index while another group on the
list had it, and not registered since, although there still is a group with it on the list.
-/

namespace Steward.PermissionStore

/-! ## Registering one after the other -/

/-- Nothing is registered. -/
structure IsUnused (store : PermissionStore) : Prop where
  groups : store.groups = []
  names : store.groupsByName = .empty
  roles : store.groupsByRole = .empty

/-- A group that has a name and, if it is a group for a role, a role that is a key. -/
structure IsGroup (store : PermissionStore) (id : Nat) : Prop where
  named : ((store.kind? id).bind HolderKind.name?).isSome
  keyed : store.IsKeyed id

/-- Register groups in order, going on after those that fail. -/
def registerAll (ids : List Nat) (store : PermissionStore) : PermissionStore :=
  ids.foldl (fun store id => (store.register id).2) store

theorem registerAll_concat (ids : List Nat) (id : Nat) (store : PermissionStore) :
    store.registerAll (ids ++ [id]) = ((store.registerAll ids).register id).2 := by
  exact List.foldl_concat ..

/-- A store in which some groups were registered in order: what is listed, and the index of names.
-/
structure Enrolls (start : PermissionStore) (ids : List Nat) (store : PermissionStore) : Prop where
  table : store.table = start.table
  keyed : ∀ id ∈ store.groups, store.IsKeyed id
  once : (store.groups.map store.nameOf).Nodup
  names : ∀ name id,
    store.groupsByName.get? name = some id ↔ id ∈ store.groups ∧ store.nameOf id = name
  /-- The list is in the order of registration. -/
  order : ∀ wanted : Nat → Bool,
    (ids.filter fun id => decide (id ∈ store.groups) && wanted id).getLast? =
      (store.groups.filter wanted).getLast?

theorem IsUnused.enrolls {start : PermissionStore} (unused : start.IsUnused) :
    Enrolls start [] start where
  table := rfl
  keyed := by
    simp [unused.groups]
  once := by
    simp [unused.groups]
  names := by
    simp [unused.groups, unused.names]
  order := by
    simp [unused.groups]

namespace Enrolls

variable {start store : PermissionStore} {ids : List Nat} {id : Nat}

theorem displaced?_iff (enrolls : Enrolls start ids store) {old : Nat} :
    store.displaced? id = some old ↔ old ∈ store.groups ∧ store.nameOf old = store.nameOf id := by
  exact enrolls.names ..

/-- The groups of other names stay on the list. -/
theorem spared_eq (enrolls : Enrolls start ids store) (id : Nat) :
    store.spared id = store.groups.filter fun other => store.nameOf other ≠ store.nameOf id := by
  rw [spared]
  cases displaces : store.displaced? id with
  | none =>
      rw [Option.elim_none, List.filter_eq_self.2]
      intro other listed
      rw [decide_eq_true_iff]
      intro same
      cases displaces.symm.trans (enrolls.displaced?_iff.2 ⟨listed, same⟩)
  | some old =>
      rcases enrolls.displaced?_iff.1 displaces with ⟨-, name⟩
      rw [Option.elim_some, List.Nodup.erase_eq_filter (enrolls.once.of_map _)]
      apply List.filter_congr
      intro other listed
      rw [Bool.eq_iff_iff, bne_iff_ne, decide_eq_true_iff, not_iff_not]
      constructor
      · rintro rfl
        exact name
      · intro same
        exact Option.some.inj ((enrolls.displaced?_iff.2 ⟨listed, same⟩).symm.trans displaces)

theorem mem_spared_iff (enrolls : Enrolls start ids store) {other : Nat} :
    other ∈ store.spared id ↔ other ∈ store.groups ∧ store.nameOf other ≠ store.nameOf id := by
  rw [enrolls.spared_eq, List.mem_filter, decide_eq_true_iff]

/-- What a registration comes to. -/
theorem register_eq (enrolls : Enrolls start ids store) (isGroup : start.IsGroup id) :
    store.register id = (.ok (), (store.seated id (store.indexed id)).invalidateMembers) := by
  apply register_ok (isGroup.keyed.congr enrolls.table)
  intro old displaced
  have listed := (enrolls.displaced?_iff.1 displaced).1
  exact ⟨listed, enrolls.keyed old listed⟩

/-- The store after a registration, apart from what permissibles remember. -/
theorem registered_index (enrolls : Enrolls start ids store) (isGroup : start.IsGroup id) :
    (store.register id).2.index = (store.seated id (store.indexed id)).index := by
  rw [enrolls.register_eq isGroup]
  exact index_invalidateMembers _

theorem registered_table (enrolls : Enrolls start ids store) (isGroup : start.IsGroup id) :
    (store.register id).2.table = store.table := by
  rw [enrolls.register_eq isGroup]
  exact table_invalidateMembers _

theorem registered_groups (enrolls : Enrolls start ids store) (isGroup : start.IsGroup id) :
    (store.register id).2.groups = store.spared id ++ [id] := by
  exact congrArg groups (enrolls.registered_index isGroup)

/-- No name is twice on the list after a registration. -/
theorem registered_once (enrolls : Enrolls start ids store) (isGroup : start.IsGroup id) :
    ((store.register id).2.groups.map store.nameOf).Nodup := by
  rw [enrolls.registered_groups isGroup, List.map_append, List.map_singleton, List.nodup_append]
  refine ⟨?_, List.nodup_singleton _, ?_⟩
  · rw [enrolls.spared_eq]
    exact enrolls.once.sublist (List.filter_sublist.map _)
  · intro name isName last isLast same
    rcases List.mem_map.1 isName with ⟨other, spared, rfl⟩
    rw [List.mem_singleton.1 isLast] at same
    exact (enrolls.mem_spared_iff.1 spared).2 same

/-- The index of names maps the names on the list to their groups after a registration. -/
theorem registered_names (enrolls : Enrolls start ids store) (isGroup : start.IsGroup id)
    (name : String) (other : Nat) :
    (store.register id).2.groupsByName.get? name = some other ↔
      other ∈ (store.register id).2.groups ∧ store.nameOf other = name := by
  have names : (store.register id).2.groupsByName =
      store.groupsByName.insert (store.nameOf id) id :=
    congrArg groupsByName (enrolls.registered_index isGroup)
  rw [names, OrderedMap.get?_insert, enrolls.registered_groups isGroup, List.mem_append,
    List.mem_singleton, enrolls.mem_spared_iff]
  split
  · rename_i own
    subst own
    constructor
    · rintro ⟨⟩
      exact ⟨.inr rfl, rfl⟩
    · rintro ⟨⟨-, differs⟩ | rfl, same⟩
      · exact absurd same differs
      · rfl
  · rename_i differs
    rw [enrolls.names]
    constructor
    · rintro ⟨listed, rfl⟩
      exact ⟨.inl ⟨listed, Ne.symm differs⟩, rfl⟩
    · rintro ⟨⟨listed, -⟩ | rfl, rfl⟩
      · exact ⟨listed, rfl⟩
      · exact absurd rfl differs

/-- The list is in the order of registration after a registration. -/
theorem registered_order (enrolls : Enrolls start ids store) (isGroup : start.IsGroup id)
    (wanted : Nat → Bool) :
    ((ids ++ [id]).filter fun other =>
        decide (other ∈ (store.register id).2.groups) && wanted other).getLast? =
      ((store.register id).2.groups.filter wanted).getLast? := by
  rw [enrolls.registered_groups isGroup, List.filter_append, List.filter_append]
  by_cases isWanted : wanted id = true
  · simp [isWanted]
  · -- What else is wanted was registered before, and is not of the name of the new group.
    have before := enrolls.order fun other =>
      decide (store.nameOf other ≠ store.nameOf id) && wanted other
    rw [enrolls.spared_eq, List.filter_filter]
    have none : (([id] : List Nat).filter fun other =>
        decide (other ∈ store.groups.filter (fun other =>
          decide (store.nameOf other ≠ store.nameOf id)) ++ [id]) && wanted other) = [] := by
      simp [isWanted]
    rw [none, List.filter_cons_of_neg isWanted, List.filter_nil, List.append_nil, List.append_nil]
    have same : (ids.filter fun other =>
        decide (other ∈ store.groups.filter (fun other =>
          decide (store.nameOf other ≠ store.nameOf id)) ++ [id]) && wanted other) =
        ids.filter fun other => decide (other ∈ store.groups) &&
          (decide (store.nameOf other ≠ store.nameOf id) && wanted other) := by
      apply List.filter_congr
      intro other _
      by_cases isIt : other = id
      · subst isIt
        simp [isWanted]
      · simp [isIt, Bool.and_assoc]
    rw [same, before]
    congr 1
    apply List.filter_congr
    intro other _
    exact Bool.and_comm ..

theorem register (enrolls : Enrolls start ids store) (isGroup : start.IsGroup id) :
    Enrolls start (ids ++ [id]) (store.register id).2 := by
  have table := enrolls.registered_table isGroup
  have sameName : (store.register id).2.nameOf = store.nameOf := funext (nameOf_congr table)
  refine ⟨table.trans enrolls.table, ?_, ?_, ?_, enrolls.registered_order isGroup⟩
  · intro other listed
    apply IsKeyed.congr _ table
    rw [enrolls.registered_groups isGroup, List.mem_append, List.mem_singleton,
      enrolls.mem_spared_iff] at listed
    rcases listed with ⟨listed, -⟩ | rfl
    · exact enrolls.keyed other listed
    · exact isGroup.keyed.congr enrolls.table
  · rw [sameName]
    exact enrolls.registered_once isGroup
  · rw [sameName]
    exact enrolls.registered_names isGroup

end Enrolls

theorem enrolls_registerAll {start : PermissionStore} (unused : start.IsUnused) {ids : List Nat}
    (areGroups : ∀ id ∈ ids, start.IsGroup id) : Enrolls start ids (start.registerAll ids) := by
  induction ids using List.reverseRecOn with
  | nil =>
      exact unused.enrolls
  | append_singleton ids id ih =>
      rw [registerAll_concat]
      exact (ih fun other listed => areGroups other (List.mem_append_left _ listed)).register
        (areGroups id (by simp))

/-! ## What the index of roles holds -/

/-- The group with a role that was registered last, of those that are listed. -/
def lastWithRole (store : PermissionStore) (ids : List Nat) (key : RoleKey) : Option Nat :=
  (ids.filter fun id => decide (id ∈ store.groups) && store.roleKey? id == some key).getLast?

/-- A registration takes a role out of the index that another group on the list has. -/
structure Orphans (store : PermissionStore) (id : Nat) (key : RoleKey) : Prop where
  other : store.roleKey? id ≠ some key
  taken : (store.displaced? id).bind store.roleKey? = some key
  left : ∃ group ∈ store.spared id, store.roleKey? group = some key

/-- One of some registrations has orphaned a role, and no group was registered for it since. -/
def IsOrphaned (start : PermissionStore) (ids : List Nat) (key : RoleKey) : Prop :=
  ∃ before id after, ids = before ++ id :: after ∧ (start.registerAll before).Orphans id key ∧
    ∀ later ∈ after, start.roleKey? later ≠ some key

namespace Enrolls

variable {start store : PermissionStore} {ids : List Nat} {id : Nat} {key : RoleKey}

theorem lastWithRole_eq (enrolls : Enrolls start ids store) (key : RoleKey) :
    store.lastWithRole ids key =
      (store.groups.filter fun id => store.roleKey? id == some key).getLast? := by
  exact enrolls.order _

theorem roleKey?_eq (enrolls : Enrolls start ids store) : store.roleKey? = start.roleKey? := by
  exact funext (roleKey?_congr enrolls.table)

theorem lastWithRole_eq_none_iff (enrolls : Enrolls start ids store) :
    store.lastWithRole ids key = none ↔ ∀ id ∈ store.groups, start.roleKey? id ≠ some key := by
  rw [enrolls.lastWithRole_eq, List.getLast?_eq_none_iff, List.filter_eq_nil_iff,
    enrolls.roleKey?_eq]
  simp

/-- What a registration makes of the index of roles. -/
theorem registered_role (enrolls : Enrolls start ids store) (isGroup : start.IsGroup id)
    (key : RoleKey) :
    (store.register id).2.groupsByRole.get? key =
      if store.roleKey? id = some key then some id
      else if (store.displaced? id).bind store.roleKey? = some key then none
      else store.groupsByRole.get? key := by
  have roles : (store.register id).2.groupsByRole = store.indexed id :=
    congrArg groupsByRole (enrolls.registered_index isGroup)
  rw [roles, indexed]
  cases own : store.roleKey? id with
  | none =>
      simp [get?_freed]
  | some role =>
      rw [Option.elim_some, OrderedMap.get?_insert, get?_freed]
      simp

/-- A registration that has nothing to do with a role leaves the groups with that role as they
were. -/
theorem lastWithRole_register (enrolls : Enrolls start ids store) (isGroup : start.IsGroup id)
    (other : store.roleKey? id ≠ some key)
    (kept : (store.displaced? id).bind store.roleKey? ≠ some key) :
    (store.register id).2.lastWithRole (ids ++ [id]) key = store.lastWithRole ids key := by
  have roles : (store.register id).2.roleKey? = store.roleKey? :=
    funext (roleKey?_congr (enrolls.registered_table isGroup))
  rw [(enrolls.register isGroup).lastWithRole_eq, enrolls.lastWithRole_eq, roles,
    enrolls.registered_groups isGroup, List.filter_append, List.filter_cons_of_neg (by simpa),
    List.filter_nil, List.append_nil, enrolls.spared_eq, List.filter_filter]
  congr 1
  apply List.filter_congr
  intro group listed
  by_cases same : store.nameOf group = store.nameOf id
  · have displaces := enrolls.displaced?_iff.2 ⟨listed, same⟩
    rw [displaces] at kept
    have differs : store.roleKey? group ≠ some key := kept
    simp [same, differs]
  · simp [same]

end Enrolls

theorem concat_eq_append_cons {α : Type} {xs before after : List α} {last middle : α}
    (same : xs ++ [last] = before ++ middle :: after) :
    (after = [] ∧ before = xs ∧ middle = last) ∨
      ∃ rest, after = rest ++ [last] ∧ xs = before ++ middle :: rest := by
  rcases List.eq_nil_or_concat after with rfl | ⟨rest, final, rfl⟩
  · left
    have parts := List.append_inj' same rfl
    exact ⟨rfl, parts.1.symm, (List.singleton_inj.1 parts.2).symm⟩
  · right
    rw [List.concat_eq_append] at same ⊢
    rw [← List.cons_append, ← List.append_assoc] at same
    have parts := List.append_inj' same rfl
    rw [List.singleton_inj.1 parts.2]
    exact ⟨rest, rfl, parts.1⟩

theorem not_isOrphaned_nil (start : PermissionStore) (key : RoleKey) :
    ¬ start.IsOrphaned [] key := by
  rintro ⟨before, id, after, nothing, -⟩
  simp at nothing

/-- A role is orphaned by the last registration, or was before it. -/
theorem isOrphaned_concat_iff (start : PermissionStore) (ids : List Nat) (id : Nat)
    (key : RoleKey) :
    start.IsOrphaned (ids ++ [id]) key ↔
      (start.registerAll ids).Orphans id key ∨
        start.IsOrphaned ids key ∧ start.roleKey? id ≠ some key := by
  constructor
  · rintro ⟨before, middle, after, same, orphans, none⟩
    rcases concat_eq_append_cons same with ⟨rfl, rfl, rfl⟩ | ⟨rest, rfl, rfl⟩
    · exact .inl orphans
    · right
      refine ⟨⟨before, middle, rest, rfl, orphans, fun later listed => none later ?_⟩, none id ?_⟩
      · exact List.mem_append_left _ listed
      · simp
  · rintro (orphans | ⟨⟨before, middle, after, rfl, orphans, none⟩, other⟩)
    · exact ⟨ids, id, [], rfl, orphans, by simp⟩
    · refine ⟨before, middle, after ++ [id], by simp, orphans, fun later listed => ?_⟩
      rcases List.mem_append.1 listed with earlier | last
      · exact none later earlier
      · rw [List.mem_singleton.1 last]
        exact other

/-- The index of roles holds the last of the groups with a role, unless the role was orphaned and
there still is a group with it. -/
theorem role_right_iff {start : PermissionStore} (unused : start.IsUnused) {ids : List Nat}
    (areGroups : ∀ id ∈ ids, start.IsGroup id) (key : RoleKey) :
    (start.registerAll ids).groupsByRole.get? key =
        (start.registerAll ids).lastWithRole ids key ↔
      (start.IsOrphaned ids key →
        ∀ group ∈ (start.registerAll ids).groups, start.roleKey? group ≠ some key) := by
  induction ids using List.reverseRecOn with
  | nil =>
      simp [registerAll, unused.roles, lastWithRole, not_isOrphaned_nil]
  | append_singleton ids id ih =>
      have areGroups' : ∀ other ∈ ids, start.IsGroup other := fun other listed =>
        areGroups other (List.mem_append_left _ listed)
      have isGroup := areGroups id (by simp)
      have enrolls := enrolls_registerAll unused areGroups'
      have enrolls' := enrolls.register isGroup
      have ih := ih areGroups'
      rw [registerAll_concat, isOrphaned_concat_iff, enrolls.registered_role isGroup]
      generalize start.registerAll ids = store at *
      have role := enrolls.roleKey?_eq
      split
      · -- The group has the role itself.
        rename_i own
        have last : (store.register id).2.lastWithRole (ids ++ [id]) key = some id := by
          rw [enrolls'.lastWithRole_eq, enrolls.registered_groups isGroup, List.filter_append,
            List.filter_cons_of_pos, List.filter_nil, List.getLast?_concat]
          rw [enrolls'.roleKey?_eq, ← role, own, beq_self_eq_true]
        rw [last, eq_self, true_iff]
        rintro (orphans | ⟨-, other⟩)
        · exact absurd own orphans.other
        · exact absurd own (role ▸ other)
      · rename_i other
        split
        · -- The role is taken from the index.
          rename_i taken
          rw [eq_comm, enrolls'.lastWithRole_eq_none_iff]
          constructor
          · intro silent _
            exact silent
          · intro restored
            by_contra! ⟨group, listed, has⟩
            rw [← role] at has
            have spared : group ∈ store.spared id := by
              rw [enrolls.registered_groups isGroup, List.mem_append, List.mem_singleton] at listed
              refine listed.resolve_right ?_
              rintro rfl
              exact other has
            exact restored (.inl ⟨other, taken, group, spared, has⟩) group listed (role ▸ has)
        · -- The role is left alone.
          rename_i kept
          have same := enrolls.lastWithRole_register isGroup other kept
          rw [same, ih, ← enrolls.lastWithRole_eq_none_iff,
            ← enrolls'.lastWithRole_eq_none_iff, same]
          have spared : ¬ store.Orphans id key := fun orphans => kept orphans.taken
          simp [spared, role ▸ other]

/-- After any groups were registered, there is at most one of each name on the list, and the index
of names maps exactly their names to them.  The index of roles holds the last of the groups with a
role, unless the role was orphaned and there still is a group with it. -/
theorem roleIndex_right_iff {start : PermissionStore} (unused : start.IsUnused) {ids : List Nat}
    (areGroups : ∀ id ∈ ids, start.IsGroup id) :
    ((start.registerAll ids).groups.map (start.registerAll ids).nameOf).Nodup ∧
    (∀ name id, (start.registerAll ids).groupsByName.get? name = some id ↔
      id ∈ (start.registerAll ids).groups ∧ (start.registerAll ids).nameOf id = name) ∧
    ∀ key, (start.registerAll ids).groupsByRole.get? key =
        (start.registerAll ids).lastWithRole ids key ↔
      (start.IsOrphaned ids key →
        ∀ group ∈ (start.registerAll ids).groups, start.roleKey? group ≠ some key) := by
  have enrolls := enrolls_registerAll unused areGroups
  exact ⟨enrolls.once, enrolls.names, role_right_iff unused areGroups⟩

namespace Handover

/-- Two groups for one role, and a group without a role that has the name of the first. -/
def groups : PermissionStore :=
  { empty with permissibles := [.holder (.new (.roleGroup "mods" (.int 1))),
      .holder (.new (.roleGroup "helpers" (.int 1))), .holder (.new (.group "mods"))] }

theorem unused : groups.IsUnused where
  groups := rfl
  names := rfl
  roles := rfl

theorem areGroups : ∀ id ∈ [0, 1, 2], groups.IsGroup id := by
  have first : groups.IsGroup 0 := ⟨rfl, rfl⟩
  have second : groups.IsGroup 1 := ⟨rfl, rfl⟩
  have third : groups.IsGroup 2 := ⟨rfl, rfl⟩
  simp [first, second, third]

/-- When the first group loses its role by being replaced, the second one, which was registered for
it later and is on the list, is not found by it any more. -/
theorem helpers_lose_role :
    (groups.registerAll [0, 1, 2]).lastWithRole [0, 1, 2] (.number 1) = some 1 ∧
      (groups.registerAll [0, 1, 2]).groupsByRole.get? (.number 1) ≠ some 1 := by
  have last : (groups.registerAll [0, 1, 2]).lastWithRole [0, 1, 2] (.number 1) = some 1 := rfl
  refine ⟨last, ?_⟩
  rw [← last, Ne, (roleIndex_right_iff unused areGroups).2.2]
  intro kept
  have orphaned : groups.IsOrphaned [0, 1, 2] (.number 1) :=
    ⟨[0, 1], 2, [], rfl, ⟨nofun, rfl, 1, .head _, rfl⟩, by simp⟩
  exact kept orphaned 1 (.head _) rfl

end Handover

end Steward.PermissionStore
