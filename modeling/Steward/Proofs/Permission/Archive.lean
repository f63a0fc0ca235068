import Steward.Proofs.Permission.Flattening
import Steward.Proofs.Permission.RoleIndex

/-!
# Saving groups and restoring them

Groups are made, given permits by paths that are written as texts, and registered, in any order.
What is saved of them restores them in a manager in which nothing is registered yet: the same groups
in the same order, with the same kinds and the same answers of their own trees for every path
(`Built.loadAll_save`).  To save them again gives the same document.

The trees that come back need not be the same.  They lack the parts that hold no permits, which
neither a lookup nor the document can tell.
-/

namespace Steward

/-- A group, which has a role that is a key if it is one for a role. -/
def HolderKind.IsSavable : HolderKind → Prop
  | .bare => False
  | .group _ => True
  | .roleGroup _ role => ∃ key, RoleKey.ofValue role = .ok (some key)

/-- A group whose permits are saved by paths that can be read back. -/
structure Holder.IsSavable (holder : Holder) : Prop where
  kind : holder.kind.IsSavable
  root : holder.tree.name = none
  tidy : holder.tree.IsTidy

/-- What a group is saved as. -/
def Holder.saved (holder : Holder) : Value :=
  .map (("name", .text (holder.name?.getD "")) :: PermissionStore.savedFields holder)

/-- What comes back of a group that was saved. -/
def Holder.restored (holder : Holder) : Holder :=
  ⟨holder.kind, holder.tree.prune, [], none⟩

namespace PermissionStore

variable {store before after copies fresh : PermissionStore} {id : Nat}

/-- The stores that are made by making groups, setting permits at paths that are written as texts,
and registering groups. -/
inductive Built : PermissionStore → Prop
  | empty : Built .empty
  | make {store : PermissionStore} {kind : HolderKind} (built : Built store)
    (savable : kind.IsSavable) : Built (store.add (.holder (.new kind))).2
  | set {store : PermissionStore} (built : Built store) (id : Nat) (path : String)
    (permit : Permit) : Built (store.setPermit id (PermissionPath.ofText path) permit)
  | register {store : PermissionStore} {id : Nat} (built : Built store)
    (isThere : id < store.permissibles.length) : Built (store.register id).2

/-! ## What such stores are like -/

/-- A change that keeps the kinds of the groups on the list, and where they are found, keeps what
was registered. -/
theorem Enrolls.transfer {start : PermissionStore} {ids : List Nat}
    (enrolls : Enrolls start ids before) (groups : after.groups = before.groups)
    (names : after.groupsByName = before.groupsByName)
    (kinds : ∀ id ∈ before.groups, after.kind? id = before.kind? id) : Enrolls after ids after := by
  have sameName : ∀ id ∈ before.groups, after.nameOf id = before.nameOf id := by
    intro id listed
    rw [nameOf_eq, nameOf_eq, kinds id listed]
  refine ⟨rfl, ?_, ?_, ?_, ?_⟩
  · intro id listed
    rw [groups] at listed
    have keyed := enrolls.keyed id listed
    rw [IsKeyed, roleKey?, roleOf_eq] at keyed ⊢
    rw [kinds id listed]
    exact keyed
  · rw [groups, List.map_congr_left sameName]
    exact enrolls.once
  · intro name id
    rw [names, enrolls.names, groups]
    constructor
    · rintro ⟨listed, rfl⟩
      exact ⟨listed, sameName id listed⟩
    · rintro ⟨listed, rfl⟩
      exact ⟨listed, (sameName id listed).symm⟩
  · rw [groups]
    exact enrolls.order

/-- All permissibles are groups that can be saved, and those that are registered are on the list and
found by their names. -/
structure IsArchivable (store : PermissionStore) : Prop where
  savable : ∀ permissible ∈ store.table, ∃ holder, permissible = .holder holder ∧ holder.IsSavable
  enrolls : ∃ ids, Enrolls store ids store
  isThere : ∀ id ∈ store.groups, id < store.permissibles.length

theorem table_add (store : PermissionStore) (permissible : Permissible) :
    (store.add permissible).2.table = store.table ++ [permissible.bare] := by
  exact List.map_append

theorem length_table (store : PermissionStore) :
    store.table.length = store.permissibles.length := by
  exact List.length_map ..

/-- What the table says of a holder is so but for what it remembers. -/
theorem holder?_of_table {bare : Holder} (found : store.table[id]? = some (.holder bare)) :
    ∃ holder, store.holder? id = some holder ∧ { holder with cache := none } = bare := by
  rw [table_getElem?] at found
  rcases isAt : store.get? id with _ | holder | groups | ⟨account, kept⟩
  · rw [isAt] at found
    cases found
  · rw [isAt] at found
    cases found
    exact ⟨holder, holder?_eq_some_iff.2 isAt, rfl⟩
  · rw [isAt] at found
    cases found
  · rw [isAt] at found
    cases found

/-- The kind of a group that can be saved lets it be registered. -/
theorem isGroup_of_savable {kind : HolderKind} (found : store.kind? id = some kind)
    (savable : kind.IsSavable) : store.IsGroup id := by
  cases kind with
  | bare =>
      cases savable
  | group name =>
      have isKey : RoleKey.ofValue ((store.roleOf id).getD .null) = .ok none := by
        rw [roleOf_eq, found]
        rfl
      exact ⟨by rw [found]; rfl, isKeyed_of_ok isKey⟩
  | roleGroup name role =>
      rcases savable with ⟨key, isKey⟩
      have isKey : RoleKey.ofValue ((store.roleOf id).getD .null) = .ok (some key) := by
        rw [roleOf_eq, found]
        exact isKey
      exact ⟨by rw [found]; rfl, isKeyed_of_ok isKey⟩

namespace IsArchivable

theorem holder? (archivable : store.IsArchivable) (isThere : id < store.permissibles.length) :
    ∃ holder, store.holder? id = some holder ∧ holder.IsSavable := by
  have inside : id < store.table.length := by
    rw [length_table]
    exact isThere
  rcases archivable.savable _ (List.getElem_mem inside) with ⟨bare, same, savable⟩
  rcases holder?_of_table ((List.getElem?_eq_getElem inside).trans (congrArg some same)) with
    ⟨holder, found, rfl⟩
  exact ⟨holder, found, savable.kind, savable.root, savable.tidy⟩

theorem isGroup (archivable : store.IsArchivable) (isThere : id < store.permissibles.length) :
    store.IsGroup id := by
  rcases archivable.holder? isThere with ⟨holder, found, savable⟩
  apply isGroup_of_savable _ savable.kind
  rw [kind?, found]
  rfl

theorem empty : IsArchivable .empty where
  savable := nofun
  enrolls := ⟨[], IsUnused.enrolls ⟨rfl, rfl, rfl⟩⟩
  isThere := nofun

/-- A group that is added to the table is not registered yet. -/
theorem add (archivable : store.IsArchivable) {holder : Holder} (savable : holder.IsSavable) :
    (store.add (.holder holder)).2.IsArchivable where
  savable := by
    intro permissible listed
    rw [table_add, List.mem_append, List.mem_singleton] at listed
    rcases listed with old | rfl
    · exact archivable.savable permissible old
    · exact ⟨_, rfl, savable.kind, savable.root, savable.tidy⟩
  enrolls := by
    rcases archivable.enrolls with ⟨ids, enrolls⟩
    refine ⟨ids, enrolls.transfer rfl rfl fun id listed => ?_⟩
    have inside : id < store.table.length := by
      rw [length_table]
      exact archivable.isThere id listed
    rw [kind?_eq, kind?_eq, table_add, List.getElem?_append_left inside]
  isThere := by
    intro id listed
    rw [PermissionStore.add, List.length_append]
    exact Nat.lt_succ_of_lt (archivable.isThere id listed)

theorem setPermit (archivable : store.IsArchivable) (id : Nat) (path : String) (permit : Permit) :
    (store.setPermit id (PermissionPath.ofText path) permit).IsArchivable := by
  rcases Nat.lt_or_ge id store.permissibles.length with isThere | outside
  · rcases archivable.holder? isThere with ⟨holder, found, savable⟩
    rw [PermissionStore.setPermit, updateHolder_invalidate_eq (holder?_eq_some_iff.1 found)]
    have tidy : (holder.tree.set permit (PermissionPath.ofText path)).IsTidy :=
      savable.tidy.set (fun _ => PermissionTree.pointless_of_mem_ofText) permit
    refine ⟨?_, ?_, ?_⟩
    · intro permissible listed
      rw [table, PermissionStore.set, List.map_set] at listed
      rcases List.mem_or_eq_of_mem_set listed with old | rfl
      · exact archivable.savable permissible old
      · refine ⟨_, rfl, savable.kind, ?_, tidy⟩
        exact (PermissionTree.set_name ..).trans savable.root
    · rcases archivable.enrolls with ⟨ids, enrolls⟩
      refine ⟨ids, enrolls.transfer rfl rfl fun other _ => ?_⟩
      by_cases isIt : other = id
      · subst isIt
        rw [kind?, kind?, found,
          holder?_eq_some_iff.2 (get?_set_self (holder?_eq_some_iff.1 found) _)]
        rfl
      · rw [kind?, kind?, PermissionStore.holder?, PermissionStore.holder?, get?,
          PermissionStore.set, List.getElem?_set_ne (Ne.symm isIt), get?]
    · intro other listed
      rw [PermissionStore.set, List.length_set]
      exact archivable.isThere other listed
  · have missing : store.get? id = none := List.getElem?_eq_none outside
    have same : store.setPermit id (PermissionPath.ofText path) permit = store := by
      simp only [PermissionStore.setPermit, updateHolder, PermissionStore.holder?, missing,
        invalidate]
    rw [same]
    exact archivable

theorem register (archivable : store.IsArchivable) (isThere : id < store.permissibles.length) :
    (store.register id).2.IsArchivable := by
  rcases archivable.enrolls with ⟨ids, enrolls⟩
  have isGroup := archivable.isGroup isThere
  have table := enrolls.registered_table isGroup
  have length : (store.register id).2.permissibles.length = store.permissibles.length := by
    rw [← length_table, table, length_table]
  refine ⟨?_, ?_, ?_⟩
  · rw [table]
    exact archivable.savable
  · exact ⟨_, (enrolls.register isGroup).transfer rfl rfl fun _ _ => rfl⟩
  · intro other listed
    rw [enrolls.registered_groups isGroup, List.mem_append, List.mem_singleton,
      enrolls.mem_spared_iff] at listed
    rw [length]
    rcases listed with ⟨listed, -⟩ | rfl
    · exact archivable.isThere other listed
    · exact isThere

end IsArchivable

theorem Built.isArchivable (built : Built store) : store.IsArchivable := by
  induction built with
  | empty =>
      exact .empty
  | make _ savable ih =>
      exact ih.add ⟨savable, rfl, PermissionTree.isTidy_leaf none⟩
  | set _ id path permit ih =>
      exact ih.setPermit id path permit
  | register _ isThere ih =>
      exact ih.register isThere

/-! ## Restoring one group after the other -/

theorem save_eq (store : PermissionStore) :
    store.save = .map [("groups",
      .list (store.groups.filterMap fun id => (store.holder? id).map Holder.saved))] := by
  have same : ∀ id, ((store.holder? id).map fun holder =>
      Value.map (("name", .text (store.nameOf id)) :: savedFields holder)) =
        (store.holder? id).map Holder.saved := by
    intro id
    rw [nameOf]
    cases store.holder? id <;> rfl
  simp only [save, same]

theorem set_add (store : PermissionStore) (first second : Permissible) :
    (store.add first).2.set store.permissibles.length second = (store.add second).2 := by
  simp [add, set]

/-- A new holder is restored from what a holder of its kind was saved as. -/
theorem load_saved {holder : Holder} (savable : holder.IsSavable) (copies : PermissionStore) :
    (copies.add (.holder (.new holder.kind))).2.load copies.permissibles.length holder.saved =
      (.ok (), (copies.add (.holder holder.restored)).2) := by
  have permissions : (savedField holder.saved "permissions" (.list []) >>= itemsOf) =
      .ok holder.tree.flatten := rfl
  have found : (copies.add (.holder (.new holder.kind))).2.get? copies.permissibles.length =
      some (.holder (.new holder.kind)) := by
    simp [add, get?]
  have restores : PermissionTree.unflatten holder.tree.flatten (Holder.new holder.kind).tree =
      (.ok (), holder.tree.prune) := by
    have empty : (Holder.new holder.kind).tree = .leaf holder.tree.name := by
      rw [savable.root]
      rfl
    rw [empty]
    exact PermissionTree.unflatten_flatten savable.tidy
  rw [load, permissions]
  simp only [holder?_eq_some_iff.2 found, restores]
  rw [updateHolder_invalidate_eq found, set_add]
  rcases holder with ⟨_ | _ | _, _, _, _⟩ <;> rfl

theorem madeGroup_of_load {data role : Value} {name : String} {kind : HolderKind}
    {loaded : PermissionStore} (read : savedField data "roleId" .null = .ok role)
    (named : savedName data = .ok name)
    (isKind : kind = if role.isNull then .group name else .roleGroup name role)
    (loads : (store.add (.holder (.new kind))).2.load store.permissibles.length data =
      (.ok (), loaded)) :
    store.madeGroup data = (.ok store.permissibles.length, loaded) := by
  have made : (if role.isNull then store.addGroup name else store.addRoleGroup name role) =
      store.add (.holder (.new kind)) := by
    rw [isKind]
    split <;> rfl
  have number : (store.add (.holder (.new kind))).1 = store.permissibles.length := rfl
  rw [madeGroup, read, named]
  dsimp only
  rw [made, number, loads]

/-- What a group was saved as makes a group of the same name and kind. -/
theorem madeGroup_saved {holder : Holder} (savable : holder.IsSavable)
    (copies : PermissionStore) :
    copies.madeGroup holder.saved =
      (.ok copies.permissibles.length, (copies.add (.holder holder.restored)).2) := by
  have loads := load_saved savable copies
  have kind := savable.kind
  rcases holder with ⟨_ | name | ⟨name, role⟩, tree, inherits, cache⟩
  · cases kind
  · exact madeGroup_of_load rfl rfl rfl loads
  · rcases kind with ⟨key, isKey⟩
    have present : role.isNull = false := by
      cases role with
      | null =>
          cases isKey
      | _ =>
          rfl
    have read : savedField (Holder.saved ⟨.roleGroup name role, tree, inherits, cache⟩) "roleId"
        .null = .ok role := rfl
    have isKind : HolderKind.roleGroup name role =
        if role.isNull then .group name else .roleGroup name role := by
      rw [present]
      rfl
    exact madeGroup_of_load read rfl isKind loads

/-- A group that was saved is loaded by registering it as it comes back. -/
theorem loadGroup_saved {holder : Holder} (savable : holder.IsSavable)
    (copies : PermissionStore) :
    copies.loadGroup holder.saved =
      (copies.add (.holder holder.restored)).2.register copies.permissibles.length := by
  rw [loadGroup_eq, madeGroup_saved savable]

/-- A group of one store has come back in another one. -/
def IsCopy (store copies : PermissionStore) (id copy : Nat) : Prop :=
  ∃ holder, store.holder? id = some holder ∧
    copies.table[copy]? = some (.holder holder.restored)

theorem IsCopy.nameOf_eq {id copy : Nat} (isCopy : IsCopy store copies id copy) :
    copies.nameOf copy = store.nameOf id := by
  rcases isCopy with ⟨holder, found, copied⟩
  rcases holder?_of_table copied with ⟨other, found', same⟩
  have kind : other.kind = holder.kind := (Holder.mk.inj same).1
  rw [PermissionStore.nameOf_eq, PermissionStore.nameOf_eq, kind?, kind?, found, found',
    Option.map_some, Option.map_some, kind]

theorem IsCopy.inside {id copy : Nat} (isCopy : IsCopy store copies id copy) :
    copy < copies.table.length := by
  rcases isCopy with ⟨holder, -, copied⟩
  exact (List.getElem?_eq_some_iff.1 copied).1

theorem IsCopy.congr {id copy : Nat} (isCopy : IsCopy store before id copy)
    (same : after.table = before.table) : IsCopy store after id copy := by
  rw [IsCopy, same]
  exact isCopy

theorem IsCopy.add {id copy : Nat} (isCopy : IsCopy store copies id copy)
    (permissible : Permissible) : IsCopy store (copies.add permissible).2 id copy := by
  have inside := isCopy.inside
  rcases isCopy with ⟨holder, found, copied⟩
  exact ⟨holder, found, by rw [table_add, List.getElem?_append_left inside, copied]⟩

theorem mem_of_forall₂ {α β : Type} {R : α → β → Prop} {xs : List α} {ys : List β}
    (related : List.Forall₂ R xs ys) {y : β} (listed : y ∈ ys) : ∃ x ∈ xs, R x y := by
  induction related with
  | nil =>
      cases listed
  | cons first _ ih =>
      rcases List.mem_cons.1 listed with rfl | listed
      · exact ⟨_, List.mem_cons_self, first⟩
      · rcases ih listed with ⟨x, isListed, related⟩
        exact ⟨x, List.mem_cons_of_mem _ isListed, related⟩

theorem names_eq {ids copied : List Nat} (isCopy : List.Forall₂ (IsCopy store copies) ids copied) :
    copied.map copies.nameOf = ids.map store.nameOf := by
  induction isCopy with
  | nil =>
      rfl
  | cons first _ ih =>
      rw [List.map_cons, List.map_cons, first.nameOf_eq, ih]

/-- A group whose name is not among those that have come back comes back after them. -/
theorem loadGroup_after {done ids : List Nat} (enrolls : Enrolls copies ids copies)
    (isCopy : List.Forall₂ (IsCopy store copies) done copies.groups) {holder : Holder}
    (found : store.holder? id = some holder) (savable : holder.IsSavable)
    (isNew : store.nameOf id ∉ done.map store.nameOf) :
    ∃ next, copies.loadGroup holder.saved = (.ok (), next) ∧ (∃ ids, Enrolls next ids next) ∧
      List.Forall₂ (IsCopy store next) (done ++ [id]) next.groups := by
  rw [loadGroup_saved savable, ← length_table]
  generalize position : copies.table.length = new
  generalize adds : (copies.add (.holder holder.restored)).2 = added
  have sameGroups : added.groups = copies.groups := by rw [← adds]; rfl
  have isCopy' : List.Forall₂ (IsCopy store added) done copies.groups := by
    rw [← adds]
    exact isCopy.imp fun _ _ copied => copied.add _
  have isLast : IsCopy store added id new := by
    refine ⟨holder, found, ?_⟩
    rw [← adds, table_add, ← position, List.getElem?_concat_length]
    rfl
  have enrolls' : Enrolls added ids added := by
    refine enrolls.transfer sameGroups (by rw [← adds]; rfl) fun other listed => ?_
    rcases mem_of_forall₂ isCopy listed with ⟨_, -, copied⟩
    rw [kind?_eq, kind?_eq, ← adds, table_add, List.getElem?_append_left copied.inside]
  have isGroup : added.IsGroup new := by
    rcases isLast with ⟨_, found', copied⟩
    cases found.symm.trans found'
    apply isGroup_of_savable _ savable.kind
    rw [kind?_eq, copied]
    rfl
  have apart : added.displaced? new = none := by
    rw [Option.eq_none_iff_forall_ne_some]
    intro old displaced
    rcases enrolls'.displaced?_iff.1 displaced with ⟨isOld, sameName⟩
    rw [sameGroups] at isOld
    apply isNew
    rw [← names_eq isCopy', ← isLast.nameOf_eq, ← sameName]
    exact List.mem_map_of_mem isOld
  have table := enrolls'.registered_table isGroup
  have groups : (added.register new).2.groups = copies.groups ++ [new] := by
    rw [enrolls'.registered_groups isGroup, spared, apart, Option.elim_none, sameGroups]
  have registers := congrArg Prod.fst (enrolls'.register_eq isGroup)
  refine ⟨(added.register new).2, Prod.ext registers rfl,
    ⟨_, (enrolls'.register isGroup).transfer rfl rfl fun _ _ => rfl⟩, ?_⟩
  rw [groups]
  exact List.rel_append (isCopy'.imp fun _ _ copied => copied.congr table)
    (.cons (isLast.congr table) .nil)

/-- The groups that are left to restore are restored after those that have come back. -/
theorem loadGroups_saved (archivable : store.IsArchivable) {done rest : List Nat}
    (all : store.groups = done ++ rest) {ids : List Nat} (enrolls : Enrolls copies ids copies)
    (isCopy : List.Forall₂ (IsCopy store copies) done copies.groups) :
    ∃ loaded, loadGroups (rest.filterMap fun id => (store.holder? id).map Holder.saved) copies =
        (.ok (), loaded) ∧
      List.Forall₂ (IsCopy store loaded) store.groups loaded.groups := by
  induction rest generalizing done copies ids with
  | nil =>
      rw [List.append_nil] at all
      exact ⟨copies, rfl, all ▸ isCopy⟩
  | cons id rest ih =>
      have listed : id ∈ store.groups := by
        rw [all]
        exact List.mem_append_right _ List.mem_cons_self
      have isNew : store.nameOf id ∉ done.map store.nameOf := by
        rcases archivable.enrolls with ⟨_, registered⟩
        have once := registered.once
        rw [all, List.map_append, List.nodup_append, List.map_cons] at once
        exact fun earlier => once.2.2 _ earlier _ List.mem_cons_self rfl
      rcases archivable.holder? (archivable.isThere id listed) with ⟨holder, found, savable⟩
      rcases loadGroup_after enrolls isCopy found savable isNew with
        ⟨next, loads, ⟨_, enrolls'⟩, copied⟩
      rcases ih (by rw [all, List.append_assoc]; rfl) enrolls' copied with ⟨loaded, goesOn, copied'⟩
      refine ⟨loaded, ?_, copied'⟩
      rw [List.filterMap_cons_some (by rw [found]; rfl), loadGroups, loads]
      exact goesOn

/-! ## Everything comes back -/

/-- A group has come back with its kind, and its own tree answers as before. -/
def IsRestored (store loaded : PermissionStore) (id copy : Nat) : Prop :=
  ∃ own other, store.holder? id = some own ∧ loaded.holder? copy = some other ∧
    other.kind = own.kind ∧
    ∀ path fallback, other.tree.check fallback path = own.tree.check fallback path

theorem IsCopy.isRestored (archivable : store.IsArchivable) {copy : Nat}
    (isCopy : IsCopy store copies id copy) : IsRestored store copies id copy := by
  rcases isCopy with ⟨holder, found, copied⟩
  have isThere : id < store.permissibles.length :=
    (List.getElem?_eq_some_iff.1 (holder?_eq_some_iff.1 found)).1
  rcases archivable.holder? isThere with ⟨_, found', savable⟩
  cases found.symm.trans found'
  rcases holder?_of_table copied with ⟨other, found', same⟩
  rcases Holder.mk.inj same with ⟨kind, tree, -⟩
  refine ⟨holder, other, found, found', kind, fun path fallback => ?_⟩
  have view : other.tree.permitAt = holder.tree.permitAt := by
    rw [tree]
    exact funext (PermissionTree.permitAt_prune savable.tidy)
  rw [PermissionTree.check_eq_deepest, PermissionTree.check_eq_deepest, view]

/-- A group that has come back is saved as it was. -/
theorem IsCopy.saved_eq {copy : Nat} (isCopy : IsCopy store copies id copy) :
    (copies.holder? copy).map Holder.saved = (store.holder? id).map Holder.saved := by
  rcases isCopy with ⟨holder, found, copied⟩
  rcases holder?_of_table copied with ⟨other, found', same⟩
  rcases Holder.mk.inj same with ⟨kind, tree, -⟩
  rw [found, found', Option.map_some, Option.map_some, Holder.saved, Holder.saved, savedFields,
    savedFields, tree, kind, PermissionTree.flatten_prune, Holder.name?, Holder.name?, kind]

theorem filterMap_saved_eq {ids copied : List Nat}
    (isCopy : List.Forall₂ (IsCopy store copies) ids copied) :
    (copied.filterMap fun copy => (copies.holder? copy).map Holder.saved) =
      ids.filterMap fun id => (store.holder? id).map Holder.saved := by
  induction isCopy with
  | nil =>
      rfl
  | cons first _ ih =>
      rw [List.filterMap_cons, List.filterMap_cons, first.saved_eq, ih]

/-- What is saved of groups restores them in a manager in which nothing is registered, in the same
order and with the same answers, and they are saved as the same document again. -/
theorem Built.loadAll_save (built : Built store) (unused : fresh.IsUnused) :
    ∃ loaded, fresh.loadAll store.save = (.ok (), loaded) ∧
      List.Forall₂ (IsRestored store loaded) store.groups loaded.groups ∧
      loaded.save = store.save := by
  have archivable := built.isArchivable
  have start : List.Forall₂ (IsCopy store fresh) [] fresh.groups := by
    rw [unused.groups]
    exact .nil
  rcases loadGroups_saved archivable rfl unused.enrolls start with ⟨loaded, loads, copied⟩
  refine ⟨loaded, ?_, ?_, ?_⟩
  · rw [save_eq]
    exact loads
  · exact copied.imp fun _ _ isCopy => isCopy.isRestored archivable
  · rw [save_eq, save_eq, filterMap_saved_eq copied]

namespace Keepsake

/-- A group for a role, with a permit below a segment that stays and one that was taken back. -/
def moderators : PermissionStore :=
  let made := (empty.add (.holder (.new (.roleGroup "mods" (.int 1))))).2
  let allowed := made.setPermit 0 (PermissionPath.ofText "admin.*.kick") .allow
  let reset := allowed.setPermit 0 (PermissionPath.ofText "chat..read") .none
  (reset.register 0).2

theorem built : Built moderators := by
  have savable : (HolderKind.roleGroup "mods" (.int 1)).IsSavable := ⟨.number 1, rfl⟩
  exact .register (.set (.set (.make .empty savable) 0 "admin.*.kick" .allow) 0 "chat..read" .none)
    Nat.zero_lt_one

theorem moderators_come_back :
    moderators.groups = [0] ∧ ∃ loaded, empty.loadAll moderators.save = (.ok (), loaded) ∧
      List.Forall₂ (IsRestored moderators loaded) moderators.groups loaded.groups ∧
      loaded.save = moderators.save := by
  have unused : empty.IsUnused := ⟨rfl, rfl, rfl⟩
  exact ⟨by decide +kernel, built.loadAll_save unused⟩

end Keepsake

end PermissionStore

end Steward
