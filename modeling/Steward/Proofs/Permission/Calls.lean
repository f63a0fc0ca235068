import Steward.Permission.Groups
import Steward.Proofs.Permission.View

/-!
# Calls on a holder

A holder is changed and asked by calls, in any order.  What they do and answer is
a matter of the holder alone, as long as the permissibles that it inherits from
give steady answers: `Holder.step` says what a call makes of the holder, and the
store carries that out.

The inherited answers are taken as given here, so the results hold for holders
that inherit from groups, unions of groups or members, whatever these inherit from
in turn.
-/

namespace Steward

/-- A call on a holder. -/
inductive HolderCall where
  | set (path : PermissionPath) (permit : Permit)
  | addInherits (id : Nat)
  | removeInherits (id : Nat)
  | load (data : Value)
  | check (path : PermissionPath) (fallback : Permit)

namespace HolderCall

/-- A call inherits only from some permissibles. -/
def Within (inheritable : Nat → Prop) : HolderCall → Prop
  | .addInherits id => inheritable id
  | _ => True

/-- Make a call on a holder of a store; a check answers with a permit. -/
def run (object : Nat) :
    HolderCall → PermissionStore → Except Failure (Option Permit) × PermissionStore
  | .set path permit, store => (.ok none, store.setPermit object path permit)
  | .addInherits id, store => (.ok none, store.addInherits object id)
  | .removeInherits id, store =>
    let (outcome, store) := store.removeInherits object id
    (outcome.map fun _ => none, store)
  | .load data, store =>
    let (outcome, store) := store.load object data
    (outcome.map fun _ => none, store)
  | .check path fallback, store =>
    let (outcome, store) := store.check object path fallback
    (outcome.map some, store)

/-- Make calls in order, going on after those that fail. -/
def runAll (object : Nat) :
    List HolderCall → PermissionStore →
      List (Except Failure (Option Permit)) × PermissionStore
  | [], store => ([], store)
  | call :: rest, store =>
    let (answer, store) := call.run object store
    let (answers, store) := runAll object rest store
    (answer :: answers, store)

end HolderCall

/-! ## Inherited answers -/

/-- The first permit that is not open among the answers of some permissibles. -/
def inherited (answer : Nat → PermissionPath → Permit) (ids : List Nat)
    (path : PermissionPath) : Permit :=
  match ids with
  | [] => .none
  | id :: rest => (answer id path).orElse (inherited answer rest path)

/-- Permissibles that a holder may inherit from without their answers changing
meanwhile: as long as a store keeps what is assumed, each gives its answer, and
neither asking it nor any change of the holder ends that. -/
structure Steady
    (object size : Nat) (inheritable : Nat → Prop)
    (answer : Nat → PermissionPath → Permit) (holds : PermissionStore → Prop) : Prop where
  size_eq : ∀ store, holds store → store.permissibles.length = size
  asks : ∀ store, holds store → ∀ id, inheritable id → ∀ path, ∃ after,
    PermissionStore.permitWithin path size id store = (.ok (answer id path), after) ∧
      holds after ∧ after.get? object = store.get? object
  changes : ∀ store, holds store → ∀ holder, holds (store.set object (.holder holder))

theorem Steady.firstPermit_eq
    {object size : Nat} {inheritable : Nat → Prop} {answer : Nat → PermissionPath → Permit}
    {holds : PermissionStore → Prop} (steady : Steady object size inheritable answer holds)
    (path : PermissionPath) {ids : List Nat} (within : ∀ id ∈ ids, inheritable id)
    {store : PermissionStore} (kept : holds store) :
    ∃ after,
      PermissionStore.firstPermit (PermissionStore.permitWithin path size) ids store =
        (.ok (inherited answer ids path), after) ∧
      holds after ∧ after.get? object = store.get? object := by
  induction ids generalizing store with
  | nil =>
      exact ⟨store, rfl, kept, rfl⟩
  | cons id rest ih =>
      rcases steady.asks store kept id (within id List.mem_cons_self) path with
        ⟨between, asked, kept, same⟩
      cases found : answer id path with
      | none =>
          rcases ih (fun other member => within other (List.mem_cons_of_mem _ member)) kept with
            ⟨after, goesOn, kept, same'⟩
          refine ⟨after, ?_, kept, same'.trans same⟩
          simp [PermissionStore.firstPermit, asked, found, goesOn, inherited]
      | allow =>
          refine ⟨between, ?_, kept, same⟩
          simp [PermissionStore.firstPermit, asked, found, inherited, Permit.orElse]
      | deny =>
          refine ⟨between, ?_, kept, same⟩
          simp [PermissionStore.firstPermit, asked, found, inherited, Permit.orElse]

/-! ## What a call makes of a holder -/

namespace Holder

def invalidated (holder : Holder) : Holder :=
  { holder with cache := holder.cache.map PermissionTree.clear }

/-- Ask a holder, given what it inherits: its own tree decides first, then its
cache, and what is inherited is remembered. -/
def ask (answer : Nat → PermissionPath → Permit) (path : PermissionPath) (holder : Holder) :
    Permit × Holder :=
  let own := holder.tree.check .none path
  if own ≠ .none then (own, holder)
  else
    let cached := (holder.cache.map (PermissionTree.check .none path)).getD .none
    if cached ≠ .none then (cached, holder)
    else
      let found := inherited answer holder.inherits path
      if found = .none then (.none, holder)
      else (found, { holder with cache := holder.cache.map (PermissionTree.set found path) })

/-- Restore a holder from saved data; a fault in it leaves what came before. -/
def restore (data : Value) (holder : Holder) : Except Failure Unit × Holder :=
  match PermissionStore.savedField data "permissions" (.list []) >>= PermissionStore.itemsOf with
  | .error failure => (.error failure, holder)
  | .ok entries =>
    match PermissionTree.unflatten entries holder.tree with
    | (.error failure, tree) => (.error failure, { holder with tree := tree })
    | (.ok _, tree) =>
      let kind := match holder.kind with
        | .roleGroup name _ => .roleGroup name (data.getD "roleId")
        | kind => kind
      (.ok (), { holder with tree := tree, kind := kind }.invalidated)

/-- What a call answers and makes of a holder. -/
def step (answer : Nat → PermissionPath → Permit) :
    HolderCall → Holder → Except Failure (Option Permit) × Holder
  | .set path permit, holder =>
    (.ok none, { holder with tree := holder.tree.set permit path }.invalidated)
  | .addInherits id, holder =>
    (.ok none, { holder with inherits := holder.inherits ++ [id] }.invalidated)
  | .removeInherits id, holder =>
    if holder.inherits.contains id then
      (.ok none, { holder with inherits := holder.inherits.erase id }.invalidated)
    else (.error (.fault .wrongValue "not inherited"), holder)
  | .load data, holder => ((holder.restore data).1.map fun _ => none, (holder.restore data).2)
  | .check path fallback, holder =>
    (.ok (some ((holder.ask answer path).1.orElse fallback)), (holder.ask answer path).2)

def stepAll (answer : Nat → PermissionPath → Permit) :
    List HolderCall → Holder → List (Except Failure (Option Permit)) × Holder
  | [], holder => ([], holder)
  | call :: rest, holder =>
    let (outcome, holder) := holder.step answer call
    let (outcomes, holder) := stepAll answer rest holder
    (outcome :: outcomes, holder)

end Holder

/-! ## The store carries it out -/

namespace PermissionStore

theorem holder?_eq_some_iff {store : PermissionStore} {id : Nat} {holder : Holder} :
    store.holder? id = some holder ↔ store.get? id = some (.holder holder) := by
  unfold holder?
  split
  · rename_i found
    simp [found]
  · rename_i other
    constructor
    · intro impossible
      cases impossible
    · intro found
      exact absurd found (other holder)

theorem get?_set_self {store : PermissionStore} {id : Nat} {old : Permissible}
    (found : store.get? id = some old) (permissible : Permissible) :
    (store.set id permissible).get? id = some permissible := by
  have bound : id < store.permissibles.length := (List.getElem?_eq_some_iff.1 found).1
  simp [set, get?, bound]

theorem set_set (store : PermissionStore) (id : Nat) (first second : Permissible) :
    (store.set id first).set id second = store.set id second := by
  simp [set]

theorem updateHolder_eq {store : PermissionStore} {id : Nat} {holder : Holder}
    (found : store.get? id = some (.holder holder)) (f : Holder → Holder) :
    store.updateHolder id f = store.set id (.holder (f holder)) := by
  simp only [updateHolder, holder?_eq_some_iff.2 found]

theorem invalidate_eq {store : PermissionStore} {id : Nat} {holder : Holder}
    (found : store.get? id = some (.holder holder)) :
    store.invalidate id = store.set id (.holder holder.invalidated) := by
  simp only [invalidate, found]
  rfl

/-- A change of a holder with its cache forgotten. -/
theorem updateHolder_invalidate_eq {store : PermissionStore} {id : Nat} {holder : Holder}
    (found : store.get? id = some (.holder holder)) (f : Holder → Holder) :
    (store.updateHolder id f).invalidate id = store.set id (.holder (f holder).invalidated) := by
  rw [updateHolder_eq found, invalidate_eq (get?_set_self found _), set_set]

end PermissionStore

section

variable {object size : Nat} {inheritable : Nat → Prop}
  {answer : Nat → PermissionPath → Permit} {holds : PermissionStore → Prop}
  {store : PermissionStore} {holder : Holder}

/-- Asking a holder of a store is asking the holder, given what it inherits. -/
theorem Steady.permitWithin_eq
    (steady : Steady object size inheritable answer holds) (kept : holds store)
    (found : store.get? object = some (.holder holder))
    (within : ∀ id ∈ holder.inherits, inheritable id) (path : PermissionPath) :
    ∃ after,
      PermissionStore.permitWithin path (size + 1) object store =
        (.ok (holder.ask answer path).1, after) ∧
      holds after ∧ after.get? object = some (.holder (holder.ask answer path).2) := by
  simp only [PermissionStore.permitWithin, found, Holder.ask]
  split
  · exact ⟨store, rfl, kept, found⟩
  · split
    · exact ⟨store, rfl, kept, found⟩
    · rcases steady.firstPermit_eq path within kept with ⟨between, asked, kept, same⟩
      rw [asked]
      have foundBetween := same.trans found
      generalize inherited answer holder.inherits path = permit
      have remembers : between.remember object path permit = between.set object (.holder
          { holder with cache := holder.cache.map (PermissionTree.set permit path) }) := by
        rw [PermissionStore.remember, PermissionStore.updateHolder_eq foundBetween]
      cases permit with
      | none =>
          exact ⟨between, rfl, kept, foundBetween⟩
      | allow =>
          refine ⟨_, rfl, ?_, ?_⟩
          · rw [remembers]
            exact steady.changes between kept _
          · rw [remembers]
            exact PermissionStore.get?_set_self foundBetween _
      | deny =>
          refine ⟨_, rfl, ?_, ?_⟩
          · rw [remembers]
            exact steady.changes between kept _
          · rw [remembers]
            exact PermissionStore.get?_set_self foundBetween _

/-- A change of the holder keeps what is assumed. -/
theorem Steady.set_kept
    (steady : Steady object size inheritable answer holds) (kept : holds store)
    (found : store.get? object = some (.holder holder)) (next : Holder) :
    holds (store.set object (.holder next)) ∧
      (store.set object (.holder next)).get? object = some (.holder next) := by
  exact ⟨steady.changes store kept next, PermissionStore.get?_set_self found _⟩

theorem Steady.load_eq
    (steady : Steady object size inheritable answer holds) (kept : holds store)
    (found : store.get? object = some (.holder holder)) (data : Value) :
    ∃ after,
      store.load object data = ((holder.restore data).1, after) ∧
      holds after ∧ after.get? object = some (.holder (holder.restore data).2) := by
  rcases parsed : PermissionStore.savedField data "permissions" (.list []) >>=
    PermissionStore.itemsOf with failure | entries
  · refine ⟨store, ?_, kept, ?_⟩
    · simp only [PermissionStore.load, Holder.restore, parsed]
    · simp only [Holder.restore, parsed, found]
  · rcases read : PermissionTree.unflatten entries holder.tree with ⟨failure | _, tree⟩
    · have restored : holder.restore data = (.error failure, { holder with tree := tree }) := by
        simp only [Holder.restore, parsed, read]
      rw [restored]
      refine ⟨_, ?_, steady.set_kept kept found _⟩
      simp only [PermissionStore.load, parsed, PermissionStore.holder?_eq_some_iff.2 found, read]
      rw [PermissionStore.updateHolder_eq found]
    · refine ⟨_, ?_, steady.set_kept kept found _⟩
      simp only [PermissionStore.load, Holder.restore, parsed, read,
        PermissionStore.holder?_eq_some_iff.2 found]
      exact congrArg (Prod.mk (Except.ok ())) (PermissionStore.updateHolder_invalidate_eq found _)

/-- A call on a holder of a store does what it does to the holder. -/
theorem Steady.run_eq
    (steady : Steady object size inheritable answer holds) (kept : holds store)
    (found : store.get? object = some (.holder holder))
    (within : ∀ id ∈ holder.inherits, inheritable id) (call : HolderCall) :
    ∃ after,
      call.run object store = ((holder.step answer call).1, after) ∧
      holds after ∧ after.get? object = some (.holder (holder.step answer call).2) := by
  cases call with
  | set path permit =>
      refine ⟨_, ?_, steady.set_kept kept found _⟩
      rw [HolderCall.run, PermissionStore.setPermit,
        PermissionStore.updateHolder_invalidate_eq found]
      rfl
  | addInherits id =>
      refine ⟨_, ?_, steady.set_kept kept found _⟩
      rw [HolderCall.run, PermissionStore.addInherits,
        PermissionStore.updateHolder_invalidate_eq found]
      rfl
  | removeInherits id =>
      rw [HolderCall.run, PermissionStore.removeInherits,
        PermissionStore.holder?_eq_some_iff.2 found, Holder.step]
      dsimp only
      split
      · refine ⟨_, ?_, steady.set_kept kept found _⟩
        rw [PermissionStore.updateHolder_invalidate_eq found]
        rfl
      · exact ⟨store, rfl, kept, found⟩
  | load data =>
      rcases steady.load_eq kept found data with ⟨after, loaded, kept, foundAfter⟩
      refine ⟨after, ?_, kept, foundAfter⟩
      rw [HolderCall.run, loaded]
      rfl
  | check path fallback =>
      rcases steady.permitWithin_eq kept found within path with
        ⟨after, asked, keptAfter, foundAfter⟩
      refine ⟨after, ?_, keptAfter, foundAfter⟩
      rw [HolderCall.run, PermissionStore.check, steady.size_eq store kept, asked]
      rfl

theorem Holder.step_within (answer : Nat → PermissionPath → Permit) {call : HolderCall}
    (within : ∀ id ∈ holder.inherits, inheritable id) (callWithin : call.Within inheritable) :
    ∀ id ∈ (holder.step answer call).2.inherits, inheritable id := by
  cases call with
  | set path permit =>
      exact within
  | addInherits id =>
      intro other member
      rcases List.mem_append.1 member with earlier | added
      · exact within other earlier
      · rw [List.mem_singleton.1 added]
        exact callWithin
  | removeInherits id =>
      rw [Holder.step]
      split
      · intro other member
        exact within other (List.mem_of_mem_erase member)
      · exact within
  | load data =>
      simp only [Holder.step, Holder.restore]
      split
      · exact within
      · split
        · exact within
        · exact within
  | check path fallback =>
      simp only [Holder.step, Holder.ask]
      split
      · exact within
      · split
        · exact within
        · split
          · exact within
          · exact within

/-- Calls on a holder of a store answer what they answer on the holder. -/
theorem Steady.runAll_eq
    (steady : Steady object size inheritable answer holds) {calls : List HolderCall}
    (callsWithin : ∀ call ∈ calls, call.Within inheritable) (kept : holds store)
    (found : store.get? object = some (.holder holder))
    (within : ∀ id ∈ holder.inherits, inheritable id) :
    (HolderCall.runAll object calls store).1 = (holder.stepAll answer calls).1 := by
  induction calls generalizing store holder with
  | nil =>
      rfl
  | cons call rest ih =>
      rcases steady.run_eq kept found within call with ⟨after, ran, keptAfter, foundAfter⟩
      have goesOn := ih (fun other member => callsWithin other (List.mem_cons_of_mem _ member))
        keptAfter foundAfter
        (holder.step_within answer within (callsWithin call List.mem_cons_self))
      simp only [HolderCall.runAll, ran, Holder.stepAll, goesOn]

end

end Steward
