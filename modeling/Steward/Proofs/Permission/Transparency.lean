import Mathlib.Data.List.Induction
import Steward.Proofs.Permission.Members

/-!
# What members answer, along a history

A manager starts out empty.  Groups are made, changed and registered, documents are loaded, members
asked for and taken over anew, and anything is checked.  A history is a list of such calls, those
that fail among them.

`transparent_iff` says when keeping anything can be seen.  Throughout a history the permissible of a
member answers what its groups answer at that moment, exactly if no registration of the history
strands a member.
-/

namespace Steward

/-- A call on a manager of permissions, on one of its groups, or on anything permissions can be
checked against. -/
inductive ManagerCall where
  | make (kind : HolderKind)
  | unite (groups : List Nat)
  | on (id : Nat) (call : HolderCall)
  | caching (id : Nat) (enabled : Bool)
  | register (id : Nat)
  | load (document : Value)
  | forMember (account : Account)
  | invalidateMember (account : Account)

namespace PermissionStore

variable {store before after : PermissionStore} {id : Nat}

/-! ## Loading -/

/-- The saved groups of a document. -/
def savedGroups (document : Value) : List Value :=
  if !document.isTruthy then []
  else
    match savedField document "groups" (.list []) >>= itemsOf with
    | .error _ => []
    | .ok groups => groups

theorem loadAll_eq (store : PermissionStore) (document : Value) :
    (store.loadAll document).2 = (loadGroups (savedGroups document) store).2 := by
  rw [loadAll, savedGroups]
  split
  · rfl
  · rcases savedField document "groups" (.list []) >>= itemsOf with failure | groups
    · rfl
    · rfl

theorem Minds.madeGroup (store : PermissionStore) (data : Value) :
    Minds store (store.madeGroup data).2 := by
  rw [PermissionStore.madeGroup]
  split
  · exact refl store
  · exact refl store
  · rename_i role name _ _
    have made : Minds store
        (if role.isNull then store.addGroup name else store.addRoleGroup name role).2 := by
      split
      · exact add rfl store
      · exact add rfl store
    dsimp only
    generalize (if role.isNull then store.addGroup name else store.addRoleGroup name role) = added
      at made ⊢
    have loaded := made.trans (load added.2 added.1 data)
    split
    · rename_i failed
      rw [failed] at loaded
      exact loaded
    · rename_i read
      rw [read] at loaded
      exact loaded

/-- The groups that are registered when saved groups are loaded, each with the store that the
registration finds. -/
def loadedRegistrations : List Value → PermissionStore → List (PermissionStore × Nat)
  | [], _ => []
  | data :: rest, store =>
    match store.madeGroup data with
    | (.error _, _) => []
    | (.ok id, made) =>
      (made, id) ::
        match made.register id with
        | (.error _, _) => []
        | (.ok _, next) => loadedRegistrations rest next

/-- Loading a saved group and the ones after it: the group can not be made, or can not be
registered, or is there and the others follow. -/
theorem loadGroups_cons_cases (data : Value) (rest : List Value) (store : PermissionStore) :
    (∃ failure made, store.madeGroup data = (.error failure, made) ∧
      loadGroups (data :: rest) store = (.error failure, made) ∧
      loadedRegistrations (data :: rest) store = []) ∨
    (∃ id made failure next, store.madeGroup data = (.ok id, made) ∧
      made.register id = (.error failure, next) ∧
      loadGroups (data :: rest) store = (.error failure, next) ∧
      loadedRegistrations (data :: rest) store = [(made, id)]) ∨
    ∃ id made next, store.madeGroup data = (.ok id, made) ∧ made.register id = (.ok (), next) ∧
      loadGroups (data :: rest) store = loadGroups rest next ∧
      loadedRegistrations (data :: rest) store = (made, id) :: loadedRegistrations rest next := by
  rw [loadGroups, loadGroup_eq, loadedRegistrations]
  rcases store.madeGroup data with ⟨failure | id, made⟩
  · exact .inl ⟨failure, made, rfl, rfl, rfl⟩
  · right
    dsimp only
    rcases registers : made.register id with ⟨failure | _, next⟩
    · exact .inl ⟨id, made, failure, next, rfl, registers, rfl, rfl⟩
    · exact .inr ⟨id, made, next, rfl, registers, rfl, rfl⟩

end PermissionStore

namespace ManagerCall

open PermissionStore

/-- What a call makes of the store, whether it fails or not. -/
def apply (store : PermissionStore) : ManagerCall → PermissionStore
  | .make kind => (store.add (.holder (.new kind))).2
  | .unite groups => (store.add (.union groups)).2
  | .on id call => (call.run id store).2
  | .caching id enabled => store.setCaching id enabled
  | .register id => (store.register id).2
  | .load document => (store.loadAll document).2
  | .forMember account => (store.forMember account).2
  | .invalidateMember account => (store.invalidateMember account).2

/-- The groups that a call registers, each with the store that the registration finds. -/
def registrations (store : PermissionStore) : ManagerCall → List (PermissionStore × Nat)
  | .register id => [(store, id)]
  | .load document => loadedRegistrations (savedGroups document) store
  | _ => []

/-- The account that is given for a member after a call: the one that it was first asked for with,
until it is taken over anew. -/
def given (key : String) (last : Option Account) : ManagerCall → Option Account
  | .forMember account => if account.memberKey = some key then last <|> some account else last
  | .invalidateMember account =>
    if account.memberKey = some key then last.map fun _ => account else last
  | _ => last

/-- The store after the calls of a history. -/
def runAll (calls : List ManagerCall) : PermissionStore :=
  calls.foldl apply .empty

/-- The account that was last given for a member in a history. -/
def lastGiven (calls : List ManagerCall) (key : String) : Option Account :=
  calls.foldl (given key) none

end ManagerCall

namespace PermissionStore

variable {store before after : PermissionStore} {id : Nat} {last : String → Option Account}

/-! ## Which account a member has -/

theorem memberAt?_add_member (store : PermissionStore) (account : Account) (id : Nat) :
    (store.add (.member account none)).2.memberAt? id =
      if id = store.permissibles.length then some account else store.memberAt? id := by
  rw [memberAt?, memberAt?, get?, add, get?, List.getElem?_append]
  split
  · rename_i inside
    rw [if_neg (Nat.ne_of_lt inside)]
  · rename_i outside
    rw [List.getElem?_singleton, List.getElem?_eq_none (Nat.le_of_not_lt outside)]
    by_cases isIt : id = store.permissibles.length
    · rw [if_pos (by omega), if_pos isIt]
      rfl
    · rw [if_neg (by omega), if_neg isIt]

theorem memberAt?_set_member {former : Account} (isMember : store.memberAt? id = some former)
    (account : Account) (other : Nat) :
    (store.set id (.member account none)).memberAt? other =
      if other = id then some account else store.memberAt? other := by
  rcases memberAt?_eq_some_iff.1 isMember with ⟨kept, found⟩
  split
  · rename_i isIt
    rw [isIt, memberAt?, get?_set_self found]
    rfl
  · rename_i differs
    rw [memberAt?, get?, set, List.getElem?_set_ne (Ne.symm differs)]
    rfl

/-- Each member key that was asked for has its own permissible, with the account that was last given
for it. -/
structure Serves (last : String → Option Account) (store : PermissionStore) : Prop where
  known : ∀ key id, store.members.get? key = some id →
    ∃ account, store.memberAt? id = some account ∧ account.memberKey = some key ∧
      last key = some account
  unknown : ∀ key, store.members.get? key = none → last key = none
  hasKeys : store.HasKeys

namespace Serves

theorem congr (serves : Serves last before) (members : after.members = before.members)
    (accounts : after.memberAt? = before.memberAt?) : Serves last after where
  known := by
    rw [members, accounts]
    exact serves.known
  unknown := by
    rw [members]
    exact serves.unknown
  hasKeys := by
    rw [HasKeys, members, accounts]
    exact serves.hasKeys

theorem minds (serves : Serves last before) (minds : Minds before after) : Serves last after :=
  serves.congr minds.members minds.accounts

theorem register (serves : Serves last store) (id : Nat) : Serves last (store.register id).2 :=
  serves.congr (store.register_members id).1 (store.register_members id).2

theorem loadGroups (serves : Serves last store) (groups : List Value) :
    Serves last (loadGroups groups store).2 := by
  induction groups generalizing store with
  | nil =>
      exact serves
  | cons data rest ih =>
      have made := serves.minds (.madeGroup store data)
      rcases loadGroups_cons_cases data rest store with
        ⟨failure, made', makes, loads, -⟩ | ⟨id, made', failure, next, makes, registers, loads, -⟩ |
          ⟨id, made', next, makes, registers, loads, -⟩
      · rw [loads]
        rw [makes] at made
        exact made
      · rw [loads]
        rw [makes] at made
        have registered := made.register id
        rw [registers] at registered
        exact registered
      · rw [loads]
        rw [makes] at made
        have registered := made.register id
        rw [registers] at registered
        exact ih registered

/-- An account is given for a member, which has a permissible to itself or gets one. -/
theorem give (serves : Serves last before) {account : Account} {key : String}
    (isKey : account.memberKey = some key)
    (members : ∀ other, after.members.get? other =
      if key = other then some id else before.members.get? other)
    (accounts : ∀ other, after.memberAt? other =
      if other = id then some account else before.memberAt? other)
    (only : ∀ other, before.members.get? other = some id → other = key)
    (kept : ∀ other, before.members.get? key = some other → other = id) :
    Serves (fun other => if key = other then some account else last other) after where
  known := by
    intro other place isId
    rw [members] at isId
    split at isId
    · rename_i isIt
      cases isId
      exact ⟨account, (accounts _).trans (if_pos rfl), isIt ▸ isKey, if_pos isIt⟩
    · rename_i differs
      rcases serves.known other place isId with ⟨former, isMember, isKey', given⟩
      have another : place ≠ id := by
        rintro rfl
        exact differs (only other isId).symm
      exact ⟨former, (accounts place).trans ((if_neg another).trans isMember), isKey',
        (if_neg differs).trans given⟩
  unknown := by
    intro other isNew
    rw [members] at isNew
    split at isNew
    · cases isNew
    · rename_i differs
      exact (if_neg differs).trans (serves.unknown other isNew)
  hasKeys := by
    intro place former isMember
    rw [accounts] at isMember
    split at isMember
    · rename_i isIt
      exact ⟨key, (members key).trans ((if_pos rfl).trans (congrArg some isIt.symm))⟩
    · rename_i another
      rcases serves.hasKeys place former isMember with ⟨other, isId⟩
      have differs : key ≠ other := by
        rintro rfl
        exact another (kept place isId)
      exact ⟨other, (members other).trans ((if_neg differs).trans isId)⟩

theorem forMember (serves : Serves last store) (account : Account) :
    Serves (fun key => ManagerCall.given key (last key) (.forMember account))
      (store.forMember account).2 := by
  rw [PermissionStore.forMember]
  cases isKey : account.memberKey with
  | none =>
      simpa only [ManagerCall.given, isKey, reduceCtorEq, if_false] using serves
  | some key =>
      simp only [ManagerCall.given, isKey, Option.some.injEq]
      cases found : store.members.get? key with
      | some id =>
          rcases serves.known key id found with ⟨former, -, -, given⟩
          have same : (fun other => if key = other then last other <|> some account
              else last other) = last := by
            funext other
            split
            · rename_i isIt
              rw [← isIt, given]
              rfl
            · rfl
          rw [same]
          exact serves
      | none =>
          have new : (fun other => if key = other then last other <|> some account
              else last other) = fun other => if key = other then some account else last other := by
            funext other
            split
            · rename_i isIt
              rw [← isIt, serves.unknown key found]
              rfl
            · rfl
          rw [new]
          have outside : store.memberAt? store.permissibles.length = none := by
            rw [memberAt?, get?, List.getElem?_eq_none (Nat.le_refl _)]
            rfl
          refine serves.give isKey (fun other => OrderedMap.get?_insert ..)
            (memberAt?_add_member store account) ?_ ?_
          · intro other isId
            rcases serves.known other _ isId with ⟨former, isMember, -⟩
            cases outside.symm.trans isMember
          · intro other isId
            cases found.symm.trans isId

theorem invalidateMember (serves : Serves last store) (account : Account) :
    Serves (fun key => ManagerCall.given key (last key) (.invalidateMember account))
      (store.invalidateMember account).2 := by
  rw [PermissionStore.invalidateMember]
  cases isKey : account.memberKey with
  | none =>
      simpa only [ManagerCall.given, isKey, reduceCtorEq, if_false] using serves
  | some key =>
      simp only [ManagerCall.given, isKey, Option.some.injEq]
      cases found : store.members.get? key with
      | none =>
          have same : (fun other => if key = other then (last other).map fun _ => account
              else last other) = last := by
            funext other
            split
            · rename_i isIt
              rw [← isIt, serves.unknown key found]
              rfl
            · rfl
          rw [same]
          exact serves
      | some id =>
          rcases serves.known key id found with ⟨former, isMember, isKey', given⟩
          have anew : (fun other => if key = other then (last other).map fun _ => account
              else last other) = fun other => if key = other then some account else last other := by
            funext other
            split
            · rename_i isIt
              rw [← isIt, given]
              rfl
            · rfl
          rw [anew]
          have members : ∀ other, store.members.get? other =
              if key = other then some id else store.members.get? other := by
            intro other
            split
            · rename_i isIt
              exact isIt ▸ found
            · rfl
          refine serves.give isKey members (memberAt?_set_member isMember account) ?_ ?_
          · -- No other key leads to the permissible, as its account has one key only.
            intro other isId
            rcases serves.known other id isId with ⟨_, isMember', isKey'', -⟩
            cases isMember.symm.trans isMember'
            exact Option.some.inj (isKey''.symm.trans isKey')
          · intro other isId
            exact Option.some.inj (isId.symm.trans found)

/-- Along every call the accounts of members are those that were last given for them. -/
theorem apply (serves : Serves last store) (call : ManagerCall) :
    Serves (fun key => call.given key (last key)) (call.apply store) := by
  cases call with
  | make kind =>
      exact serves.minds (.add rfl store)
  | unite groups =>
      exact serves.minds (.add rfl store)
  | on id call =>
      exact serves.minds (.run id call store)
  | caching id enabled =>
      exact serves.minds (.updateHolder ..)
  | register id =>
      exact serves.register id
  | load document =>
      rw [ManagerCall.apply, loadAll_eq]
      exact serves.loadGroups _
  | forMember account =>
      exact serves.forMember account
  | invalidateMember account =>
      exact serves.invalidateMember account

end Serves

theorem serves_empty : Serves (fun _ => none) empty where
  known := nofun
  unknown := fun _ _ => rfl
  hasKeys := nofun

theorem lastGiven_concat (calls : List ManagerCall) (call : ManagerCall) :
    ManagerCall.lastGiven (calls ++ [call]) =
      fun key => call.given key (ManagerCall.lastGiven calls key) := by
  funext key
  exact List.foldl_concat ..

theorem runAll_concat (calls : List ManagerCall) (call : ManagerCall) :
    ManagerCall.runAll (calls ++ [call]) = call.apply (ManagerCall.runAll calls) := by
  exact List.foldl_concat ..

theorem serves_runAll (calls : List ManagerCall) :
    Serves (ManagerCall.lastGiven calls) (ManagerCall.runAll calls) := by
  induction calls using List.reverseRecOn with
  | nil =>
      exact serves_empty
  | append_singleton calls call ih =>
      rw [runAll_concat, lastGiven_concat]
      exact ih.apply call

/-! ## What members keep -/

namespace IsFresh

theorem forMember (fresh : store.IsFresh) (account : Account) :
    (store.forMember account).2.IsFresh := by
  rw [PermissionStore.forMember]
  split
  · exact fresh
  · split
    · exact fresh
    · intro id other groups found
      have found := (List.getElem?_append ..).symm.trans found
      split at found
      · exact fresh id other groups found
      · rw [List.getElem?_singleton] at found
        split at found
        · cases found
        · cases found

theorem invalidateMember (fresh : store.IsFresh) (account : Account) :
    (store.invalidateMember account).2.IsFresh := by
  rw [PermissionStore.invalidateMember]
  split
  · exact fresh
  · split
    · rename_i id _
      intro other former groups found
      rw [get?, set, List.getElem?_set] at found
      split at found
      · split at found
        · cases found
        · cases found
      · exact fresh other former groups found
    · exact fresh

/-- Of members that keep what they would look up, loading leaves some behind exactly if one of the
registrations strands one. -/
theorem loadGroups_iff (fresh : store.IsFresh) (serves : Serves last store) (groups : List Value) :
    (loadGroups groups store).2.IsFresh ↔
      ∀ registered ∈ loadedRegistrations groups store, ¬ registered.1.Strands registered.2 := by
  induction groups generalizing store with
  | nil =>
      simpa [loadGroups, loadedRegistrations] using fresh
  | cons data rest ih =>
      have minds := Minds.madeGroup store data
      rcases loadGroups_cons_cases data rest store with
        ⟨failure, made, makes, loads, registrations⟩ |
          ⟨id, made, failure, next, makes, registers, loads, registrations⟩ |
          ⟨id, made, next, makes, registers, loads, registrations⟩
      · rw [loads, registrations]
        rw [makes] at minds
        exact iff_of_true (minds.isFresh fresh) (by simp)
      · rw [loads, registrations]
        rw [makes] at minds
        have step := (minds.isFresh fresh).register_iff (serves.minds minds).hasKeys id
        rw [registers] at step
        simpa using step
      · rw [loads, registrations]
        rw [makes] at minds
        have step := (minds.isFresh fresh).register_iff (serves.minds minds).hasKeys id
        have spared := not_strands_of_ok (congrArg Prod.fst registers)
        have serves' := (serves.minds minds).register id
        rw [registers] at step serves'
        rw [ih (step.2 spared) serves']
        simp [spared]

/-- A call leaves members behind exactly if one of its registrations strands one. -/
theorem apply_iff (fresh : store.IsFresh) (serves : Serves last store) (call : ManagerCall) :
    (call.apply store).IsFresh ↔
      ∀ registered ∈ call.registrations store, ¬ registered.1.Strands registered.2 := by
  cases call with
  | make kind =>
      exact iff_of_true ((Minds.add rfl store).isFresh fresh) nofun
  | unite groups =>
      exact iff_of_true ((Minds.add rfl store).isFresh fresh) nofun
  | on id call =>
      exact iff_of_true ((Minds.run id call store).isFresh fresh) nofun
  | caching id enabled =>
      exact iff_of_true ((Minds.updateHolder store id _).isFresh fresh) nofun
  | register id =>
      rw [ManagerCall.apply, fresh.register_iff serves.hasKeys]
      simp [ManagerCall.registrations]
  | load document =>
      rw [ManagerCall.apply, loadAll_eq]
      exact fresh.loadGroups_iff serves _
  | forMember account =>
      exact iff_of_true (fresh.forMember account) nofun
  | invalidateMember account =>
      exact iff_of_true (fresh.invalidateMember account) nofun

end IsFresh

/-! ## What members answer -/

/-- The permissible of every member has the groups that the index of roles holds for the account
that was last given for the member, or is made for, and a check of it answers what they answer. -/
def AnswersAfresh (store : PermissionStore) (last : String → Option Account) : Prop :=
  ∀ account key, account.memberKey = some key →
    ∃ id after, store.forMember account = (.ok id, after) ∧
      (after.memberGroups id).1 = after.groupsFor ((last key).getD account) ∧
      ∀ path fallback, (after.check id path fallback).1 =
        after.evaluate (after.groupsFor ((last key).getD account)) path fallback

/-- Asking for a member gives the permissible that its key leads to then. -/
theorem exists_forMember {account : Account} {key : String}
    (isKey : account.memberKey = some key) (store : PermissionStore) :
    ∃ id after, store.forMember account = (.ok id, after) ∧ after.members.get? key = some id := by
  rw [forMember, isKey]
  dsimp only
  cases found : store.members.get? key with
  | some id =>
      exact ⟨id, store, rfl, found⟩
  | none =>
      exact ⟨_, _, rfl, OrderedMap.get?_insert_self ..⟩

theorem answersAfresh_iff (serves : Serves last store) :
    store.AnswersAfresh last ↔ store.IsFresh := by
  constructor
  · intro answers id account groups found
    have isMember := memberAt?_eq_some_iff.2 ⟨_, found⟩
    rcases serves.hasKeys id account isMember with ⟨key, isId⟩
    rcases serves.known key id isId with ⟨_, isMember', isKey, given⟩
    cases isMember.symm.trans isMember'
    rcases answers account key isKey with ⟨id', after, returns, looksUp, -⟩
    rw [forMember, isKey] at returns
    simp only [isId, Prod.mk.injEq, Except.ok.injEq] at returns
    rcases returns with ⟨rfl, rfl⟩
    rw [given, Option.getD_some, (memberGroups_eq found).1] at looksUp
    exact looksUp
  · intro fresh account key isKey
    have fresh' := fresh.forMember account
    have serves' := serves.forMember account
    rcases exists_forMember isKey store with ⟨id, after, returns, isId⟩
    refine ⟨id, after, returns, ?_⟩
    rw [returns] at fresh' serves'
    rcases serves'.known key id isId with ⟨given, isMember, -, isGiven⟩
    rw [ManagerCall.given, if_pos isKey] at isGiven
    have same : (last key).getD account = given := by
      cases before : last key with
      | none =>
          rw [before] at isGiven
          exact Option.some.inj isGiven
      | some former =>
          rw [before] at isGiven
          exact Option.some.inj isGiven
    rcases memberAt?_eq_some_iff.1 isMember with ⟨kept, isAt⟩
    have groups : kept.getD (after.groupsFor given) = after.groupsFor given := by
      cases kept with
      | none =>
          rfl
      | some groups =>
          exact fresh' id given groups isAt
    rw [same]
    refine ⟨(memberGroups_eq isAt).1.trans groups, fun path fallback => ?_⟩
    rw [check_member isAt, groups]

end PermissionStore

open PermissionStore

/-- Throughout a history every member answers what its groups answer at that moment, exactly if no
registration of the history strands a member. -/
theorem ManagerCall.transparent_iff (calls : List ManagerCall) :
    (∀ before, before <+: calls → (runAll before).AnswersAfresh (lastGiven before)) ↔
      ∀ before call, before ++ [call] <+: calls →
        ∀ registered ∈ call.registrations (runAll before), ¬ registered.1.Strands registered.2 := by
  have answers_iff : ∀ before, (runAll before).AnswersAfresh (lastGiven before) ↔
      (runAll before).IsFresh := fun before => answersAfresh_iff (serves_runAll before)
  simp only [answers_iff]
  constructor
  · intro fresh before call isPrefix
    have step := (fresh before ((List.prefix_append ..).trans isPrefix)).apply_iff
      (serves_runAll before) call
    rw [← step, ← runAll_concat]
    exact fresh _ isPrefix
  · intro spared before
    induction before using List.reverseRecOn with
    | nil =>
        intro _
        exact nofun
    | append_singleton before call ih =>
        intro isPrefix
        have fresh := ih ((List.prefix_append ..).trans isPrefix)
        rw [runAll_concat, fresh.apply_iff (serves_runAll before)]
        exact spared before call isPrefix

namespace ManagerCall.Stranded

/-- A member that has one role. -/
def member : Account := ⟨5, "someone", none, some ⟨100, [1], []⟩⟩

/-- A document with a group of the same name, whose role can be no key. -/
def document : Value :=
  .map [("groups", .list [.map [("name", .text "mods"), ("roleId", .list [.int 1])]])]

/-- The group of the role allows something, the member is asked about it, and the document is
loaded. -/
def history : List ManagerCall :=
  [.make (.roleGroup "mods" (.int 1)), .on 0 (.set ["kick"] .allow), .register 0,
    .forMember member, .on 1 (.check ["kick"] .deny), .load document]

/-- The member is still allowed what its role, which has no group any more, allowed. -/
theorem check_is_stale :
    member.memberKey = some "100.5" ∧ lastGiven history "100.5" = some member ∧
      ((runAll history).forMember member).1 = .ok 1 ∧
      ((runAll history).check 1 ["kick"] .deny).1 = .ok .allow ∧
      (runAll history).evaluate ((runAll history).groupsFor member) ["kick"] .deny = .ok .deny := by
  exact ⟨rfl, rfl, rfl, rfl, rfl⟩

end ManagerCall.Stranded

end Steward
