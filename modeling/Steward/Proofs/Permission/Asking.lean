import Mathlib.Data.Finset.Card
import Mathlib.Order.Interval.Finset.Nat
import Steward.Proofs.Permission.Calls

/-!
# Asking without an end

A permissible that does not decide by itself asks others, and a check gives up when the chain of
them gets longer than the table of permissibles.  That never cuts a chain off that has an end: if a
permissible has an answer at any depth, it has one at that depth (`answerWithin_eq`).

On the way from one permissible to the next, nothing changes but what members remember, and that is
what they would find anyway.  So the answers are a matter of what each permissible asks (`source?`),
and a member answers what its groups answer when they are checked one after the other
(`check_member`).
-/

namespace Steward

/-- What a permissible answers from. -/
inductive AnswerSource where
  | holder (holder : Holder)
  | groups (ids : List Nat)

/-- What a holder answers without asking others, open if it has to. -/
def Holder.decision (path : PermissionPath) (holder : Holder) : Permit :=
  (holder.tree.check .none path).orElse
    ((holder.cache.map (PermissionTree.check .none path)).getD .none)

/-- The first answer that is not open, if each of those that are asked before it has one. -/
def firstAnswer (answer : Nat → Option Permit) : List Nat → Option Permit
  | [] => some .none
  | id :: rest => if answer id = some .none then firstAnswer answer rest else answer id

theorem firstAnswer_mono {answer more : Nat → Option Permit}
    (extends_ : ∀ id permit, answer id = some permit → more id = some permit) {ids : List Nat}
    {permit : Permit} (found : firstAnswer answer ids = some permit) :
    firstAnswer more ids = some permit := by
  induction ids with
  | nil =>
      exact found
  | cons id rest ih =>
      rw [firstAnswer] at found ⊢
      by_cases isOpen : answer id = some .none
      · rw [if_pos isOpen] at found
        rw [if_pos (extends_ id .none isOpen)]
        exact ih found
      · rw [if_neg isOpen] at found
        have same := extends_ id permit found
        rw [found] at isOpen
        rw [same, if_neg isOpen]

/-- The answer for a path, unless a chain of those that are asked is longer than a depth. -/
def answerWithin (source? : Nat → Option AnswerSource) (path : PermissionPath) :
    Nat → Nat → Option Permit
  | 0, _ => none
  | depth + 1, id =>
    match source? id with
    | none => some .none
    | some (.holder holder) =>
      if holder.decision path = .none then
        firstAnswer (answerWithin source? path depth) holder.inherits
      else some (holder.decision path)
    | some (.groups ids) => firstAnswer (answerWithin source? path depth) ids

section

variable {source? : Nat → Option AnswerSource} {path : PermissionPath} {size : Nat}

theorem answerWithin_succ {depth id : Nat} {permit : Permit}
    (found : answerWithin source? path depth id = some permit) :
    answerWithin source? path (depth + 1) id = some permit := by
  induction depth generalizing id permit with
  | zero =>
      cases found
  | succ depth ih =>
      rw [answerWithin] at found ⊢
      cases asks : source? id with
      | none =>
          rw [asks] at found
          exact found
      | some asked =>
          rw [asks] at found
          cases asked with
          | holder holder =>
              dsimp only at found ⊢
              split
              · rename_i isOpen
                rw [if_pos isOpen] at found
                exact firstAnswer_mono (fun _ _ => ih) found
              · rename_i decides
                rw [if_neg decides] at found
                exact found
          | groups ids =>
              exact firstAnswer_mono (fun _ _ => ih) found

/-- Where one more step of depth gives no more answers, no further depth does. -/
theorem answerWithin_of_settled {depth : Nat}
    (settled : answerWithin source? path (depth + 1) = answerWithin source? path depth)
    (more : Nat) :
    answerWithin source? path (depth + more) = answerWithin source? path depth := by
  induction more with
  | zero =>
      rfl
  | succ more ih =>
      rw [← settled]
      funext id
      rw [← Nat.add_assoc, answerWithin, answerWithin, ih]

/-- The permissibles that have an answer at a depth. -/
private def answering (source? : Nat → Option AnswerSource) (path : PermissionPath)
    (size depth : Nat) : Finset Nat :=
  (Finset.range size).filter fun id => (answerWithin source? path depth id).isSome

private theorem answering_ssubset (bounded : ∀ id, size ≤ id → source? id = none) {depth : Nat}
    (unsettled : answerWithin source? path (depth + 2) ≠ answerWithin source? path (depth + 1)) :
    answering source? path size (depth + 1) ⊂ answering source? path size (depth + 2) := by
  rcases Function.ne_iff.1 unsettled with ⟨id, differs⟩
  have silent : answerWithin source? path (depth + 1) id = none := by
    rw [Option.eq_none_iff_forall_ne_some]
    intro permit found
    exact differs ((answerWithin_succ found).trans found.symm)
  have inside : id < size := by
    by_contra outside
    rw [answerWithin, bounded id (Nat.le_of_not_lt outside)] at silent
    cases silent
  rw [Finset.ssubset_iff_of_subset]
  · refine ⟨id, ?_, ?_⟩
    · rw [answering, Finset.mem_filter, Finset.mem_range]
      exact ⟨inside, Option.ne_none_iff_isSome.1 (silent ▸ differs)⟩
    · simp [answering, silent]
  · intro other member
    rw [answering, Finset.mem_filter] at member ⊢
    rcases Option.isSome_iff_exists.1 member.2 with ⟨permit, found⟩
    exact ⟨member.1, by rw [answerWithin_succ found]; rfl⟩

/-- A permissible that has an answer at any depth has it at the depth of the table. -/
theorem answerWithin_eq (bounded : ∀ id, size ≤ id → source? id = none) (more : Nat) :
    answerWithin source? path (size + 1 + more) = answerWithin source? path (size + 1) := by
  -- As long as there are more answers at each depth, at least one permissible is added.
  have grows : ∀ count ≤ size + 1,
      (∀ depth < count,
        answerWithin source? path (depth + 2) ≠ answerWithin source? path (depth + 1)) →
      count ≤ (answering source? path size (count + 1)).card := by
    intro count
    induction count with
    | zero =>
        simp
    | succ count ih =>
        intro bound unsettled
        have fewer := ih (Nat.le_of_succ_le bound) fun depth less =>
          unsettled depth (Nat.lt_succ_of_lt less)
        have larger := Finset.card_lt_card
          (answering_ssubset bounded (unsettled count (Nat.lt_succ_self count)))
        exact Nat.lt_of_le_of_lt fewer larger
  have settles : ∃ depth < size + 1,
      answerWithin source? path (depth + 2) = answerWithin source? path (depth + 1) := by
    by_contra! unsettled
    have many := grows (size + 1) (Nat.le_refl _) unsettled
    have few : (answering source? path size (size + 2)).card ≤ size :=
      (Finset.card_filter_le _ _).trans_eq (Finset.card_range size)
    exact absurd (many.trans few) (Nat.not_succ_le_self size)
  rcases settles with ⟨depth, bound, settled⟩
  have here := answerWithin_of_settled settled (size - depth)
  have there := answerWithin_of_settled settled (size - depth + more)
  rw [show depth + 1 + (size - depth) = size + 1 by omega] at here
  rw [show depth + 1 + (size - depth + more) = size + 1 + more by omega] at there
  rw [here, there]

end

namespace PermissionStore

variable {store : PermissionStore} {id : Nat} {path : PermissionPath}

/-- The groups that the index of roles holds for the roles of an account, in order. -/
def groupsFor (store : PermissionStore) (account : Account) : List Nat :=
  account.roles.filterMap fun role => store.groupsByRole.get? (.number role)

/-- What a permissible of a store answers from. -/
def source? (store : PermissionStore) (id : Nat) : Option AnswerSource :=
  (store.get? id).map fun
    | .holder own => .holder own
    | .union groups => .groups groups
    | .member account kept => .groups (kept.getD (store.groupsFor account))

/-- The outcome of a check that came to an answer, or was too deep. -/
def outcomeOf (answer : Option Permit) : Except Failure Permit :=
  answer.elim (.error (.fault .tooDeep "inheritance goes in a circle")) .ok

/-- What a check came to agrees with an answer, and an open answer leaves what is asked as it was.
-/
structure Agrees (base : Nat → Option AnswerSource) (answer : Option Permit)
    (checked : Except Failure Permit × PermissionStore) : Prop where
  outcome : checked.1 = outcomeOf answer
  asked : answer = some .none → checked.2.source? = base

theorem firstPermit_agrees {base : Nat → Option AnswerSource} {answer : Nat → Option Permit}
    {checkOne : Nat → PermissionStore → Except Failure Permit × PermissionStore}
    (one : ∀ id (store : PermissionStore), store.source? = base →
      Agrees base (answer id) (checkOne id store))
    {ids : List Nat} {store : PermissionStore} (same : store.source? = base) :
    Agrees base (firstAnswer answer ids) (firstPermit checkOne ids store) := by
  induction ids generalizing store with
  | nil =>
      exact ⟨rfl, fun _ => same⟩
  | cons id rest ih =>
      rcases one id store same with ⟨outcome, asked⟩
      rw [firstPermit, firstAnswer]
      generalize checkOne id store = checked at *
      rcases checked with ⟨first, after⟩
      dsimp only at outcome asked
      subst outcome
      rcases found : answer id with _ | permit
      · exact ⟨rfl, by simp⟩
      · cases permit with
        | none =>
            rw [if_pos rfl]
            exact ih (asked found)
        | allow =>
            exact ⟨rfl, by simp⟩
        | deny =>
            exact ⟨rfl, by simp⟩

/-- To keep what was found by inheritance does not change the outcome. -/
theorem Agrees.remember {base : Nat → Option AnswerSource} {answer : Option Permit}
    {checked : Except Failure Permit × PermissionStore} :
    Agrees base answer checked → Agrees base answer
      (match checked with
      | (.ok .none, store) => (.ok .none, store)
      | (.ok permit, store) => (.ok permit, store.remember id path permit)
      | failed => failed) := by
  rcases checked with ⟨first, after⟩
  rintro ⟨outcome, asked⟩
  dsimp only at outcome asked
  subst outcome
  rcases answer with _ | permit
  · exact ⟨rfl, by simp⟩
  · cases permit with
    | none =>
        exact ⟨rfl, asked⟩
    | allow =>
        exact ⟨rfl, by simp⟩
    | deny =>
        exact ⟨rfl, by simp⟩

/-- What a member looks up is what it asks. -/
theorem memberGroups_eq {account : Account} {kept : Option (List Nat)}
    (found : store.get? id = some (.member account kept)) :
    (store.memberGroups id).1 = kept.getD (store.groupsFor account) ∧
      (store.memberGroups id).2.source? = store.source? := by
  cases kept with
  | some groups =>
      simp only [memberGroups, found, Option.getD_some]
      trivial
  | none =>
      simp only [memberGroups, found, Option.getD_none]
      refine ⟨rfl, ?_⟩
      funext other
      have sameGroups : ∀ permissible,
          (store.set id permissible).groupsFor = store.groupsFor := fun _ => rfl
      rw [source?, source?, sameGroups]
      by_cases isIt : other = id
      · subst isIt
        rw [get?_set_self found, found]
        rfl
      · rw [get?, set, List.getElem?_set_ne (Ne.symm isIt), get?]

/-- A holder decides by itself, or asks those that it inherits from. -/
theorem holder_agrees {path : PermissionPath} {depth : Nat} {holder : Holder}
    (found : store.get? id = some (.holder holder))
    (one : ∀ id (other : PermissionStore), other.source? = store.source? →
      Agrees store.source? (answerWithin store.source? path depth id)
        (permitWithin path depth id other)) :
    Agrees store.source?
      (if holder.decision path = .none then
        firstAnswer (answerWithin store.source? path depth) holder.inherits
      else some (holder.decision path))
      (permitWithin path (depth + 1) id store) := by
  rw [permitWithin, found, Holder.decision]
  by_cases own : holder.tree.check .none path = .none
  · simp only [own, ne_eq, not_true_eq_false, if_false, Permit.none_orElse]
    by_cases cached : (holder.cache.map (PermissionTree.check .none path)).getD .none = .none
    · rw [if_pos cached, if_neg (not_not_intro cached)]
      have inner : Agrees store.source?
          (firstAnswer (answerWithin store.source? path depth) holder.inherits)
          (firstPermit (permitWithin path depth) holder.inherits store) :=
        firstPermit_agrees one rfl
      exact inner.remember
    · rw [if_neg cached, if_pos cached]
      exact ⟨rfl, fun isOpen => absurd (Option.some.inj isOpen) cached⟩
  · dsimp only
    rw [if_pos own, Permit.orElse_of_ne_none _ own, if_neg own]
    exact ⟨rfl, fun isOpen => absurd (Option.some.inj isOpen) own⟩

theorem permitWithin_agrees (path : PermissionPath) (depth id : Nat) (store : PermissionStore) :
    Agrees store.source? (answerWithin store.source? path depth id)
      (permitWithin path depth id store) := by
  induction depth generalizing id store with
  | zero =>
      exact ⟨rfl, by rintro ⟨⟩⟩
  | succ depth ih =>
      have one : ∀ id (other : PermissionStore), other.source? = store.source? →
          Agrees store.source? (answerWithin store.source? path depth id)
            (permitWithin path depth id other) := by
        intro id other same
        rw [← same]
        exact ih id other
      rw [answerWithin]
      cases found : store.get? id with
      | none =>
          have asks : store.source? id = none := by
            rw [source?, found]
            rfl
          rw [asks, permitWithin, found]
          exact ⟨rfl, fun _ => rfl⟩
      | some permissible =>
          cases permissible with
          | holder holder =>
              have asks : store.source? id = some (.holder holder) := by
                rw [source?, found]
                rfl
              rw [asks]
              exact holder_agrees found one
          | union groups =>
              have asks : store.source? id = some (.groups groups) := by
                rw [source?, found]
                rfl
              rw [asks, permitWithin, found]
              exact firstPermit_agrees one rfl
          | member account kept =>
              have asks : store.source? id =
                  some (.groups (kept.getD (store.groupsFor account))) := by
                rw [source?, found]
                rfl
              rcases memberGroups_eq found with ⟨groups, same⟩
              rw [asks, permitWithin, found]
              dsimp only
              rw [groups]
              exact firstPermit_agrees one same

/-! ## A member and its groups -/

theorem source?_eq_none_iff : store.source? id = none ↔ store.permissibles.length ≤ id := by
  rw [source?, Option.map_eq_none_iff, get?, List.getElem?_eq_none_iff]

theorem length_eq_of_source?_eq {other : PermissionStore} (same : other.source? = store.source?) :
    other.permissibles.length = store.permissibles.length := by
  apply Nat.le_antisymm
  · rw [← source?_eq_none_iff, same, source?_eq_none_iff]
  · rw [← source?_eq_none_iff, ← same, source?_eq_none_iff]

/-- A check finds what a permissible answers at the depth of the table. -/
theorem check_agrees (store : PermissionStore) (path : PermissionPath) (id : Nat) :
    Agrees store.source?
      (answerWithin store.source? path (store.permissibles.length + 1) id)
      (store.check id path .none) := by
  rcases permitWithin_agrees path (store.permissibles.length + 1) id store with ⟨outcome, asked⟩
  refine ⟨?_, asked⟩
  rw [check]
  dsimp only
  rw [outcome]
  cases answerWithin store.source? path (store.permissibles.length + 1) id with
  | none =>
      rfl
  | some permit =>
      exact congrArg Except.ok permit.orElse_none

/-- The permit of the first of some groups that decides when each is checked, or the default. -/
def evaluate (store : PermissionStore) (groups : List Nat) (path : PermissionPath)
    (fallback : Permit) : Except Failure Permit :=
  (firstPermit (fun id store => store.check id path .none) groups store).1.map (·.orElse fallback)

theorem evaluate_eq (store : PermissionStore) (groups : List Nat) (path : PermissionPath)
    (fallback : Permit) :
    store.evaluate groups path fallback =
      (outcomeOf (firstAnswer
        (answerWithin store.source? path (store.permissibles.length + 1)) groups)).map
          (·.orElse fallback) := by
  have one : ∀ id (other : PermissionStore), other.source? = store.source? →
      Agrees store.source? (answerWithin store.source? path (store.permissibles.length + 1) id)
        (other.check id path .none) := by
    intro id other same
    rw [← length_eq_of_source?_eq same, ← same]
    exact check_agrees other path id
  have agrees : Agrees store.source?
      (firstAnswer (answerWithin store.source? path (store.permissibles.length + 1)) groups)
      (firstPermit (fun id store => store.check id path .none) groups store) :=
    firstPermit_agrees one rfl
  rw [evaluate, agrees.outcome]

/-- A member answers what its groups answer when each is checked by itself. -/
theorem check_member {account : Account} {kept : Option (List Nat)}
    (found : store.get? id = some (.member account kept)) (path : PermissionPath)
    (fallback : Permit) :
    (store.check id path fallback).1 =
      store.evaluate (kept.getD (store.groupsFor account)) path fallback := by
  have asks : store.source? id = some (.groups (kept.getD (store.groupsFor account))) := by
    rw [source?, found]
    rfl
  have below : ∀ depth, answerWithin store.source? path (depth + 1) id =
      firstAnswer (answerWithin store.source? path depth)
        (kept.getD (store.groupsFor account)) := by
    intro depth
    rw [answerWithin, asks]
  have bounded : ∀ id, store.permissibles.length ≤ id → store.source? id = none :=
    fun id => source?_eq_none_iff.2
  have settled : answerWithin store.source? path (store.permissibles.length + 1 + 1) id =
      answerWithin store.source? path (store.permissibles.length + 1) id :=
    congrFun (answerWithin_eq bounded 1) id
  rw [below, below] at settled
  rw [evaluate_eq, settled, check]
  dsimp only
  rw [(permitWithin_agrees path _ id store).outcome, below]

end PermissionStore

end Steward
