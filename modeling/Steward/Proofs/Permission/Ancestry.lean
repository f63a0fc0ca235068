import Mathlib.Logic.Relation
import Steward.Proofs.Permission.Asking

/-!
# Depth-first priority

What a permissible inherits is found depth first: it decides by itself if it can, and
else those that it asks are asked in order, each with all that it asks in turn before
the next.  `Preorder` lists the permissibles in that order.  Where nobody is asked in
a circle the list exists, and without caches the first of it that has a permit for a
path decides (`check_is_depth_first`); so the default counts only where nobody has.
-/

namespace Steward.PermissionStore

variable {store : PermissionStore} {id : Nat} {path : PermissionPath}

/-- The permissibles that a permissible asks if it does not decide by itself, in
order. -/
def asked (store : PermissionStore) (id : Nat) : List Nat :=
  match store.source? id with
  | none => []
  | some (.holder holder) => holder.inherits
  | some (.groups ids) => ids

def Asks (store : PermissionStore) (id other : Nat) : Prop := other ∈ store.asked id

/-- What a permissible's own tree answers for a path; only holders have one. -/
def ownPermit (store : PermissionStore) (path : PermissionPath) (id : Nat) : Permit :=
  match store.holder? id with
  | some holder => holder.tree.check .none path
  | none => .none

/-- The depth-first order of some permissibles and all that they ask: each comes before
those that it asks, and these before the next one. -/
inductive Preorder (store : PermissionStore) : List Nat → List Nat → Prop where
  | nil : Preorder store [] []
  | cons {id : Nat} {rest below beside : List Nat} (inner : Preorder store (store.asked id) below)
      (others : Preorder store rest beside) : Preorder store (id :: rest) (id :: (below ++ beside))

/-- Nobody that a permissible reaches asks itself, directly or not, and nobody keeps a
cache. -/
structure IsPlainFrom (store : PermissionStore) (id : Nat) : Prop where
  acyclic : ∀ other, Relation.ReflTransGen store.Asks id other →
    ¬ Relation.TransGen store.Asks other other
  uncached : ∀ other holder, Relation.ReflTransGen store.Asks id other →
    store.holder? other = some holder → holder.cache = none

/-- Checks are answered by the first of some permissibles whose own tree has a permit
for the path.  The default is the answer only if there is none. -/
structure AnswersBy (store : PermissionStore) (id : Nat) (ids : List Nat) : Prop where
  first : ∀ path fallback, (store.check id path fallback).1 =
    .ok (((ids.map (store.ownPermit path)).find? (· ≠ .none)).getD fallback)
  decided : ∀ path, (∃ other ∈ ids, store.ownPermit path other ≠ .none) →
    ∃ permit, permit ≠ .none ∧ ∀ fallback, (store.check id path fallback).1 = .ok permit

/-! ## Who is asked -/

theorem source?_eq_holder_iff {holder : Holder} :
    store.source? id = some (.holder holder) ↔ store.holder? id = some holder := by
  rw [source?, holder?]
  cases store.get? id with
  | none =>
      simp
  | some permissible =>
      cases permissible <;> simp

theorem asked_of_beyond (beyond : store.permissibles.length ≤ id) : store.asked id = [] := by
  rw [asked, source?_eq_none_iff.2 beyond]

theorem IsPlainFrom.asked (plain : store.IsPlainFrom id) {other : Nat}
    (asks : store.Asks id other) : store.IsPlainFrom other where
  acyclic further reaches := plain.acyclic further (.head asks reaches)
  uncached further holder reaches := plain.uncached further holder (.head asks reaches)

/-! ## The order exists -/

open scoped Classical in
/-- Those of the table that a permissible asks, directly or not. -/
private noncomputable def descendants (store : PermissionStore) (id : Nat) : Finset Nat :=
  (Finset.range store.permissibles.length).filter (Relation.TransGen store.Asks id)

private theorem descendants_ssubset (plain : store.IsPlainFrom id) {other : Nat}
    (asks : store.Asks id other) (inside : other < store.permissibles.length) :
    store.descendants other ⊂ store.descendants id := by
  classical
  rw [Finset.ssubset_iff_of_subset]
  · refine ⟨other, ?_, ?_⟩
    · rw [descendants, Finset.mem_filter, Finset.mem_range]
      exact ⟨inside, .single asks⟩
    · rw [descendants, Finset.mem_filter]
      exact fun member => plain.acyclic other (.single asks) member.2
  · intro further member
    rw [descendants, Finset.mem_filter] at member ⊢
    exact ⟨member.1, .head asks member.2⟩

theorem exists_preorder_of_each {ids : List Nat}
    (each : ∀ id ∈ ids, ∃ below, store.Preorder (store.asked id) below) :
    ∃ order, store.Preorder ids order := by
  induction ids with
  | nil =>
      exact ⟨[], .nil⟩
  | cons id rest ih =>
      rcases each id List.mem_cons_self with ⟨below, inner⟩
      rcases ih fun other member => each other (List.mem_cons_of_mem _ member) with
        ⟨beside, others⟩
      exact ⟨_, .cons inner others⟩

/-- Where nobody is asked in a circle, what a permissible asks has a depth-first
order. -/
theorem IsPlainFrom.exists_preorder (plain : store.IsPlainFrom id) :
    ∃ below, store.Preorder (store.asked id) below := by
  -- Each of those that are asked reaches fewer permissibles.
  induction count : (store.descendants id).card using Nat.strong_induction_on generalizing id with
  | h count ih =>
      apply exists_preorder_of_each
      intro other asks
      by_cases inside : other < store.permissibles.length
      · have fewer := Finset.card_lt_card (descendants_ssubset plain asks inside)
        rw [count] at fewer
        exact ih _ fewer (plain.asked asks) rfl
      · rw [asked_of_beyond (Nat.le_of_not_lt inside)]
        exact ⟨[], .nil⟩

/-! ## The first that decides -/

/-- The first permit that is not open. -/
private def firstOf (permits : List Permit) : Permit := permits.foldr Permit.orElse .none

private theorem firstOf_cons (permit : Permit) (rest : List Permit) :
    firstOf (permit :: rest) = permit.orElse (firstOf rest) := by
  rfl

private theorem firstOf_append (first rest : List Permit) :
    firstOf (first ++ rest) = (firstOf first).orElse (firstOf rest) := by
  induction first with
  | nil =>
      rfl
  | cons permit first ih =>
      rw [List.cons_append, firstOf_cons, firstOf_cons, ih, Permit.orElse_assoc]

private theorem getD_find?_eq (permits : List Permit) (fallback : Permit) :
    (permits.find? (· ≠ .none)).getD fallback = (firstOf permits).orElse fallback := by
  induction permits with
  | nil =>
      rfl
  | cons permit rest ih =>
      rw [List.find?_cons, firstOf_cons, Permit.orElse_assoc]
      by_cases isOpen : permit = .none
      · simpa [isOpen] using ih
      · simp [isOpen, Permit.orElse_of_ne_none]

theorem answerWithin_mono {source? : Nat → Option AnswerSource} {depth more : Nat}
    (deeper : depth ≤ more) {permit : Permit}
    (found : answerWithin source? path depth id = some permit) :
    answerWithin source? path more id = some permit := by
  induction deeper with
  | refl =>
      exact found
  | step _ ih =>
      exact answerWithin_succ ih

/-- What a permissible answers from those that it asks, once they have answers. -/
theorem answerWithin_asked
    (uncached : ∀ holder, store.holder? id = some holder → holder.cache = none)
    {depth : Nat} {permit : Permit}
    (found : firstAnswer (answerWithin store.source? path depth) (store.asked id) = some permit) :
    answerWithin store.source? path (depth + 1) id =
      some ((store.ownPermit path id).orElse permit) := by
  rw [asked] at found
  rw [answerWithin]
  cases asks : store.source? id with
  | none =>
      have noHolder : store.holder? id = none := by
        rw [Option.eq_none_iff_forall_ne_some]
        intro holder isHolder
        rw [source?_eq_holder_iff.2 isHolder] at asks
        cases asks
      rw [asks] at found
      simpa [ownPermit, noHolder, firstAnswer] using found
  | some source =>
      rw [asks] at found
      cases source with
      | holder holder =>
          have isHolder := source?_eq_holder_iff.1 asks
          have decision : holder.decision path = store.ownPermit path id := by
            rw [Holder.decision, uncached holder isHolder, ownPermit, isHolder]
            exact Permit.orElse_none _
          dsimp only at found ⊢
          rw [decision]
          by_cases isOpen : store.ownPermit path id = .none
          · rw [if_pos isOpen, found, isOpen, Permit.none_orElse]
          · rw [if_neg isOpen, Permit.orElse_of_ne_none _ isOpen]
      | groups ids =>
          have noHolder : store.holder? id = none := by
            rw [Option.eq_none_iff_forall_ne_some]
            intro holder isHolder
            rw [source?_eq_holder_iff.2 isHolder] at asks
            cases asks
          rw [ownPermit, noHolder]
          exact found

theorem firstAnswer_cons {answer : Nat → Option Permit} {permit : Permit}
    (found : answer id = some permit) (rest : List Nat) :
    firstAnswer answer (id :: rest) =
      if permit = .none then firstAnswer answer rest else some permit := by
  simp only [firstAnswer, found, Option.some.injEq]

/-- Permissibles that are asked in order answer with the first permit of their
depth-first order, at some depth. -/
theorem Preorder.exists_answer {ids order : List Nat} (preorder : store.Preorder ids order)
    (plain : ∀ id ∈ ids, store.IsPlainFrom id) (path : PermissionPath) :
    ∃ depth, firstAnswer (answerWithin store.source? path depth) ids =
      some (firstOf (order.map (store.ownPermit path))) := by
  induction preorder with
  | nil =>
      exact ⟨0, rfl⟩
  | @cons id rest below beside _ _ ihBelow ihBeside =>
      have here := plain id List.mem_cons_self
      rcases ihBelow fun other asks => here.asked asks with ⟨depth, inner⟩
      rcases ihBeside fun other member => plain other (List.mem_cons_of_mem _ member) with
        ⟨breadth, others⟩
      refine ⟨max depth breadth + 1, ?_⟩
      have deepEnough := firstAnswer_mono
        (fun _ _ => answerWithin_mono (Nat.le_max_left depth breadth)) inner
      have wideEnough := firstAnswer_mono
        (fun _ _ => answerWithin_mono (Nat.le_succ_of_le (Nat.le_max_right depth breadth))) others
      have answers := answerWithin_asked (fun holder => here.uncached id holder .refl) deepEnough
      rw [List.map_cons, List.map_append, firstOf_cons, firstOf_append, ← Permit.orElse_assoc,
        firstAnswer_cons answers]
      split
      · rename_i isOpen
        rw [isOpen, Permit.none_orElse]
        exact wideEnough
      · rename_i decides
        rw [Permit.orElse_of_ne_none _ decides]

/-- An answer at any depth is what a check finds. -/
theorem check_of_answer {depth : Nat} {permit : Permit}
    (found : answerWithin store.source? path depth id = some permit) (fallback : Permit) :
    (store.check id path fallback).1 = .ok (permit.orElse fallback) := by
  have bounded : ∀ id, store.permissibles.length ≤ id → store.source? id = none :=
    fun id => source?_eq_none_iff.2
  have settled : answerWithin store.source? path (store.permissibles.length + 1) id =
      some permit := by
    rcases Nat.le_total depth (store.permissibles.length + 1) with shallow | deep
    · exact answerWithin_mono shallow found
    · rcases Nat.exists_eq_add_of_le deep with ⟨more, rfl⟩
      rw [← answerWithin_eq bounded more, found]
  have agrees := permitWithin_agrees path (store.permissibles.length + 1) id store
  rw [check]
  dsimp only
  rw [agrees.outcome, settled]
  rfl

theorem answersBy_of_answers {ids : List Nat}
    (answers : ∀ path, ∃ depth, answerWithin store.source? path depth id =
      some (firstOf (ids.map (store.ownPermit path)))) : store.AnswersBy id ids where
  first path fallback := by
    rcases answers path with ⟨depth, found⟩
    rw [check_of_answer found, getD_find?_eq]
  decided path some_decides := by
    rcases answers path with ⟨depth, found⟩
    have decides : firstOf (ids.map (store.ownPermit path)) ≠ .none := by
      have isSome : ((ids.map (store.ownPermit path)).find? (· ≠ .none)).isSome := by
        simpa [List.find?_isSome] using some_decides
      rcases Option.isSome_iff_exists.1 isSome with ⟨permit, isFirst⟩
      have same := getD_find?_eq (ids.map (store.ownPermit path)) .none
      rw [isFirst, Permit.orElse_none] at same
      rw [← same]
      simpa using List.find?_some isFirst
    refine ⟨_, decides, ?_⟩
    intro fallback
    rw [check_of_answer found, Permit.orElse_of_ne_none _ decides]

/-- Whoever passes on what some others answer, asked in order, answers by their depth-first
order. -/
theorem Preorder.answersBy {ids order : List Nat} (preorder : store.Preorder ids order)
    (plain : ∀ other ∈ ids, store.IsPlainFrom other)
    (passes : ∀ path depth permit,
      firstAnswer (answerWithin store.source? path depth) ids = some permit →
        ∃ deeper, answerWithin store.source? path deeper id = some permit) :
    store.AnswersBy id order := by
  apply answersBy_of_answers
  intro path
  rcases preorder.exists_answer plain path with ⟨depth, found⟩
  exact passes path depth _ found

/-- A permissible that is asked alone answers for itself. -/
theorem answerWithin_of_alone {depth : Nat} {permit : Permit}
    (found : firstAnswer (answerWithin store.source? path depth) [id] = some permit) :
    answerWithin store.source? path depth id = some permit := by
  rw [firstAnswer] at found
  split at found
  · rename_i isOpen
    rw [isOpen, ← found]
    rfl
  · exact found

/-- What a holder answers is the first permit among the trees of those that are found
from it depth first, itself included, or else the default; what a member answers is so
found from the groups of its roles, in the order of the roles.  Nobody that is asked
may be asked in a circle or keep a cache. -/
theorem check_is_depth_first (plain : store.IsPlainFrom id) :
    (∀ holder, store.holder? id = some holder →
      (∃ order, store.Preorder [id] order) ∧
        ∀ order, store.Preorder [id] order → store.AnswersBy id order) ∧
    ∀ account kept, store.get? id = some (.member account kept) →
      let groups := kept.getD (store.groupsFor account)
      (∃ order, store.Preorder groups order) ∧
        ∀ order, store.Preorder groups order → store.AnswersBy id order := by
  rcases plain.exists_preorder with ⟨below, inner⟩
  constructor
  · intro holder isHolder
    have alone : ∀ other ∈ [id], store.IsPlainFrom other := by
      intro other member
      rw [List.mem_singleton.1 member]
      exact plain
    refine ⟨⟨_, .cons inner .nil⟩, ?_⟩
    intro order preorder
    apply preorder.answersBy alone
    intro path depth permit found
    exact ⟨depth, answerWithin_of_alone found⟩
  · intro account kept isMember groups
    have asks : store.source? id = some (.groups groups) := by
      rw [source?, isMember]
      rfl
    have askedGroups : store.asked id = groups := by
      rw [asked, asks]
    have each : ∀ other ∈ groups, store.IsPlainFrom other := by
      intro other member
      rw [← askedGroups] at member
      exact plain.asked member
    refine ⟨⟨below, askedGroups ▸ inner⟩, ?_⟩
    intro order preorder
    apply preorder.answersBy each
    intro path depth permit found
    refine ⟨depth + 1, ?_⟩
    rw [answerWithin, asks]
    exact found

/-! ## A shared ancestor -/

namespace Staff

/-- A helper that is a moderator too. -/
def ada : Account := ⟨5, "ada", none, some ⟨100, [9, 7], []⟩⟩

/-- Everyone may talk.  Moderators and helpers are everyone too, and the staff is both; moderators
may not ban, but helpers may. -/
def staff : PermissionStore :=
  let store := empty
  let store := (store.addGroup "everyone").2.setPermit 0 ["talk"] .allow
  let store := (store.addRoleGroup "mods" (.int 7)).2.setPermit 1 ["kick", "ban"] .deny
  let store := (store.addRoleGroup "helpers" (.int 9)).2.setPermit 2 ["kick"] .allow
  let store := (store.addGroup "staff").2
  let store := ((store.addInherits 1 0).addInherits 2 0).addInherits 3 1
  let store := ((store.addInherits 3 2).register 1).2
  ((store.register 2).2.forMember ada).2

/-- Everybody asks only those who came before. -/
theorem lt_of_asks {id other : Nat} (asks : staff.Asks id other) : other < id := by
  have earlier : ∀ id < 5, ∀ other ∈ staff.asked id, other < id := by
    decide
  by_cases inside : id < 5
  · exact earlier id inside other asks
  · have nobody : staff.asked id = [] := asked_of_beyond (Nat.le_of_not_lt inside)
    rw [Asks, nobody] at asks
    cases asks

theorem isPlainFrom (id : Nat) : staff.IsPlainFrom id where
  acyclic other _ circle := by
    have descends : ∀ {first last}, Relation.TransGen staff.Asks first last → last < first := by
      intro first last path
      induction path with
      | single asks =>
          exact lt_of_asks asks
      | tail _ asks ih =>
          exact (lt_of_asks asks).trans ih
    exact Nat.lt_irrefl _ (descends circle)
  uncached other holder _ isHolder := by
    have uncached : ∀ holder ∈ (List.range 5).filterMap staff.holder?, holder.cache = none := by
      decide
    by_cases inside : other < 5
    · exact uncached holder (List.mem_filterMap.2 ⟨other, List.mem_range.2 inside, isHolder⟩)
    · have nobody : staff.source? other = none := source?_eq_none_iff.2 (Nat.le_of_not_lt inside)
      rw [source?_eq_holder_iff.2 isHolder] at nobody
      cases nobody

theorem preorder_everyone : staff.Preorder (staff.asked 1) [0] := by
  have nobody : staff.Preorder (staff.asked 0) [] := .nil
  have everyone := Preorder.cons nobody .nil
  exact everyone

theorem preorder_staff : staff.Preorder [3] [3, 1, 0, 2, 0] := by
  have helpers : staff.Preorder [2] _ := .cons preorder_everyone .nil
  have both : staff.Preorder (staff.asked 3) _ := .cons preorder_everyone helpers
  have all := Preorder.cons both .nil
  exact all

theorem preorder_ada : staff.Preorder (staff.groupsFor ada) [2, 0, 1, 0] := by
  have mods : staff.Preorder [1] _ := .cons preorder_everyone .nil
  have both := Preorder.cons (show staff.Preorder (staff.asked 2) _ from preorder_everyone) mods
  exact both

/-- The staff may not ban, as the moderators come first, but may talk as everyone may; whoever is a
helper first may ban. -/
theorem staff_checks :
    staff.IsPlainFrom 3 ∧ staff.IsPlainFrom 4 ∧
      (staff.check 3 ["kick", "ban"] .allow).1 = .ok .deny ∧
      (staff.check 3 ["talk"] .deny).1 = .ok .allow ∧
      (staff.check 4 ["kick", "ban"] .deny).1 = .ok .allow ∧
      (staff.check 4 ["leave"] .deny).1 = .ok .deny := by
  have ofStaff := ((check_is_depth_first (isPlainFrom 3)).1 _ rfl).2 _ preorder_staff
  have ofAda := ((check_is_depth_first (isPlainFrom 4)).2 ada none rfl).2 _ preorder_ada
  exact ⟨isPlainFrom 3, isPlainFrom 4, ofStaff.first _ _, ofStaff.first _ _, ofAda.first _ _,
    ofAda.first _ _⟩

end Staff

end Steward.PermissionStore
