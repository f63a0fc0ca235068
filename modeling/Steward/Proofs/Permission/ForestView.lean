import Mathlib.Data.List.Induction
import Mathlib.Logic.Function.Basic
import Steward.Permission.Forest
import Steward.Proofs.Permission.View

/-!
# What can be seen from a node of a forest

From a node of a forest, a trail leads to at most one node, and the permits that
stand at the ends of trails are all that a check depends on.  Nodes that were put
together by hand may stand at several places.  Where they do not, below a root of
which every node is reached by one trail only, a permit that is set changes what
stands at the end of its own trail and nothing else, as in a tree.
-/

namespace Steward.Forest

/-! ## Following a trail -/

/-- The node that a trail leads to. -/
def follow (forest : Forest) : List String → Nat → Option Nat
  | [], id => some id
  | segment :: rest, id => (forest.child? id segment).bind (follow forest rest)

@[simp]
theorem follow_nil (forest : Forest) (id : Nat) : forest.follow [] id = some id := by
  rfl

theorem follow_append (forest : Forest) (first rest : List String) (id : Nat) :
    forest.follow (first ++ rest) id = (forest.follow first id).bind (forest.follow rest) := by
  induction first generalizing id with
  | nil =>
      rfl
  | cons segment first ih =>
      rw [List.cons_append, follow, follow, Option.bind_assoc]
      exact congrArg _ (funext ih)

theorem follow_concat (forest : Forest) (trail : List String) (segment : String) (id : Nat) :
    forest.follow (trail ++ [segment]) id =
      (forest.follow trail id).bind (forest.child? · segment) := by
  have single : forest.follow [segment] = (forest.child? · segment) := by
    funext other
    rw [follow]
    exact Option.bind_fun_some _
  rw [follow_append, single]

/-- The permit that stands at the end of a trail, open if it leads nowhere. -/
def view (forest : Forest) (id : Nat) (trail : List String) : Permit :=
  ((forest.follow trail id).map fun reached => (forest.get reached).permit).getD .none

@[simp]
theorem view_nil (forest : Forest) (id : Nat) : forest.view id [] = (forest.get id).permit := by
  rfl

theorem view_cons (forest : Forest) (id : Nat) (segment : String) (rest : List String) :
    forest.view id (segment :: rest) =
      match forest.child? id segment with
      | none => .none
      | some child => forest.view child rest := by
  rw [view, follow]
  cases forest.child? id segment <;> rfl

/-- A check answers with the deepest permit along a path's trail, wherever its nodes
stand besides. -/
theorem check_eq_deepest (forest : Forest) (fallback : Permit) (path : PermissionPath) (id : Nat) :
    forest.check fallback path id =
      (PermissionTree.deepest (forest.view id) path.trail).orElse fallback := by
  induction path generalizing fallback id with
  | nil =>
      rfl
  | cons segment rest ih =>
      rw [check]
      split
      · rename_i stays
        rw [PermissionPath.trail_cons_stay rest stays, ih, ← Permit.orElse_assoc, ← view_nil,
          PermissionTree.deepest_orElse_root]
      · rename_i steps
        rw [PermissionPath.trail_cons_step rest steps, PermissionTree.deepest, view_nil,
          Permit.orElse_assoc]
        simp only [view_cons]
        cases forest.child? id segment with
        | none =>
            simp only [PermissionTree.deepest_none, Permit.none_orElse]
        | some child =>
            exact ih _ child

/-! ## Changing one node -/

theorem get_update (forest : Forest) {id : Nat} (inside : id < forest.nodes.length)
    (change : ForestNode → ForestNode) (other : Nat) :
    (forest.update id change).get other =
      if other = id then change (forest.get id) else forest.get other := by
  simp only [get, update, List.getD_eq_getElem?_getD, List.getElem?_modify]
  by_cases same : other = id
  · subst same
    simp [inside]
  · simp [same, Ne.symm same]

theorem child?_congr {forest other : Forest} {id : Nat}
    (same : (other.get id).children = (forest.get id).children) (segment : String) :
    other.child? id segment = forest.child? id segment := by
  rw [child?, child?, same]

theorem follow_congr {forest other : Forest}
    (same : ∀ id segment, other.child? id segment = forest.child? id segment)
    (trail : List String) (id : Nat) :
    other.follow trail id = forest.follow trail id := by
  induction trail generalizing id with
  | nil =>
      rfl
  | cons segment rest ih =>
      rw [follow, follow, same, funext ih]

theorem follow_withPermit (forest : Forest) {id : Nat} (inside : id < forest.nodes.length)
    (permit : Permit) (trail : List String) (start : Nat) :
    (forest.update id fun node => { node with permit := permit }).follow trail start =
      forest.follow trail start := by
  apply follow_congr
  intro other segment
  apply child?_congr
  rw [get_update forest inside]
  split
  · rename_i same
    rw [same]
  · rfl

/-! ## A new node -/

theorem get_add_of_lt (forest : Forest) (name : Option String) (permit : Permit) {id : Nat}
    (inside : id < forest.nodes.length) : (forest.add name permit).2.get id = forest.get id := by
  simp [add, get, List.getElem?_append, inside]

theorem get_add_self (forest : Forest) (name : Option String) (permit : Permit) :
    (forest.add name permit).2.get forest.nodes.length = ⟨name, permit, []⟩ := by
  simp [add, get]

theorem find?_putChild (segment wanted : String) (child : Nat)
    (children : List (Option String × Nat)) :
    ((putChild (some segment) child children).find? (·.1 == some wanted)).map Prod.snd =
      if wanted = segment then some child
      else (children.find? (·.1 == some wanted)).map Prod.snd := by
  induction children with
  | nil =>
      by_cases same : wanted = segment
      · simp [putChild, same]
      · simp [putChild, same, Ne.symm same]
  | cons first rest ih =>
      rcases first with ⟨name, old⟩
      by_cases here : name = some segment
      · subst here
        by_cases same : wanted = segment
        · simp [putChild, same]
        · simp [putChild, same, Ne.symm same]
      · by_cases there : name = some wanted
        · subst there
          have distinct : wanted ≠ segment := fun same => here (congrArg some same)
          simp [putChild, distinct]
        · simp [putChild, here, there, ih]

/-- A forest with a new node below a node, under a name. -/
def extended (forest : Forest) (id : Nat) (segment : String) : Forest :=
  (forest.add (some segment) .none).2.attach id forest.nodes.length

section Extended

variable {forest : Forest} {id : Nat}

theorem length_extended (forest : Forest) (id : Nat) (segment : String) :
    (forest.extended id segment).nodes.length = forest.nodes.length + 1 := by
  simp [extended, attach, update, add]

theorem get_extended (inside : id < forest.nodes.length) (segment : String) (other : Nat) :
    (forest.extended id segment).get other =
      if other = id then
        { forest.get id with
          children := putChild (some segment) forest.nodes.length (forest.get id).children }
      else if other = forest.nodes.length then ⟨some segment, .none, []⟩
      else forest.get other := by
  have grown : id < (forest.add (some segment) .none).2.nodes.length := by
    simp only [add, List.length_append]
    exact Nat.lt_add_right _ inside
  rw [extended, attach, get_update _ grown, get_add_self, get_add_of_lt forest _ _ inside]
  by_cases same : other = id
  · simp [same]
  · by_cases isNew : other = forest.nodes.length
    · rw [if_neg same, if_neg same, if_pos isNew, isNew, get_add_self]
    · rw [if_neg same, if_neg same, if_neg isNew]
      rcases Nat.lt_or_gt_of_ne isNew with below | above
      · exact get_add_of_lt forest _ _ below
      · have beyond : (forest.add (some segment) .none).2.nodes.length ≤ other := by
          simp only [add, List.length_append]
          exact above
        rw [get, get, List.getD_eq_getElem?_getD, List.getD_eq_getElem?_getD,
          List.getElem?_eq_none beyond, List.getElem?_eq_none (Nat.le_of_lt above)]

theorem child?_extended (inside : id < forest.nodes.length) (segment : String) {other : Nat}
    (old : other < forest.nodes.length) (wanted : String) :
    (forest.extended id segment).child? other wanted =
      if other = id ∧ wanted = segment then some forest.nodes.length
      else forest.child? other wanted := by
  rw [child?, get_extended inside]
  by_cases same : other = id
  · subst same
    rw [if_pos rfl, find?_putChild]
    by_cases named : wanted = segment <;> simp [named, child?]
  · rw [if_neg same, if_neg (Nat.ne_of_lt old), if_neg (fun both => same both.1)]
    rfl

theorem child?_extended_new (inside : id < forest.nodes.length) (segment wanted : String) :
    (forest.extended id segment).child? forest.nodes.length wanted = none := by
  rw [child?, get_extended inside, if_neg (Nat.ne_of_gt inside), if_pos rfl]
  rfl

end Extended

/-! ## Roots of trees -/

/-- The nodes below a root form a tree: every trail leads to a node of its own. -/
structure IsTreeBelow (forest : Forest) (root : Nat) : Prop where
  inside : ∀ {trail id}, forest.follow trail root = some id → id < forest.nodes.length
  distinct : ∀ {trail other id}, forest.follow trail root = some id →
    forest.follow other root = some id → trail = other

namespace IsTreeBelow

variable {forest : Forest} {root id : Nat} {here : List String} {segment : String}

theorem follow_extended (isTree : forest.IsTreeBelow root)
    (reached : forest.follow here root = some id) (absent : forest.child? id segment = none)
    (trail : List String) :
    (forest.extended id segment).follow trail root =
      if trail = here ++ [segment] then some forest.nodes.length
      else forest.follow trail root := by
  have inside := isTree.inside reached
  induction trail using List.reverseRecOn with
  | nil =>
      rw [if_neg (by simp)]
      rfl
  | append_singleton trail wanted ih =>
      rw [follow_concat, follow_concat, ih]
      by_cases isNew : trail = here ++ [segment]
      · -- The trail goes on past the new node, where nothing is, and nothing was before.
        have elsewhere : trail ++ [wanted] ≠ here ++ [segment] := by
          rw [isNew]
          simp
        rw [if_pos isNew, if_neg elsewhere, isNew, follow_concat, reached, Option.bind_some,
          Option.bind_some, absent]
        exact child?_extended_new inside segment wanted
      · rw [if_neg isNew]
        cases leads : forest.follow trail root with
        | none =>
            have elsewhere : trail ++ [wanted] ≠ here ++ [segment] := by
              intro same
              rw [(List.append_inj' same rfl).1, reached] at leads
              cases leads
            rw [if_neg elsewhere]
            rfl
        | some other =>
            rw [Option.bind_some, Option.bind_some,
              child?_extended inside segment (isTree.inside leads)]
            have sameNode : other = id ↔ trail = here := by
              constructor
              · rintro rfl
                exact isTree.distinct leads reached
              · rintro rfl
                exact Option.some.inj (leads.symm.trans reached)
            simp only [sameNode, List.append_singleton_inj]

/-- A new node below a node is seen at the end of a new trail only, where it leaves
things open. -/
theorem extended (isTree : forest.IsTreeBelow root)
    (reached : forest.follow here root = some id) (absent : forest.child? id segment = none) :
    (forest.extended id segment).IsTreeBelow root ∧
      (forest.extended id segment).view root = forest.view root := by
  have inside := isTree.inside reached
  have follows := isTree.follow_extended reached absent
  have nothing : forest.follow (here ++ [segment]) root = none := by
    rw [follow_concat, reached, Option.bind_some, absent]
  refine ⟨⟨?_, ?_⟩, ?_⟩
  · intro trail other leads
    rw [follows] at leads
    rw [length_extended]
    split at leads
    · cases leads
      exact Nat.lt_succ_self _
    · exact Nat.lt_succ_of_lt (isTree.inside leads)
  · intro trail other reachedNode leads leadsToo
    rw [follows] at leads leadsToo
    split at leads <;> split at leadsToo
    · rename_i isNew isNewToo
      exact isNew.trans isNewToo.symm
    · cases leads
      exact absurd (isTree.inside leadsToo) (Nat.lt_irrefl _)
    · cases leadsToo
      exact absurd (isTree.inside leads) (Nat.lt_irrefl _)
    · exact isTree.distinct leads leadsToo
  · funext trail
    rw [view, view, follows]
    split
    · rename_i isNew
      rw [isNew, nothing]
      simp [get_extended inside, Nat.ne_of_gt inside]
    · cases leads : forest.follow trail root with
      | none =>
          rfl
      | some other =>
          have old := isTree.inside leads
          rw [Option.map_some, Option.map_some, get_extended inside, if_neg (Nat.ne_of_lt old)]
          split
          · rename_i same
            rw [same]
          · rfl

/-- A permit that is set at a node is seen at the end of the node's trail only. -/
theorem withPermit (isTree : forest.IsTreeBelow root) (reached : forest.follow here root = some id)
    (permit : Permit) :
    (forest.update id fun node => { node with permit := permit }).IsTreeBelow root ∧
      (forest.update id fun node => { node with permit := permit }).view root =
        Function.update (forest.view root) here permit := by
  have inside := isTree.inside reached
  have follows := follow_withPermit forest inside permit
  refine ⟨⟨?_, ?_⟩, ?_⟩
  · intro trail other leads
    rw [follows] at leads
    rw [update, List.length_modify]
    exact isTree.inside leads
  · intro trail other reachedNode leads leadsToo
    rw [follows] at leads leadsToo
    exact isTree.distinct leads leadsToo
  · funext trail
    rw [view, follows]
    by_cases same : trail = here
    · subst same
      rw [reached, Function.update_self, Option.map_some, get_update forest inside, if_pos rfl]
      rfl
    · rw [Function.update_of_ne same, view]
      cases leads : forest.follow trail root with
      | none =>
          rfl
      | some other =>
          have elsewhere : other ≠ id := fun isSame =>
            same (isTree.distinct (isSame ▸ leads) reached)
          rw [Option.map_some, Option.map_some, get_update forest inside, if_neg elsewhere]

/-- Setting a permit from a node changes what is seen at the end of one trail, and the
nodes still form a tree. -/
theorem set (isTree : forest.IsTreeBelow root) (reached : forest.follow here root = some id)
    (permit : Permit) (path : PermissionPath) :
    (forest.set permit path id).2.IsTreeBelow root ∧
      (forest.set permit path id).2.view root =
        Function.update (forest.view root) (here ++ path.trail) permit := by
  induction path generalizing forest id here with
  | nil =>
      rw [PermissionPath.trail_nil, List.append_nil]
      exact isTree.withPermit reached permit
  | cons segment rest ih =>
      rw [Forest.set]
      split
      · rename_i stays
        rw [PermissionPath.trail_cons_stay rest stays]
        exact ih isTree reached
      · rename_i steps
        rw [PermissionPath.trail_cons_step rest steps, List.append_cons]
        split
        · rename_i child found
          refine ih isTree ?_
          rw [follow_concat, reached, Option.bind_some, found]
        · rename_i absent
          rcases isTree.extended reached absent with ⟨grownTree, sameView⟩
          have reachedNew : (forest.extended id segment).follow (here ++ [segment]) root =
              some forest.nodes.length := by
            rw [isTree.follow_extended reached absent, if_pos rfl]
          rw [← sameView]
          exact ih grownTree reachedNew

/-- A cleared root is a tree of which nothing is seen. -/
theorem clear (inside : root < forest.nodes.length) :
    (forest.clear root).IsTreeBelow root ∧ (forest.clear root).view root = fun _ => .none := by
  have cleared : (forest.clear root).get root = ⟨(forest.get root).name, .none, []⟩ := by
    rw [Forest.clear, get_update forest inside, if_pos rfl]
  have leaf : ∀ segment, (forest.clear root).child? root segment = none := by
    intro segment
    rw [child?, cleared]
    rfl
  have onlyRoot : ∀ {trail id}, (forest.clear root).follow trail root = some id →
      trail = [] ∧ id = root := by
    intro trail id leads
    cases trail with
    | nil =>
        exact ⟨rfl, (Option.some.inj leads).symm⟩
    | cons segment rest =>
        rw [follow, leaf] at leads
        cases leads
  refine ⟨⟨?_, ?_⟩, ?_⟩
  · intro trail id leads
    rw [(onlyRoot leads).2, Forest.clear, update, List.length_modify]
    exact inside
  · intro trail other id leads leadsToo
    rw [(onlyRoot leads).1, (onlyRoot leadsToo).1]
  · funext trail
    cases trail with
    | nil =>
        rw [view_nil, cleared]
    | cons segment rest =>
        rw [view_cons, leaf]

end IsTreeBelow

end Steward.Forest
