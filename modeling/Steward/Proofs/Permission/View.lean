import Steward.Permission.Tree

/-!
# What a permission tree says

A permission tree is known by the permit that stands at the end of each path, with
the segments that stay left out.  `permitAt` reads that off, setting a permit
changes it at one path only, and what a tree answers for a path is the permit of
the deepest prefix that has one.  None of these depends on how the nodes are laid
out.
-/

namespace Steward

/-- A path without the segments that stay where they are. -/
def PermissionPath.trail (path : PermissionPath) : List String :=
  path.filter fun segment => !isStay segment

namespace PermissionPath

@[simp]
theorem trail_nil : trail [] = [] := by
  rfl

theorem trail_cons_stay {segment : String} (rest : PermissionPath)
    (stays : isStay segment = true) :
    trail (segment :: rest) = trail rest := by
  simp [trail, stays]

theorem trail_cons_step {segment : String} (rest : PermissionPath)
    (steps : ¬ isStay segment = true) :
    trail (segment :: rest) = segment :: trail rest := by
  simp [trail, steps]

/-- The first part of a trail is a path of its own, and its own trail. -/
theorem trail_of_prefix {path : PermissionPath} {shorter : List String}
    (isPrefix : shorter <+: path.trail) :
    trail shorter = shorter := by
  rw [trail, List.filter_eq_self]
  intro segment member
  exact (List.mem_filter.1 (isPrefix.subset member)).2

end PermissionPath

namespace Permit

@[simp]
theorem none_orElse (other : Permit) : Permit.none.orElse other = other := by
  rfl

@[simp]
theorem orElse_none (permit : Permit) : permit.orElse .none = permit := by
  cases permit <;> rfl

theorem orElse_of_ne_none {permit : Permit} (other : Permit) (decides : permit ≠ .none) :
    permit.orElse other = permit := by
  rw [orElse, if_neg decides]

@[simp]
theorem orElse_self (permit : Permit) : permit.orElse permit = permit := by
  cases permit <;> rfl

theorem orElse_assoc (first second third : Permit) :
    (first.orElse second).orElse third = first.orElse (second.orElse third) := by
  cases first <;> rfl

theorem orElse_eq_none_iff (permit other : Permit) :
    permit.orElse other = .none ↔ permit = .none ∧ other = .none := by
  cases permit <;> simp [orElse]

end Permit

namespace PermissionTree

/-! ## Permits by trail -/

/-- The permit that stands at the end of a trail, open if the tree does not go
there. -/
def permitAt : PermissionTree → List String → Permit
  | tree, [] => tree.permit
  | .node _ _ children, segment :: rest =>
    match child? segment children with
    | none => .none
    | some child => permitAt child rest

/-- The deepest permit that a view has along a trail. -/
def deepest (view : List String → Permit) : List String → Permit
  | [] => view []
  | segment :: rest => (deepest (fun trail => view (segment :: trail)) rest).orElse (view [])

theorem deepest_eq_none_iff {view : List String → Permit} {trail : List String} :
    deepest view trail = .none ↔ ∀ shorter, shorter <+: trail → view shorter = .none := by
  induction trail generalizing view with
  | nil =>
      simp [deepest]
  | cons segment rest ih =>
      rw [deepest, Permit.orElse_eq_none_iff, ih]
      constructor
      · rintro ⟨below, here⟩ shorter isPrefix
        cases shorter with
        | nil =>
            exact here
        | cons first shorter =>
            rcases List.cons_prefix_cons.1 isPrefix with ⟨rfl, isBelow⟩
            exact below shorter isBelow
      · intro silent
        refine ⟨?_, silent [] List.nil_prefix⟩
        intro shorter isPrefix
        exact silent (segment :: shorter) (List.cons_prefix_cons.2 ⟨rfl, isPrefix⟩)

/-- What is found along a trail stands at one of its prefixes. -/
theorem exists_of_deepest {view : List String → Permit} {trail : List String}
    (found : deepest view trail ≠ .none) :
    ∃ shorter, shorter <+: trail ∧ view shorter = deepest view trail := by
  induction trail generalizing view with
  | nil =>
      exact ⟨[], List.nil_prefix, rfl⟩
  | cons segment rest ih =>
      by_cases below : deepest (fun trail => view (segment :: trail)) rest = .none
      · refine ⟨[], List.nil_prefix, ?_⟩
        rw [deepest, below, Permit.none_orElse]
      · rcases ih below with ⟨shorter, isPrefix, stands⟩
        refine ⟨segment :: shorter, List.cons_prefix_cons.2 ⟨rfl, isPrefix⟩, ?_⟩
        rw [deepest, Permit.orElse_of_ne_none _ below, stands]

theorem deepest_none (trail : List String) : deepest (fun _ => .none) trail = .none := by
  rw [deepest_eq_none_iff]
  intro _ _
  rfl

/-- A single permit is found along every trail that goes past it. -/
theorem deepest_single {view : List String → Permit} {permit : Permit}
    {here trail : List String} (single : ∀ other, other ≠ here → view other = .none)
    (stands : view here = permit) (isPrefix : here <+: trail) :
    deepest view trail = permit := by
  by_cases open_ : permit = .none
  · rw [open_, deepest_eq_none_iff]
    intro shorter _
    by_cases same : shorter = here
    · rw [same, stands, open_]
    · exact single shorter same
  · have found : deepest view trail ≠ .none := by
      intro silent
      exact open_ (stands.symm.trans (deepest_eq_none_iff.1 silent here isPrefix))
    rcases exists_of_deepest found with ⟨shorter, -, there⟩
    by_cases same : shorter = here
    · rw [← there, same, stands]
    · exact absurd (there.symm.trans (single shorter same)) found

/-- What stands at the root is found already. -/
theorem deepest_orElse_root (view : List String → Permit) (trail : List String) :
    (deepest view trail).orElse (view []) = deepest view trail := by
  cases trail with
  | nil =>
      exact Permit.orElse_self (view [])
  | cons segment rest =>
      rw [deepest, Permit.orElse_assoc, Permit.orElse_self]

/-! ## Looking a path up -/

@[simp]
theorem permitAt_nil (tree : PermissionTree) : tree.permitAt [] = tree.permit := by
  rcases tree with ⟨name, own, children⟩
  rfl

theorem permitAt_cons
    (name : Option String) (own : Permit) (children : List PermissionTree)
    (segment : String) (rest : List String) :
    (node name own children).permitAt (segment :: rest) =
      match child? segment children with
      | none => .none
      | some child => child.permitAt rest := by
  rfl

/-- A tree answers for a path with the deepest permit along its trail. -/
theorem check_eq_deepest (fallback : Permit) (path : PermissionPath) (tree : PermissionTree) :
    tree.check fallback path = (deepest tree.permitAt path.trail).orElse fallback := by
  induction path generalizing fallback tree with
  | nil =>
      simp [check, deepest]
  | cons segment rest ih =>
      rcases tree with ⟨name, own, children⟩
      rw [check]
      split
      · rename_i stays
        rw [PermissionPath.trail_cons_stay rest stays, ih, ← Permit.orElse_assoc]
        have found :=
          deepest_orElse_root (node name own children).permitAt (PermissionPath.trail rest)
        rw [permitAt_nil] at found
        exact congrArg (Permit.orElse · fallback) found
      · rename_i steps
        rw [PermissionPath.trail_cons_step rest steps, deepest, permitAt_nil,
          Permit.orElse_assoc]
        simp only [permitAt_cons]
        cases child? segment children with
        | none =>
            simp only [deepest_none, Permit.none_orElse]
            rfl
        | some child =>
            exact ih (own.orElse fallback) child

/-! ## Setting a permit -/

@[simp]
theorem set_name (permit : Permit) (path : PermissionPath) (tree : PermissionTree) :
    (set permit path tree).name = tree.name := by
  induction path with
  | nil =>
      rcases tree with ⟨name, own, children⟩
      rfl
  | cons segment rest ih =>
      rcases tree with ⟨name, own, children⟩
      rw [set]
      split
      · exact ih
      · rfl

theorem child?_updateChild
    {segment : String} {update : PermissionTree → PermissionTree}
    (keeps : ∀ child, (update child).name = child.name) (wanted : String)
    (children : List PermissionTree) :
    child? wanted (updateChild segment update children) =
      if wanted = segment then
        some (update ((child? segment children).getD (leaf (some segment))))
      else child? wanted children := by
  induction children with
  | nil =>
      have added : (leaf (some segment)).name = some segment := rfl
      simp [updateChild, child?, keeps, added, eq_comm]
  | cons child rest ih =>
      by_cases here : child.name = some segment
      · by_cases same : wanted = segment
        · subst same
          simp [updateChild, child?, here, keeps]
        · simp [updateChild, child?, here, keeps, same, Ne.symm same]
      · by_cases same : wanted = segment
        · subst same
          simp [updateChild, child?, here, ih]
        · simp [updateChild, child?, here, ih, same]

/-- Setting a permit changes what stands at the end of the path, and nothing
else. -/
theorem permitAt_set (permit : Permit) (path : PermissionPath) (tree : PermissionTree)
    (trail : List String) :
    (set permit path tree).permitAt trail =
      if trail = path.trail then permit else tree.permitAt trail := by
  induction path generalizing tree trail with
  | nil =>
      rcases tree with ⟨name, own, children⟩
      cases trail with
      | nil =>
          simp [set, withPermit, PermissionTree.permit]
      | cons segment rest =>
          simp [set, withPermit, permitAt_cons]
  | cons segment rest ih =>
      rcases tree with ⟨name, own, children⟩
      rw [set]
      split
      · rename_i stays
        rw [PermissionPath.trail_cons_stay rest stays]
        exact ih _ trail
      · rename_i steps
        rw [PermissionPath.trail_cons_step rest steps]
        cases trail with
        | nil =>
            simp [PermissionTree.permit]
        | cons first trail =>
            rw [permitAt_cons, child?_updateChild (set_name permit rest), permitAt_cons]
            by_cases same : first = segment
            · subst same
              simp only [if_true, ih, List.cons.injEq, true_and]
              split
              · rfl
              · cases child? first children with
                | none =>
                    cases trail <;> rfl
                | some child =>
                    rfl
            · simp [same]

@[simp]
theorem permitAt_clear (tree : PermissionTree) (trail : List String) :
    tree.clear.permitAt trail = .none := by
  rcases tree with ⟨name, own, children⟩
  cases trail <;> rfl

@[simp]
theorem permitAt_root (trail : List String) : root.permitAt trail = .none := by
  cases trail <;> rfl

end PermissionTree

end Steward
