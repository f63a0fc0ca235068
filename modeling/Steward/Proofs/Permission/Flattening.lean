import Mathlib.Data.List.Nodup
import Steward.Proofs.Permission.View

/-!
# Flattening permission trees

A tree is saved as the list of its permits, each with the segments that lead to it from the root,
joined by points.  A tree whose segments have no points in them is restored by setting the saved
permits one after the other in an empty tree.

What comes back is the tree without the parts that hold no permits (`unflatten_flatten`).  Such
parts are not seen by lookups (`permitAt_prune`) and are not saved (`flatten_prune`).
-/

namespace Steward

namespace PermissionTree

/-- To prove something of a tree, prove it of a node whose children have it. -/
@[elab_as_elim, induction_eliminator]
theorem childrenInduction {motive : PermissionTree → Prop}
    (node : ∀ name permit children, (∀ child ∈ children, motive child) →
      motive (node name permit children)) (tree : PermissionTree) : motive tree :=
  match tree with
  | .node name permit children =>
    node name permit children fun child _ => childrenInduction node child

/-- The segment that a node is reached by in saved paths. -/
def segment (tree : PermissionTree) : String := tree.name.getD "None"

mutual

/-- The permits of a tree with the segments that lead to them. -/
def entries : PermissionTree → List (List String × Permit)
  | .node _ permit children =>
    (if permit = .none then [] else [([], permit)]) ++ entriesAll children

def entriesAll : List PermissionTree → List (List String × Permit)
  | [] => []
  | child :: rest => (entries child).map (Prod.map (child.segment :: ·) id) ++ entriesAll rest

end

/-- A path with segments after it, as it is saved. -/
def pathText (path : String) (trail : List String) : String :=
  trail.foldl (fun path segment => path ++ "." ++ segment) path

theorem flattenAt_eq (path : String) (tree : PermissionTree) :
    flattenAt path tree =
      tree.entries.map fun (trail, permit) => entry (pathText path trail) permit := by
  induction tree generalizing path with
  | node name permit children ih =>
      have below : flattenAll path children =
          (entriesAll children).map fun (trail, permit) => entry (pathText path trail) permit := by
        induction children with
        | nil =>
            rfl
        | cons child rest ihRest =>
            rw [flattenAll, entriesAll, ih child List.mem_cons_self, List.map_append, List.map_map,
              ihRest fun other listed => ih other (List.mem_cons_of_mem _ listed)]
            rfl
      rw [flattenAt, entries, below, List.map_append]
      split <;> rfl

/-! ## Reading saved permits -/

/-- Set permits one after the other. -/
def setAll (permits : List (List String × Permit)) (tree : PermissionTree) : PermissionTree :=
  permits.foldl (fun tree (path, permit) => set permit path tree) tree

theorem setAll_append (first second : List (List String × Permit)) (tree : PermissionTree) :
    setAll (first ++ second) tree = setAll second (setAll first tree) := by
  exact List.foldl_append

/-- A segment has no points in it and does not stay at the node. -/
structure IsSegment (segment : String) : Prop where
  pointless : '.' ∉ segment.toList
  steps : ¬ PermissionPath.isStay segment = true

theorem intercalate_append_cons (point : Char) (first second : List Char)
    (rest : List (List Char)) :
    [point].intercalate ((first ++ second) :: rest) =
      first ++ [point].intercalate (second :: rest) := by
  cases rest with
  | nil =>
      simp
  | cons third rest =>
      simp

theorem toList_pathText (path : String) (trail : List String) :
    (pathText path trail).toList = ['.'].intercalate (path.toList :: trail.map String.toList) := by
  induction trail generalizing path with
  | nil =>
      simp [pathText]
  | cons segment rest ih =>
      rw [pathText, List.foldl_cons, ← pathText, ih, String.toList_append, String.toList_append,
        intercalate_append_cons]
      simp

/-- A path that was saved is read back segment by segment. -/
theorem ofText_pathText {path : String} {trail : List String}
    (pointless : ∀ segment ∈ path :: trail, '.' ∉ segment.toList) :
    PermissionPath.ofText (pathText path trail) = path :: trail := by
  have split : (['.'].intercalate ((path :: trail).map String.toList)).splitOn '.' =
      (path :: trail).map String.toList :=
    List.splitOn_intercalate '.' (by simpa using pointless) (by simp)
  rw [PermissionPath.ofText, toList_pathText, ← List.map_cons, split, List.map_map]
  exact List.map_id'' (fun segment => String.ofList_toList) _

theorem savedEntry_entry (path : String) (permit : Permit) :
    savedEntry (entry path permit) = .ok (PermissionPath.ofText path, permit) := by
  cases permit <;> rfl

/-- Reading saved permits back sets them one after the other. -/
theorem unflatten_entries {permits : List (List String × Permit)}
    (pointless : ∀ permit ∈ permits, ∀ segment ∈ permit.1, '.' ∉ segment.toList)
    (tree : PermissionTree) :
    unflatten (permits.map fun (trail, permit) => entry (pathText "*" trail) permit) tree =
      (.ok (), setAll permits tree) := by
  induction permits generalizing tree with
  | nil =>
      rfl
  | cons first rest ih =>
      rcases first with ⟨trail, permit⟩
      have read : PermissionPath.ofText (pathText "*" trail) = "*" :: trail := by
        apply ofText_pathText
        intro segment listed
        rcases List.mem_cons.1 listed with rfl | listed
        · decide
        · exact pointless _ List.mem_cons_self segment listed
      have stays : set permit ("*" :: trail) tree = set permit trail tree := by
        rcases tree with ⟨name, own, children⟩
        rfl
      rw [List.map_cons, unflatten, savedEntry_entry, read]
      dsimp only
      rw [stays, ih fun other listed => pointless other (List.mem_cons_of_mem _ listed)]
      rfl

/-! ## Trees as they are made by setting permits -/

/-- The children of each node are told apart by their segments. -/
inductive IsTidy : PermissionTree → Prop
  | node {name : Option String} {permit : Permit} {children : List PermissionTree}
    (named : ∀ child ∈ children, ∃ segment, child.name = some segment ∧ IsSegment segment)
    (distinct : (children.map PermissionTree.name).Nodup)
    (below : ∀ child ∈ children, IsTidy child) : IsTidy (.node name permit children)

theorem isTidy_leaf (name : Option String) : (leaf name).IsTidy :=
  .node (by simp) (by simp) (by simp)

theorem child?_eq_none_iff {segment : String} {children : List PermissionTree} :
    child? segment children = none ↔ some segment ∉ children.map PermissionTree.name := by
  induction children with
  | nil =>
      simp [child?]
  | cons child rest ih =>
      by_cases here : child.name = some segment
      · simp [child?, here]
      · simp [child?, here, ih, Ne.symm here]

section

variable {segment : String} {update : PermissionTree → PermissionTree}

theorem names_updateChild (keeps : ∀ child, (update child).name = child.name)
    (children : List PermissionTree) :
    (updateChild segment update children).map PermissionTree.name =
      if some segment ∈ children.map PermissionTree.name then children.map PermissionTree.name
      else children.map PermissionTree.name ++ [some segment] := by
  induction children with
  | nil =>
      have named : (leaf (some segment)).name = some segment := rfl
      simp [updateChild, keeps, named]
  | cons child rest ih =>
      by_cases here : child.name = some segment
      · simp [updateChild, here, keeps]
      · simp only [updateChild, here, if_false, List.map_cons, ih, List.mem_cons, Ne.symm here,
          false_or]
        split <;> rfl

theorem mem_updateChild {child : PermissionTree} {children : List PermissionTree}
    (listed : child ∈ updateChild segment update children) :
    child ∈ children ∨ (∃ old ∈ children, child = update old) ∨
      child = update (leaf (some segment)) := by
  induction children with
  | nil =>
      exact .inr (.inr (List.mem_singleton.1 listed))
  | cons first rest ih =>
      rw [updateChild] at listed
      split at listed
      · rcases List.mem_cons.1 listed with rfl | listed
        · exact .inr (.inl ⟨first, List.mem_cons_self, rfl⟩)
        · exact .inl (List.mem_cons_of_mem _ listed)
      · rcases List.mem_cons.1 listed with rfl | listed
        · exact .inl List.mem_cons_self
        · rcases ih listed with old | ⟨old, isOld, same⟩ | new
          · exact .inl (List.mem_cons_of_mem _ old)
          · exact .inr (.inl ⟨old, List.mem_cons_of_mem _ isOld, same⟩)
          · exact .inr (.inr new)

theorem updateChild_of_new {children : List PermissionTree}
    (isNew : child? segment children = none) :
    updateChild segment update children = children ++ [update (leaf (some segment))] := by
  induction children with
  | nil =>
      rfl
  | cons child rest ih =>
      rw [child?] at isNew
      split at isNew
      · cases isNew
      · rename_i differs
        rw [updateChild, if_neg differs, ih isNew, List.cons_append]

theorem updateChild_updateChild {first : PermissionTree → PermissionTree}
    (keeps : ∀ child, (first child).name = child.name) (children : List PermissionTree) :
    updateChild segment update (updateChild segment first children) =
      updateChild segment (update ∘ first) children := by
  induction children with
  | nil =>
      have named : (first (leaf (some segment))).name = some segment := keeps _
      simp [updateChild, named]
  | cons child rest ih =>
      by_cases here : child.name = some segment
      · simp [updateChild, here, keeps]
      · simp [updateChild, here, ih]

end

/-- A permit that is set under segments without points leaves a tree tidy. -/
theorem IsTidy.set {tree : PermissionTree} (tidy : tree.IsTidy) {path : PermissionPath}
    (pointless : ∀ segment ∈ path, '.' ∉ segment.toList) (permit : Permit) :
    (set permit path tree).IsTidy := by
  induction path generalizing tree with
  | nil =>
      rcases tidy with ⟨named, distinct, below⟩
      exact .node named distinct below
  | cons segment rest ih =>
      have ih : ∀ {tree : PermissionTree}, tree.IsTidy →
          (PermissionTree.set permit rest tree).IsTidy :=
        fun tidy => ih tidy fun other listed => pointless other (List.mem_cons_of_mem _ listed)
      rcases tidy with @⟨name, own, children, named, distinct, below⟩
      rw [PermissionTree.set]
      split
      · exact ih (.node named distinct below)
      · rename_i steps
        have isSegment : IsSegment segment := ⟨pointless segment List.mem_cons_self, steps⟩
        refine .node ?_ ?_ ?_
        · intro child listed
          rcases mem_updateChild listed with old | ⟨old, isOld, rfl⟩ | rfl
          · exact named child old
          · rw [set_name]
            exact named old isOld
          · rw [set_name]
            exact ⟨segment, rfl, isSegment⟩
        · rw [names_updateChild (set_name permit rest)]
          split
          · exact distinct
          · rename_i isNew
            rw [← List.concat_eq_append]
            exact distinct.concat isNew
        · intro child listed
          rcases mem_updateChild listed with old | ⟨old, isOld, rfl⟩ | rfl
          · exact below child old
          · exact ih (below old isOld)
          · exact ih (isTidy_leaf _)

theorem not_mem_of_mem_splitOn {point : Char} {part text : List Char}
    (isPart : part ∈ text.splitOn point) : point ∉ part := by
  induction text generalizing part with
  | nil =>
      rw [List.splitOn_nil, List.mem_singleton] at isPart
      simp [isPart]
  | cons first rest ih =>
      rw [List.splitOn_cons_eq_if_modifyHead] at isPart
      split at isPart
      · rcases List.mem_cons.1 isPart with rfl | isPart
        · simp
        · exact ih isPart
      · rename_i differs
        cases parts : rest.splitOn point with
        | nil =>
            exact absurd parts (List.splitOn_ne_nil _ _)
        | cons head others =>
            rw [parts] at ih isPart
            rcases List.mem_cons.1 isPart with rfl | isPart
            · rw [List.mem_cons, not_or]
              refine ⟨?_, ih List.mem_cons_self⟩
              rintro rfl
              exact differs (beq_self_eq_true _)
            · exact ih (List.mem_cons_of_mem _ isPart)

/-- A path that is written as a text has no points in its segments. -/
theorem pointless_of_mem_ofText {text segment : String}
    (isSegment : segment ∈ PermissionPath.ofText text) : '.' ∉ segment.toList := by
  rcases List.mem_map.1 isSegment with ⟨part, isPart, rfl⟩
  rw [String.toList_ofList]
  exact not_mem_of_mem_splitOn isPart

/-! ## What comes back -/

mutual

/-- A tree without the parts below it that hold no permits. -/
def prune : PermissionTree → PermissionTree
  | .node name permit children => .node name permit (pruneAll children)

def pruneAll : List PermissionTree → List PermissionTree
  | [] => []
  | child :: rest => if child.entries = [] then pruneAll rest else prune child :: pruneAll rest

end

@[simp]
theorem prune_name (tree : PermissionTree) : tree.prune.name = tree.name := by
  cases tree
  rfl

@[simp]
theorem prune_segment (tree : PermissionTree) : tree.prune.segment = tree.segment := by
  rw [segment, prune_name, segment]

theorem entries_prune (tree : PermissionTree) : tree.prune.entries = tree.entries := by
  induction tree with
  | node name permit children ih =>
      have below : entriesAll (pruneAll children) = entriesAll children := by
        induction children with
        | nil =>
            rfl
        | cons child rest ihRest =>
            have ihRest := ihRest fun other listed => ih other (List.mem_cons_of_mem _ listed)
            rw [pruneAll, entriesAll]
            split
            · rename_i bare
              rw [bare, ihRest, List.map_nil, List.nil_append]
            · rw [entriesAll, ih child List.mem_cons_self, prune_segment, ihRest]
      rw [prune, entries, below, entries]

/-- The parts of a tree that hold no permits are not saved. -/
theorem flatten_prune (tree : PermissionTree) : tree.prune.flatten = tree.flatten := by
  rw [flatten, flatten, flattenAt_eq, flattenAt_eq, entries_prune]

theorem entries_child_of_nil {name : Option String} {permit : Permit}
    {children : List PermissionTree} (bare : (node name permit children).entries = []) :
    permit = .none ∧ ∀ child ∈ children, child.entries = [] := by
  rw [entries, List.append_eq_nil_iff] at bare
  refine ⟨?_, ?_⟩
  · by_contra decides
    rw [if_neg decides] at bare
    cases bare.1
  · have silent := bare.2
    clear bare
    induction children with
    | nil =>
        simp
    | cons child rest ih =>
        rw [entriesAll, List.append_eq_nil_iff, List.map_eq_nil_iff] at silent
        intro other listed
        rcases List.mem_cons.1 listed with rfl | listed
        · exact silent.1
        · exact ih silent.2 other listed

theorem child?_mem {segment : String} {child : PermissionTree} {children : List PermissionTree}
    (found : child? segment children = some child) :
    child ∈ children ∧ child.name = some segment := by
  induction children with
  | nil =>
      cases found
  | cons first rest ih =>
      rw [child?] at found
      split at found
      · rename_i named
        cases found
        exact ⟨List.mem_cons_self, named⟩
      · exact ⟨List.mem_cons_of_mem _ (ih found).1, (ih found).2⟩

theorem permitAt_of_entries_nil {tree : PermissionTree} (bare : tree.entries = [])
    (trail : List String) : tree.permitAt trail = .none := by
  induction trail generalizing tree with
  | nil =>
      rcases tree with ⟨name, permit, children⟩
      exact (entries_child_of_nil bare).1
  | cons segment rest ih =>
      rcases tree with ⟨name, permit, children⟩
      rw [permitAt_cons]
      cases found : child? segment children with
      | none =>
          rfl
      | some child =>
          exact ih ((entries_child_of_nil bare).2 child (child?_mem found).1)

theorem names_pruneAll_sublist (children : List PermissionTree) :
    ((pruneAll children).map PermissionTree.name).Sublist (children.map PermissionTree.name) := by
  induction children with
  | nil =>
      exact .slnil
  | cons child rest ih =>
      rw [pruneAll]
      split
      · exact ih.cons _
      · rw [List.map_cons, prune_name]
        exact ih.cons_cons _

/-- What is left of a child is found by its segment, unless it held no permits. -/
theorem child?_pruneAll {children : List PermissionTree}
    (distinct : (children.map PermissionTree.name).Nodup) (segment : String) :
    child? segment (pruneAll children) =
      (child? segment children).bind fun child =>
        if child.entries = [] then none else some child.prune := by
  induction children with
  | nil =>
      rfl
  | cons child rest ih =>
      have ih := ih (List.nodup_cons.1 distinct).2
      have others := (List.nodup_cons.1 distinct).1
      by_cases here : child.name = some segment
      · have missing : child? segment (pruneAll rest) = none := by
          rw [child?_eq_none_iff]
          intro listed
          exact others (here ▸ (names_pruneAll_sublist rest).subset listed)
        by_cases bare : child.entries = []
        · simp [pruneAll, bare, missing, child?, here]
        · simp [pruneAll, bare, child?, here]
      · by_cases bare : child.entries = []
        · simp [pruneAll, bare, ih, child?, here]
        · simp [pruneAll, bare, ih, child?, here]

/-- The parts of a tree that hold no permits are not seen by lookups. -/
theorem permitAt_prune {tree : PermissionTree} (tidy : tree.IsTidy) (trail : List String) :
    tree.prune.permitAt trail = tree.permitAt trail := by
  induction trail generalizing tree with
  | nil =>
      cases tree
      rfl
  | cons segment rest ih =>
      rcases tidy with @⟨name, permit, children, named, distinct, below⟩
      rw [prune, permitAt_cons, permitAt_cons, child?_pruneAll distinct]
      cases found : child? segment children with
      | none =>
          rfl
      | some child =>
          by_cases bare : child.entries = []
          · simp [bare, permitAt_of_entries_nil bare]
          · simp [bare, ih (below child (child?_mem found).1)]

/-- Permits that are set below a child are set in the child. -/
theorem setAll_map_cons {segment : String} (steps : ¬ PermissionPath.isStay segment = true)
    {permits : List (List String × Permit)} (nonempty : permits ≠ []) (name : Option String)
    (permit : Permit) (children : List PermissionTree) :
    setAll (permits.map (Prod.map (segment :: ·) id)) (node name permit children) =
      node name permit (updateChild segment (setAll permits) children) := by
  have one : ∀ (path : List String) (new : Permit) children,
      set new (segment :: path) (node name permit children) =
        node name permit (updateChild segment (set new path) children) := by
    intro path new children
    rw [set, if_neg steps]
  induction permits generalizing children with
  | nil =>
      exact absurd rfl nonempty
  | cons first rest ih =>
      rcases first with ⟨path, new⟩
      by_cases last : rest = []
      · subst last
        exact one path new children
      · have rest_eq := ih last (updateChild segment (set new path) children)
        rw [updateChild_updateChild (set_name new path)] at rest_eq
        rw [List.map_cons, setAll, List.foldl_cons]
        exact (congrArg (setAll _) (one path new children)).trans rest_eq

/-- Setting the permits of a tidy tree in an empty one makes the tree without the parts that hold no
permits. -/
theorem setAll_entries {tree : PermissionTree} (tidy : tree.IsTidy) :
    setAll tree.entries (leaf tree.name) = tree.prune := by
  induction tree with
  | node name permit children ih =>
      rcases tidy with ⟨named, distinct, below⟩
      -- The children come one after the other, each with a segment that is not there yet.
      have children_eq : ∀ done : List PermissionTree,
          (∀ child ∈ children, ∀ earlier ∈ done, child.name ≠ earlier.name) →
          setAll (entriesAll children) (node name permit done) =
            node name permit (done ++ pruneAll children) := by
        induction children with
        | nil =>
            intro done _
            rw [pruneAll, List.append_nil]
            rfl
        | cons child rest ihRest =>
            intro done apart
            have ihRest := ihRest (fun other listed => ih other (List.mem_cons_of_mem _ listed))
              (fun other listed => named other (List.mem_cons_of_mem _ listed))
              (List.nodup_cons.1 distinct).2
              (fun other listed => below other (List.mem_cons_of_mem _ listed))
            rw [entriesAll, setAll_append, pruneAll]
            by_cases bare : child.entries = []
            · rw [bare, if_pos rfl]
              exact ihRest done fun other listed => apart other (List.mem_cons_of_mem _ listed)
            · rcases named child List.mem_cons_self with ⟨segment, isNamed, isSegment⟩
              have reached : child.segment = segment := by
                rw [PermissionTree.segment, isNamed]
                rfl
              have isNew : child? segment done = none := by
                rw [child?_eq_none_iff, ← isNamed]
                intro listed
                rcases List.mem_map.1 listed with ⟨earlier, isEarlier, same⟩
                exact apart child List.mem_cons_self earlier isEarlier same.symm
              rw [if_neg bare, reached, setAll_map_cons isSegment.steps bare,
                updateChild_of_new isNew, ← isNamed,
                ih child List.mem_cons_self (below child List.mem_cons_self), ihRest]
              · rw [List.append_assoc, List.singleton_append]
              · intro other listed earlier isEarlier
                rcases List.mem_append.1 isEarlier with isEarlier | isLast
                · exact apart other (List.mem_cons_of_mem _ listed) earlier isEarlier
                · rw [List.mem_singleton.1 isLast, prune_name]
                  intro same
                  exact (List.nodup_cons.1 distinct).1 (List.mem_map.2 ⟨other, listed, same⟩)
      have root_eq : setAll (if permit = .none then [] else [([], permit)]) (leaf name) =
          node name permit [] := by
        cases permit <;> rfl
      have name_eq : (node name permit children).name = name := rfl
      rw [entries, setAll_append, name_eq, root_eq, children_eq [] (by simp), List.nil_append,
        prune]

/-- A path of a tidy tree has no points in its segments. -/
theorem IsTidy.pointless {tree : PermissionTree} (tidy : tree.IsTidy) :
    ∀ permit ∈ tree.entries, ∀ segment ∈ permit.1, '.' ∉ segment.toList := by
  induction tree with
  | node name own children ih =>
      rcases tidy with ⟨named, -, below⟩
      have children_pointless : ∀ permit ∈ entriesAll children, ∀ segment ∈ permit.1,
          '.' ∉ segment.toList := by
        induction children with
        | nil =>
            simp [entriesAll]
        | cons child rest ihRest =>
            intro permit listed segment onPath
            rw [entriesAll, List.mem_append] at listed
            rcases listed with here | later
            · rcases List.mem_map.1 here with ⟨permit', listed, rfl⟩
              rcases List.mem_cons.1 onPath with rfl | onPath
              · rcases named child List.mem_cons_self with ⟨segment, isNamed, isSegment⟩
                rw [PermissionTree.segment, isNamed]
                exact isSegment.pointless
              · exact ih child List.mem_cons_self (below child List.mem_cons_self) permit' listed
                  segment onPath
            · exact ihRest (fun other listed => ih other (List.mem_cons_of_mem _ listed))
                (fun other listed => named other (List.mem_cons_of_mem _ listed))
                (fun other listed => below other (List.mem_cons_of_mem _ listed))
                permit later segment onPath
      intro permit listed segment onPath
      rw [entries, List.mem_append] at listed
      rcases listed with here | below
      · split at here
        · cases here
        · rw [List.mem_singleton.1 here] at onPath
          cases onPath
      · exact children_pointless permit below segment onPath

/-- A tidy tree that was saved is restored in an empty one without the parts that hold no permits.
-/
theorem unflatten_flatten {tree : PermissionTree} (tidy : tree.IsTidy) :
    unflatten tree.flatten (leaf tree.name) = (.ok (), tree.prune) := by
  rw [flatten, flattenAt_eq, unflatten_entries tidy.pointless, setAll_entries tidy]

end PermissionTree

end Steward
