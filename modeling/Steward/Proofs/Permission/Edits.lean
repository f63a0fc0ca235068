import Steward.Proofs.Permission.ForestView

/-!
# Trees after edits

A tree is edited from its root: a permit is set at the end of a path, or everything
is dropped.  What it answers later is a matter of the edits alone.  The permit of a
trail is the one set for it most recently since everything was last dropped, and the
longest prefix of a trail whose permit is not open decides
(`check_is_longest_prefix`).

The same holds of a node that was made by hand, among any others, as long as only it
is edited.  A path that is written as a text is edited as its segments
(`PermissionPath.ofText`).
-/

namespace Steward

/-- A change of a tree from its root. -/
inductive TreeEdit where
  | set (path : PermissionPath) (permit : Permit)
  | clear

namespace TreeEdit

/-- Edit a tree. -/
def apply : TreeEdit → PermissionTree → PermissionTree
  | .set path permit, tree => tree.set permit path
  | .clear, tree => tree.clear

def applyAll (edits : List TreeEdit) (tree : PermissionTree) : PermissionTree :=
  edits.foldl (fun tree edit => edit.apply tree) tree

/-- Edit what is below a node of a forest. -/
def applyAt (root : Nat) : TreeEdit → Forest → Forest
  | .set path permit, forest => (forest.set permit path root).2
  | .clear, forest => forest.clear root

def applyAllAt (root : Nat) (edits : List TreeEdit) (forest : Forest) : Forest :=
  edits.foldl (fun forest edit => edit.applyAt root forest) forest

/-! ## The most recent permits -/

/-- An edit says something about the permit of a trail. -/
def Touches (trail : List String) : TreeEdit → Prop
  | .set path _ => path.trail = trail
  | .clear => True

/-- A permit was set for a trail, and no later edit says anything about it. -/
def IsLatest (edits : List TreeEdit) (trail : List String) (permit : Permit) : Prop :=
  ∃ earlier path later, edits = earlier ++ .set path permit :: later ∧ path.trail = trail ∧
    ∀ edit ∈ later, ¬ edit.Touches trail

/-- What an edit makes of the permits by trail. -/
def onView : TreeEdit → (List String → Permit) → List String → Permit
  | .set path permit, view => Function.update view path.trail permit
  | .clear, _ => fun _ => .none

/-- The permits by trail after some edits. -/
def latest (edits : List TreeEdit) : List String → Permit :=
  edits.foldl (fun view edit => edit.onView view) fun _ => .none

theorem latest_concat (edits : List TreeEdit) (edit : TreeEdit) :
    latest (edits ++ [edit]) = edit.onView (latest edits) := by
  rw [latest, List.foldl_append]
  rfl

theorem onView_of_not_touches {edit : TreeEdit} {trail : List String}
    (elsewhere : ¬ edit.Touches trail) (view : List String → Permit) :
    edit.onView view trail = view trail := by
  cases edit with
  | set path permit =>
      exact Function.update_of_ne (Ne.symm elsewhere) _ _
  | clear =>
      exact absurd trivial elsewhere

theorem IsLatest.latest_eq {edits : List TreeEdit} {trail : List String} {permit : Permit}
    (isLatest : IsLatest edits trail permit) : latest edits trail = permit := by
  rcases isLatest with ⟨earlier, path, later, rfl, rfl, untouched⟩
  induction later using List.reverseRecOn with
  | nil =>
      rw [latest_concat]
      exact Function.update_self _ _ _
  | append_singleton later edit ih =>
      rw [← List.cons_append, ← List.append_assoc, latest_concat,
        onView_of_not_touches (untouched edit (List.mem_append_right _ List.mem_cons_self))]
      exact ih fun other member => untouched other (List.mem_append_left _ member)

theorem IsLatest.concat {edits : List TreeEdit} {trail : List String} {permit : Permit}
    (isLatest : IsLatest edits trail permit) {edit : TreeEdit}
    (elsewhere : ¬ edit.Touches trail) : IsLatest (edits ++ [edit]) trail permit := by
  rcases isLatest with ⟨earlier, path, later, rfl, same, untouched⟩
  refine ⟨earlier, path, later ++ [edit], by simp, same, ?_⟩
  intro other member
  rcases List.mem_append.1 member with before | last
  · exact untouched other before
  · rw [List.mem_singleton.1 last]
    exact elsewhere

theorem isLatest_latest {edits : List TreeEdit} {trail : List String}
    (decides : latest edits trail ≠ .none) : IsLatest edits trail (latest edits trail) := by
  induction edits using List.reverseRecOn with
  | nil =>
      exact absurd rfl decides
  | append_singleton edits edit ih =>
      rw [latest_concat] at decides ⊢
      cases edit with
      | set path permit =>
          by_cases here : path.trail = trail
          · subst here
            rw [onView, Function.update_self]
            exact ⟨edits, path, [], rfl, rfl, by simp⟩
          · have elsewhere : ¬ (TreeEdit.set path permit).Touches trail := here
            rw [onView_of_not_touches elsewhere] at decides ⊢
            exact (ih decides).concat elsewhere
      | clear =>
          exact absurd rfl decides

theorem latest_eq_iff {edits : List TreeEdit} {trail : List String} {permit : Permit}
    (decides : permit ≠ .none) : latest edits trail = permit ↔ IsLatest edits trail permit := by
  constructor
  · rintro rfl
    exact isLatest_latest decides
  · exact IsLatest.latest_eq

theorem latest_eq_none_iff {edits : List TreeEdit} {trail : List String} :
    latest edits trail = .none ↔ ∀ permit, IsLatest edits trail permit → permit = .none := by
  constructor
  · rintro silent permit isLatest
    rw [← isLatest.latest_eq, silent]
  · intro silent
    by_contra decides
    exact decides (silent _ (isLatest_latest decides))

end TreeEdit

/-! ## The longest prefix -/

namespace PermissionTree

theorem exists_longest_of_deepest {view : List String → Permit} {trail : List String}
    (found : deepest view trail ≠ .none) :
    ∃ shorter, shorter <+: trail ∧ view shorter = deepest view trail ∧
      ∀ longer, longer <+: trail → shorter.length < longer.length → view longer = .none := by
  induction trail generalizing view with
  | nil =>
      refine ⟨[], List.nil_prefix, rfl, ?_⟩
      intro longer isPrefix isLonger
      rw [List.prefix_nil.1 isPrefix] at isLonger
      exact absurd isLonger (Nat.lt_irrefl _)
  | cons segment rest ih =>
      rw [deepest] at found ⊢
      by_cases below : deepest (fun trail => view (segment :: trail)) rest = .none
      · refine ⟨[], List.nil_prefix, by rw [below, Permit.none_orElse], ?_⟩
        intro longer isPrefix isLonger
        cases longer with
        | nil =>
            exact absurd isLonger (Nat.lt_irrefl _)
        | cons first longer =>
            rcases List.cons_prefix_cons.1 isPrefix with ⟨rfl, isBelow⟩
            exact deepest_eq_none_iff.1 below longer isBelow
      · rcases ih below with ⟨shorter, isPrefix, stands, longest⟩
        rw [Permit.orElse_of_ne_none _ below]
        refine ⟨segment :: shorter, List.cons_prefix_cons.2 ⟨rfl, isPrefix⟩, stands, ?_⟩
        intro longer isLongerPrefix isLonger
        cases longer with
        | nil =>
            exact absurd isLonger (Nat.not_lt_zero _)
        | cons first longer =>
            rcases List.cons_prefix_cons.1 isLongerPrefix with ⟨rfl, isBelow⟩
            exact longest longer isBelow (Nat.lt_of_succ_lt_succ isLonger)

/-- The deepest permit along a trail stands at its longest prefix that has one. -/
theorem deepest_eq_iff {view : List String → Permit} {trail : List String} {permit : Permit}
    (decides : permit ≠ .none) :
    deepest view trail = permit ↔
      ∃ shorter, shorter <+: trail ∧ view shorter = permit ∧
        ∀ longer, longer <+: trail → shorter.length < longer.length → view longer = .none := by
  constructor
  · rintro rfl
    exact exists_longest_of_deepest decides
  · rintro ⟨shorter, isPrefix, rfl, longest⟩
    have found : deepest view trail ≠ .none := by
      intro silent
      exact decides (deepest_eq_none_iff.1 silent shorter isPrefix)
    rcases exists_longest_of_deepest found with ⟨other, isPrefixToo, stands, longestToo⟩
    rw [← stands]
    apply congrArg
    have notLonger : other.length ≤ shorter.length := by
      by_contra isLonger
      exact found (stands.symm.trans (longest other isPrefixToo (Nat.lt_of_not_le isLonger)))
    have notShorter : shorter.length ≤ other.length := by
      by_contra isShorter
      exact decides (longestToo shorter isPrefix (Nat.lt_of_not_le isShorter))
    exact (List.prefix_of_prefix_length_le isPrefixToo isPrefix notLonger).eq_of_length_le
      notShorter

end PermissionTree

namespace TreeEdit

/-- A permit is the most recent one of the longest prefix of a trail whose most recent
permit is not open. -/
def Decides (edits : List TreeEdit) (trail : List String) (permit : Permit) : Prop :=
  permit ≠ .none ∧ ∃ shorter, shorter <+: trail ∧ IsLatest edits shorter permit ∧
    ∀ longer, longer <+: trail → shorter.length < longer.length →
      ∀ other, IsLatest edits longer other → other = .none

/-- What is to be answered for a trail after some edits: what they decide, or the
default if the most recent permits of all its prefixes are open. -/
def Answers (edits : List TreeEdit) (fallback : Permit) (trail : List String) (permit : Permit) :
    Prop :=
  Decides edits trail permit ∨
    permit = fallback ∧
      ∀ shorter, shorter <+: trail → ∀ other, IsLatest edits shorter other → other = .none

theorem decides_iff {edits : List TreeEdit} {trail : List String} {permit : Permit}
    (decides : permit ≠ .none) :
    Decides edits trail permit ↔ PermissionTree.deepest (latest edits) trail = permit := by
  rw [Decides, PermissionTree.deepest_eq_iff decides]
  simp only [latest_eq_iff decides, latest_eq_none_iff, ne_eq, decides, not_false_eq_true,
    true_and]

/-- The deepest of the most recent permits along a trail, or the default, is what is to
be answered. -/
theorem orElse_eq_iff_answers (edits : List TreeEdit) (fallback : Permit) (trail : List String)
    (permit : Permit) :
    (PermissionTree.deepest (latest edits) trail).orElse fallback = permit ↔
      Answers edits fallback trail permit := by
  have silent_iff : PermissionTree.deepest (latest edits) trail = .none ↔
      ∀ shorter, shorter <+: trail → ∀ other, IsLatest edits shorter other → other = .none := by
    simp only [PermissionTree.deepest_eq_none_iff, latest_eq_none_iff]
  rw [Answers, ← silent_iff]
  by_cases silent : PermissionTree.deepest (latest edits) trail = .none
  · have undecided : ¬ Decides edits trail permit := by
      intro decides
      exact decides.1 (((decides_iff decides.1).1 decides).symm.trans silent)
    rw [silent, Permit.none_orElse]
    simp [undecided, eq_comm]
  · rw [Permit.orElse_of_ne_none _ silent]
    simp only [silent, and_false, or_false]
    constructor
    · rintro rfl
      exact (decides_iff silent).2 rfl
    · intro decides
      exact (decides_iff decides.1).1 decides

/-! ## Trees and nodes made by hand -/

theorem permitAt_apply (edit : TreeEdit) (tree : PermissionTree) :
    (edit.apply tree).permitAt = edit.onView tree.permitAt := by
  funext trail
  cases edit with
  | set path permit =>
      rw [apply, PermissionTree.permitAt_set, onView, Function.update_apply]
  | clear =>
      exact PermissionTree.permitAt_clear tree trail

theorem permitAt_applyAll (edits : List TreeEdit) :
    (applyAll edits .root).permitAt = latest edits := by
  induction edits using List.reverseRecOn with
  | nil =>
      exact funext PermissionTree.permitAt_root
  | append_singleton edits edit ih =>
      rw [latest_concat, ← ih, applyAll, List.foldl_append]
      exact permitAt_apply edit _

/-- An edit of what is below a root does there what it does to a tree. -/
theorem view_applyAt (edit : TreeEdit) {forest : Forest} {root : Nat}
    (isTree : forest.IsTreeBelow root) :
    (edit.applyAt root forest).IsTreeBelow root ∧
      (edit.applyAt root forest).view root = edit.onView (forest.view root) := by
  cases edit with
  | set path permit =>
      exact isTree.set (Forest.follow_nil forest root) permit path
  | clear =>
      exact Forest.IsTreeBelow.clear (isTree.inside (Forest.follow_nil forest root))

theorem view_applyAllAt (edits : List TreeEdit) {forest : Forest} {root : Nat}
    (isTree : forest.IsTreeBelow root) (empty : forest.view root = fun _ => .none) :
    (applyAllAt root edits forest).IsTreeBelow root ∧
      (applyAllAt root edits forest).view root = latest edits := by
  induction edits using List.reverseRecOn with
  | nil =>
      exact ⟨isTree, empty⟩
  | append_singleton edits edit ih =>
      rw [latest_concat, ← ih.2, applyAllAt, List.foldl_append]
      exact view_applyAt edit ih.1

end TreeEdit

/-- A node that was just made is the root of a tree of which nothing is seen. -/
theorem Forest.isTreeBelow_add (forest : Forest) (name : Option String) :
    (forest.add name .none).2.IsTreeBelow (forest.add name .none).1 ∧
      (forest.add name .none).2.view (forest.add name .none).1 = fun _ => .none := by
  have inside : forest.nodes.length < (forest.add name .none).2.nodes.length := by
    simp [add]
  have same : (forest.add name .none).2.clear forest.nodes.length = (forest.add name .none).2 := by
    rw [clear, update, Forest.mk.injEq]
    apply List.ext_getElem?
    intro place
    rw [List.getElem?_modify]
    split
    · rename_i here
      subst here
      simp [add]
    · exact Option.map_id_apply
  rw [← same]
  exact IsTreeBelow.clear inside

/-- After any edits, a tree that was empty answers for a path with the most recent
permit of the longest prefix whose most recent permit is not open, or with the default
if there is none.  So does a node that was made by hand. -/
theorem TreeEdit.check_is_longest_prefix (edits : List TreeEdit) (path : PermissionPath)
    (fallback permit : Permit) :
    ((applyAll edits .root).check fallback path = permit ↔
        Answers edits fallback path.trail permit) ∧
      ∀ (forest : Forest) (name : Option String),
        let made := forest.add name .none
        ((applyAllAt made.1 edits made.2).check fallback path made.1 = permit ↔
          Answers edits fallback path.trail permit) := by
  rw [← orElse_eq_iff_answers]
  constructor
  · rw [PermissionTree.check_eq_deepest, permitAt_applyAll]
  · intro forest name made
    rcases forest.isTreeBelow_add name with ⟨isTree, empty⟩
    rw [Forest.check_eq_deepest, (view_applyAllAt edits isTree empty).2]

/-- A permit that is set to be open gives way to the one above it, and `*` leads
nowhere. -/
example :
    let edits : List TreeEdit :=
      [.set ["admin", "*"] .deny, .set ["*", "admin", "roles"] .allow,
        .set ["admin", "roles"] .none]
    (TreeEdit.applyAll edits .root).check .allow ["admin", "roles", "give"] = .deny := by
  decide

end Steward
