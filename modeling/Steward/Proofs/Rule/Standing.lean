import Mathlib.Data.List.Basic
import Mathlib.Data.Nat.Find
import Steward.Proofs.Rule.Rebuilding

/-!
# Components that stand on their parts

A reference stands if the component it refers to is there and all parts of that
component stand; so no component lies in itself.  Unlike a shape this asks for no more
than that the references lead somewhere: an inverted condition without a base has no
parts, and stands.

In a table in which all components stand none of them is deeper than the table is long
(`Stands.within`), so the operations on components never come to the bound that is put on
their depth.
-/

namespace Steward

variable {F : Type}

namespace Component

/-- The components that a component is made of. -/
def parts : Component F → List ComponentRef
  | .triggerList items | .anyOf items => items
  | .inverted (some base) => [some base]
  | _ => []

@[simp]
theorem parts_bare (component : Component F) : component.bare.parts = component.parts := by
  cases component <;> rfl

/-- What a component is made of does not depend on the rules attached to it. -/
theorem parts_of_bare {component other : Component F} (same : component.bare = other.bare) :
    component.parts = other.parts := by
  rw [← component.parts_bare, same, other.parts_bare]

end Component

namespace RuleStore

variable {store before after : RuleStore F} {reference : ComponentRef} {depth more : Nat}
  {component : Component F}

/-- A component is there, and all it is made of stands. -/
inductive Stands (store : RuleStore F) : ComponentRef → Prop where
  | intro {id : Nat} {found : Component F} (present : store.component? id = some found)
      (parts : ∀ part ∈ found.parts, Stands store part) : Stands store (some id)

/-- A component stands, and is made of no more than some layers. -/
def StandsWithin (store : RuleStore F) : Nat → ComponentRef → Prop
  | 0, _ => False
  | depth + 1, reference =>
    ∃ id found, reference = some id ∧ store.component? id = some found ∧
      ∀ part ∈ found.parts, store.StandsWithin depth part

theorem Stands.exists_id (stands : store.Stands reference) :
    ∃ id < store.components.length, reference = some id := by
  cases stands with
  | intro present _ =>
      exact ⟨_, (List.getElem?_eq_some_iff.1 present).1, rfl⟩

/-- What stands goes on to stand where all components are kept, up to the rules attached to
them. -/
theorem Stands.mono (kept : ∀ {id found}, before.component? id = some found →
      ∃ grown, after.component? id = some grown ∧ grown.bare = found.bare)
    (stands : before.Stands reference) : after.Stands reference := by
  induction stands with
  | intro present _ ih =>
      rcases kept present with ⟨grown, presentToo, same⟩
      refine .intro presentToo fun part isPart => ih part ?_
      rw [← Component.parts_of_bare same]
      exact isPart

/-! ## Depth -/

theorem StandsWithin.mono (stands : store.StandsWithin depth reference) (deeper : depth ≤ more) :
    store.StandsWithin more reference := by
  induction depth generalizing reference more with
  | zero =>
      exact stands.elim
  | succ depth ih =>
      rcases Nat.exists_eq_add_one.2 (Nat.lt_of_lt_of_le depth.succ_pos deeper) with ⟨more, rfl⟩
      rcases stands with ⟨id, found, rfl, present, parts⟩
      exact ⟨id, found, rfl, present, fun part isPart =>
        ih (parts part isPart) (Nat.le_of_succ_le_succ deeper)⟩

theorem StandsWithin.grows (stands : before.StandsWithin depth reference)
    (grows : before.Grows after) : after.StandsWithin depth reference := by
  induction depth generalizing reference with
  | zero =>
      exact stands.elim
  | succ depth ih =>
      rcases stands with ⟨id, found, rfl, present, parts⟩
      rcases grows.component? present with ⟨grown, presentAfter, sameBare⟩
      refine ⟨id, grown, rfl, presentAfter, fun part isPart => ih (parts part ?_)⟩
      rw [← Component.parts_of_bare sameBare]
      exact isPart

/-- Some depth is enough for all members of a list. -/
theorem exists_within_all {refs : List ComponentRef}
    (each : ∀ reference ∈ refs, ∃ depth, store.StandsWithin depth reference) :
    ∃ depth, ∀ reference ∈ refs, store.StandsWithin depth reference := by
  induction refs with
  | nil =>
      exact ⟨0, fun _ absent => nomatch absent⟩
  | cons first rest ih =>
      rcases each first List.mem_cons_self with ⟨depth, here⟩
      rcases ih fun other isLater => each other (List.mem_cons_of_mem _ isLater) with
        ⟨others, later⟩
      refine ⟨max depth others, ?_⟩
      intro reference isMember
      rcases List.mem_cons.1 isMember with rfl | isLater
      · exact here.mono (Nat.le_max_left _ _)
      · exact (later reference isLater).mono (Nat.le_max_right _ _)

theorem Stands.exists_within (stands : store.Stands reference) :
    ∃ depth, store.StandsWithin depth reference := by
  induction stands with
  | intro present _ ih =>
      rcases exists_within_all ih with ⟨depth, parts⟩
      exact ⟨depth + 1, _, _, rfl, present, parts⟩

/-- A component that needs so many layers has as many components in or below itself. -/
theorem StandsWithin.exists_chain (stands : store.StandsWithin (depth + 1) reference)
    (high : ¬ store.StandsWithin depth reference) :
    ∃ chain : List Nat, chain.length = depth + 1 ∧ chain.Nodup ∧
      ∀ id ∈ chain, store.StandsWithin (depth + 1) (some id) := by
  induction depth generalizing reference with
  | zero =>
      rcases stands with ⟨id, found, rfl, present, parts⟩
      refine ⟨[id], rfl, by simp, ?_⟩
      intro other isOther
      rw [List.mem_singleton.1 isOther]
      exact ⟨id, found, rfl, present, parts⟩
  | succ depth ih =>
      have whole := stands
      rcases stands with ⟨id, found, rfl, present, parts⟩
      -- One part needs all layers but one.  This component needs more than that, so it is not
      -- in the chain below that part.
      have deepest : ∃ part ∈ found.parts, ¬ store.StandsWithin depth part := by
        by_contra shallow
        simp only [not_exists, not_and, not_not] at shallow
        exact high ⟨id, found, rfl, present, shallow⟩
      rcases deepest with ⟨part, isPart, deep⟩
      rcases ih (parts part isPart) deep with ⟨chain, length, distinct, below⟩
      refine ⟨id :: chain, by rw [List.length_cons, length],
        List.nodup_cons.2 ⟨fun again => high (below id again), distinct⟩, ?_⟩
      intro other isOther
      rcases List.mem_cons.1 isOther with rfl | isBelow
      · exact whole
      · exact (below other isBelow).mono (Nat.le_succ _)

/-- No component is deeper than the table is long. -/
theorem Stands.within (stands : store.Stands reference) :
    store.StandsWithin store.components.length reference := by
  classical
  have deep := stands.exists_within
  have least := Nat.find_spec deep
  have minimal : ∀ {shallower}, shallower < Nat.find deep →
      ¬ store.StandsWithin shallower reference := Nat.find_min deep
  refine least.mono ?_
  generalize Nat.find deep = depth at least minimal ⊢
  cases depth with
  | zero =>
      exact least.elim
  | succ depth =>
      rcases least.exists_chain (minimal (Nat.lt_succ_self depth)) with
        ⟨chain, length, distinct, below⟩
      -- The chain has no component twice, and all of them are in the table.
      have inside : chain ⊆ List.range store.components.length := by
        intro id isMember
        rcases below id isMember with ⟨_, found, ⟨⟩, present, -⟩
        exact List.mem_range.2 (List.getElem?_eq_some_iff.1 present).1
      have short := distinct.length_le_of_subset inside
      rw [length, List.length_range] at short
      exact short

/-! ## Tables of proper components -/

/-- All components of a table stand. -/
def IsProper (store : RuleStore F) : Prop :=
  ∀ id < store.components.length, store.Stands (some id)

/-- A reference is to a component of the table. -/
def Has (store : RuleStore F) (reference : ComponentRef) : Prop :=
  ∃ id < store.components.length, reference = some id

theorem IsProper.stands (proper : store.IsProper) (has : store.Has reference) :
    store.Stands reference := by
  rcases has with ⟨id, inside, rfl⟩
  exact proper id inside

theorem Has.mono (has : before.Has reference)
    (longer : before.components.length ≤ after.components.length) : after.Has reference := by
  rcases has with ⟨id, inside, rfl⟩
  exact ⟨id, Nat.lt_of_lt_of_le inside longer, rfl⟩

theorem component?_addComponent_of_old {id : Nat} {found : Component F}
    (present : store.component? id = some found) (added : Component F) :
    (store.addComponent added).2.component? id = some found := by
  have old : id < store.components.length := (List.getElem?_eq_some_iff.1 present).1
  rw [component?, RuleStore.addComponent, List.getElem?_append_left old]
  exact present

theorem length_addComponent (store : RuleStore F) (component : Component F) :
    (store.addComponent component).2.components.length = store.components.length + 1 := by
  exact List.length_append

/-- A component that is made of components of the table stands behind them. -/
theorem IsProper.addComponent (proper : store.IsProper)
    (parts : ∀ part ∈ component.parts, store.Has part) :
    (store.addComponent component).2.IsProper := by
  have kept : ∀ {reference}, store.Stands reference →
      (store.addComponent component).2.Stands reference := by
    intro reference stands
    exact stands.mono fun present => ⟨_, component?_addComponent_of_old present component, rfl⟩
  intro id inside
  rw [length_addComponent] at inside
  rcases Nat.lt_succ_iff_lt_or_eq.1 inside with old | rfl
  · exact kept (proper id old)
  · exact .intro (component?_addComponent store component) fun part isPart =>
      kept (proper.stands (parts part isPart))

/-- Components without parts stand by themselves. -/
theorem IsProper.of_plain (plain : ∀ component ∈ store.components, component.parts = []) :
    store.IsProper := by
  intro id inside
  have present : store.component? id = some store.components[id] := List.getElem?_eq_getElem inside
  refine .intro present ?_
  rw [plain _ (List.getElem_mem inside)]
  exact nofun

end RuleStore

end Steward
