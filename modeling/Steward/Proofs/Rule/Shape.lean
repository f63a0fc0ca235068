import Mathlib.Data.List.Forall2
import Steward.Proofs.Rule.Frame

/-!
# Shapes of components

Components refer to each other by numbers in one table, and may be shared.  What a
component is made of, apart from this numbering, is its shape: a finite tree with
single components at its leaves.  Two components of one shape are structurally
equal, wherever they stand.

A shape that stands somewhere in a table is not higher than the table is long,
because no component lies in itself.  So the bound that the operations on
components put on nesting is never reached by a component that has a shape.
-/

/-!
## Lists whose members are related in order

Every member of one of the two lists has its partner in the other one.
-/

namespace List.Forall₂

variable {α β : Type} {relation other : α → β → Prop} {left : List α} {right : List β}

theorem exists_of_mem_left (each : Forall₂ relation left right) {first : α}
    (isMember : first ∈ left) : ∃ second ∈ right, relation first second := by
  induction each with
  | nil =>
      cases isMember
  | cons related _ ih =>
      rcases List.mem_cons.1 isMember with rfl | later
      · exact ⟨_, List.mem_cons_self, related⟩
      · rcases ih later with ⟨second, isSecond, related⟩
        exact ⟨second, List.mem_cons_of_mem _ isSecond, related⟩

theorem exists_of_mem_right (each : Forall₂ relation left right) {second : β}
    (isMember : second ∈ right) : ∃ first ∈ left, relation first second := by
  exact each.flip.exists_of_mem_left isMember

/-- A relation may be weakened with the knowledge of where its first member stands. -/
theorem imp_of_mem (each : Forall₂ relation left right)
    (implies : ∀ first ∈ left, ∀ second, relation first second → other first second) :
    Forall₂ other left right := by
  have marked : Forall₂ (fun first second => first ∈ left ∧ relation first second) left right :=
    (List.forall₂_and_left left right).2 ⟨fun _ isMember => isMember, each⟩
  exact marked.imp fun first second related => implies first related.1 second related.2

theorem map_eq_map {γ : Type} {f : α → γ} {g : β → γ} (each : Forall₂ relation left right)
    (same : ∀ first second, relation first second → f first = g second) :
    left.map f = right.map g := by
  induction each with
  | nil =>
      rfl
  | cons related _ ih =>
      rw [List.map_cons, List.map_cons, same _ _ related, ih]

/-- What holds between any two members of one list holds between their partners. -/
theorem pairwise_left {before : β → β → Prop} {after : α → α → Prop}
    (each : Forall₂ relation left right) (pairwise : right.Pairwise before)
    (transfer : ∀ {first second early late}, relation first early → relation second late →
      before early late → after first second) : left.Pairwise after := by
  induction each with
  | nil =>
      exact .nil
  | cons related each ih =>
      rcases List.pairwise_cons.1 pairwise with ⟨beforeRest, pairwise⟩
      refine List.pairwise_cons.2 ⟨?_, ih pairwise⟩
      intro second isLater
      rcases each.exists_of_mem_left isLater with ⟨late, isLate, relatedToo⟩
      exact transfer related relatedToo (beforeRest late isLate)

/-- Two partners of one member are related themselves. -/
theorem join {γ : Type} {also : α → γ → Prop} {between : β → γ → Prop} {third : List γ}
    (each : Forall₂ relation left right) (alsoEach : Forall₂ also left third)
    (joins : ∀ {first second partner}, relation first second → also first partner →
      between second partner) : Forall₂ between right third := by
  induction each generalizing third with
  | nil =>
      cases alsoEach
      exact .nil
  | cons related _ ih =>
      cases alsoEach with
      | cons alsoRelated alsoEach =>
          exact .cons (joins related alsoRelated) (ih alsoEach)

theorem exists_left (each : ∀ second ∈ right, ∃ first, relation first second) :
    ∃ left, Forall₂ relation left right := by
  induction right with
  | nil =>
      exact ⟨[], .nil⟩
  | cons second rest ih =>
      rcases each second List.mem_cons_self with ⟨first, related⟩
      rcases ih fun second isLater => each second (List.mem_cons_of_mem _ isLater) with
        ⟨left, others⟩
      exact ⟨first :: left, .cons related others⟩

end List.Forall₂

namespace Steward

variable {F : Type}

/-- The two kinds of components that hold a list of others. -/
inductive Gathering where
  | triggers
  | alternatives
  deriving DecidableEq, Repr

namespace Gathering

def component : Gathering → List ComponentRef → Component F
  | .triggers, items => .triggerList items
  | .alternatives, items => .anyOf items

/-- The key of all components of a kind. -/
def key : Gathering → String
  | .triggers => "trigger::list"
  | .alternatives => "condition::orList"

@[simp]
theorem bare_component (gathering : Gathering) (items : List ComponentRef) :
    (gathering.component items : Component F).bare = gathering.component items := by
  cases gathering <;> rfl

theorem component_injective {gathering other : Gathering} {items others : List ComponentRef}
    (same : (gathering.component items : Component F) = other.component others) :
    gathering = other ∧ items = others := by
  cases gathering <;> cases other <;> cases same <;> exact ⟨rfl, rfl⟩

end Gathering

namespace Component

/-- A component that is not made of others. -/
def IsSingle : Component F → Prop
  | .triggerList _ | .anyOf _ | .inverted _ => False
  | _ => True

theorem not_isSingle_component (gathering : Gathering) (items : List ComponentRef) :
    ¬ (gathering.component items : Component F).IsSingle := by
  cases gathering <;> exact id

@[simp]
theorem isSingle_bare (component : Component F) :
    component.bare.IsSingle ↔ component.IsSingle := by
  cases component <;> rfl

end Component

/-- What a component is made of. -/
inductive Shape (F : Type) where
  | single (component : Component F)
  | gathered (gathering : Gathering) (items : List (Shape F))
  | inverted (base : Shape F)

namespace Shape

/-- Induction over shapes, with a hypothesis for every item of a list. -/
@[elab_as_elim]
theorem induction {motive : Shape F → Prop}
    (single : ∀ component, motive (.single component))
    (gathered : ∀ gathering items, (∀ item ∈ items, motive item) →
      motive (.gathered gathering items))
    (inverted : ∀ base, motive base → motive (.inverted base)) :
    ∀ shape, motive shape
  | .single component => single component
  | .gathered gathering items =>
      gathered gathering items fun item _ => induction single gathered inverted item
  | .inverted base => inverted base (induction single gathered inverted base)

/-- How many components lie in each other. -/
def height : Shape F → Nat
  | .single _ => 1
  | .gathered _ items => (items.map height).foldr max 0 + 1
  | .inverted base => base.height + 1

theorem height_le_foldr {items : List (Shape F)} {item : Shape F} (isItem : item ∈ items) :
    item.height ≤ (items.map height).foldr max 0 := by
  induction items with
  | nil =>
      cases isItem
  | cons first rest ih =>
      rw [List.map_cons, List.foldr_cons]
      rcases List.mem_cons.1 isItem with rfl | later
      · exact Nat.le_max_left _ _
      · exact Nat.le_trans (ih later) (Nat.le_max_right _ _)

/-- A list of shapes is as high as one of them, unless it is empty. -/
theorem foldr_eq_height (items : List (Shape F)) :
    (items.map height).foldr max 0 = 0 ∨
      ∃ item ∈ items, item.height = (items.map height).foldr max 0 := by
  induction items with
  | nil =>
      exact .inl rfl
  | cons first rest ih =>
      right
      rw [List.map_cons, List.foldr_cons]
      by_cases higher : (rest.map height).foldr max 0 ≤ first.height
      · exact ⟨first, by simp, (Nat.max_eq_left higher).symm⟩
      · have lower : first.height ≤ (rest.map height).foldr max 0 := by omega
        rcases ih with empty | ⟨item, isItem, highest⟩
        · omega
        · exact ⟨item, List.mem_cons_of_mem _ isItem, by rw [highest, Nat.max_eq_right lower]⟩

end Shape

namespace RuleStore

/-- A reference stands for a component of some shape. -/
inductive Shows (store : RuleStore F) : Shape F → ComponentRef → Prop where
  | single {id : Nat} {found : Component F} (present : store.component? id = some found)
      (isSingle : found.IsSingle) : Shows store (.single found.bare) (some id)
  | gathered {id : Nat} {gathering : Gathering} {items : List (Shape F)}
      {refs : List ComponentRef}
      (present : store.component? id = some (gathering.component refs))
      (each : List.Forall₂ (Shows store) items refs) :
      Shows store (.gathered gathering items) (some id)
  | inverted {id : Nat} {base : Shape F} {inner : ComponentRef}
      (present : store.component? id = some (.inverted inner))
      (shown : Shows store base inner) : Shows store (.inverted base) (some id)

namespace Shows

variable {store before after : RuleStore F} {shape other : Shape F} {reference : ComponentRef}

theorem exists_id (shown : store.Shows shape reference) :
    ∃ id, reference = some id ∧ id < store.components.length := by
  cases shown with
  | single present | gathered present | inverted present =>
      exact ⟨_, rfl, (List.getElem?_eq_some_iff.1 present).1⟩

theorem exists_single {component : Component F}
    (shown : store.Shows (.single component) reference) :
    ∃ id found, reference = some id ∧ store.component? id = some found ∧
      found.bare = component ∧ found.IsSingle := by
  cases shown with
  | single present isSingle =>
      exact ⟨_, _, rfl, present, rfl, isSingle⟩

/-- A component has one shape. -/
theorem unique (shown : store.Shows shape reference) (alsoShown : store.Shows other reference) :
    shape = other := by
  induction shape using Shape.induction generalizing other reference with
  | single component =>
      cases shown with
      | single present isSingle =>
          cases alsoShown with
          | single presentToo =>
              cases present.symm.trans presentToo
              rfl
          | gathered presentToo =>
              cases present.symm.trans presentToo
              exact (Component.not_isSingle_component _ _ isSingle).elim
          | inverted presentToo =>
              cases present.symm.trans presentToo
              exact isSingle.elim
  | gathered gathering items ih =>
      cases shown with
      | gathered present each =>
          cases alsoShown with
          | single presentToo isSingle =>
              cases present.symm.trans presentToo
              exact (Component.not_isSingle_component _ _ isSingle).elim
          | @gathered _ _ others _ presentToo eachToo =>
              rcases
                Gathering.component_injective (Option.some.inj (present.symm.trans presentToo)) with
                ⟨rfl, rfl⟩
              congr 1
              clear present presentToo
              induction each generalizing others with
              | nil =>
                  cases eachToo
                  rfl
              | cons first _ rest =>
                  cases eachToo with
                  | cons firstToo eachToo =>
                      rw [ih _ List.mem_cons_self first firstToo,
                        rest (fun item isItem => ih item (List.mem_cons_of_mem _ isItem)) eachToo]
          | inverted presentToo =>
              cases gathering <;> cases present.symm.trans presentToo
  | inverted base ih =>
      cases shown with
      | inverted present shown =>
          cases alsoShown with
          | single presentToo isSingle =>
              cases present.symm.trans presentToo
              exact isSingle.elim
          | @gathered _ gathering _ _ presentToo =>
              cases gathering <;> cases present.symm.trans presentToo
          | inverted presentToo alsoShown =>
              cases present.symm.trans presentToo
              rw [ih shown alsoShown]

/-- A component keeps its shape where all components are kept, up to the rules
attached to them. -/
theorem mono (kept : ∀ {id found}, before.component? id = some found →
      ∃ grown, after.component? id = some grown ∧ grown.bare = found.bare)
    (shown : before.Shows shape reference) : after.Shows shape reference := by
  induction shape using Shape.induction generalizing reference with
  | single component =>
      cases shown with
      | single present isSingle =>
          rcases kept present with ⟨grown, stands, same⟩
          rw [← same]
          refine .single stands ?_
          rw [← Component.isSingle_bare, same, Component.isSingle_bare]
          exact isSingle
  | gathered gathering items ih =>
      cases shown with
      | @gathered _ _ _ refs present each =>
          rcases kept present with ⟨grown, stands, same⟩
          have unchanged : grown = gathering.component refs := by
            rw [Gathering.bare_component] at same
            cases gathering <;> cases grown <;> cases same <;> rfl
          refine .gathered (unchanged ▸ stands) ?_
          exact each.imp_of_mem fun item isItem _ shown => ih item isItem shown
  | inverted base ih =>
      cases shown with
      | @inverted _ _ inner present shown =>
          rcases kept present with ⟨grown, stands, same⟩
          have unchanged : grown = .inverted inner := by
            cases grown <;> cases same
            rfl
          exact .inverted (unchanged ▸ stands) (ih shown)

theorem updateRule (shown : store.Shows shape reference) (rule : Nat) (change : Rule → Rule) :
    (store.updateRule rule change).Shows shape reference := by
  apply shown.mono
  intro id found present
  exact ⟨found, present, rfl⟩

theorem grows (grows : before.Grows after) (shown : before.Shows shape reference) :
    after.Shows shape reference := by
  exact shown.mono grows.component?

theorem grows_each {items : List (Shape F)} {refs : List ComponentRef}
    (each : List.Forall₂ before.Shows items refs) (grows : before.Grows after) :
    List.Forall₂ after.Shows items refs := by
  exact each.imp fun _ _ shown => shown.grows grows

end Shows

/-! ## Heights -/

/-- There are as many components as a height says, none of them higher than that. -/
def HasChain (store : RuleStore F) (height : Nat) : Prop :=
  ∃ chain : List Nat, chain.length = height ∧ chain.Nodup ∧
    ∀ id ∈ chain, ∃ part, store.Shows part (some id) ∧ part.height ≤ height

variable {store before after : RuleStore F} {shape : Shape F} {reference : ComponentRef}

theorem HasChain.zero (store : RuleStore F) : store.HasChain 0 := by
  exact ⟨[], rfl, List.nodup_nil, by simp⟩

/-- A higher component is another one than those of a chain, so it makes it longer. -/
theorem HasChain.extend {height : Nat} (below : store.HasChain height)
    (shown : store.Shows shape reference) (higher : shape.height = height + 1) :
    store.HasChain (height + 1) := by
  rcases below with ⟨chain, length, distinct, parts⟩
  rcases shown.exists_id with ⟨id, rfl, -⟩
  refine ⟨id :: chain, by simp [length], List.nodup_cons.2 ⟨?_, distinct⟩, ?_⟩
  · intro again
    rcases parts id again with ⟨part, partShown, lower⟩
    rw [partShown.unique shown] at lower
    omega
  · intro other isOther
    rcases List.mem_cons.1 isOther with rfl | isOther
    · exact ⟨shape, shown, by omega⟩
    · rcases parts other isOther with ⟨part, partShown, lower⟩
      exact ⟨part, partShown, by omega⟩

theorem Shows.hasChain (shown : store.Shows shape reference) : store.HasChain shape.height := by
  induction shape using Shape.induction generalizing reference with
  | single component =>
      have height : (Shape.single component).height = 0 + 1 := by
        rw [Shape.height]
      rw [height]
      exact (HasChain.zero store).extend shown height
  | gathered gathering items ih =>
      rw [Shape.height]
      have below : store.HasChain ((items.map Shape.height).foldr max 0) := by
        rcases Shape.foldr_eq_height items with empty | ⟨item, isItem, highest⟩
        · rw [empty]
          exact HasChain.zero store
        · rw [← highest]
          cases shown with
          | gathered present each =>
              rcases each.exists_of_mem_left isItem with ⟨inner, -, itemShown⟩
              exact ih item isItem itemShown
      exact below.extend shown (Shape.height.eq_2 gathering items)
  | inverted base ih =>
      have whole := shown
      cases shown with
      | inverted present shown =>
          rw [Shape.height]
          exact (ih shown).extend whole (Shape.height.eq_3 base)

/-- A component is not higher than the table is long. -/
theorem Shows.height_le (shown : store.Shows shape reference) :
    shape.height ≤ store.components.length := by
  rcases shown.hasChain with ⟨chain, length, distinct, parts⟩
  have inside : chain ⊆ List.range store.components.length := by
    intro id isMember
    rcases parts id isMember with ⟨part, partShown, -⟩
    rcases partShown.exists_id with ⟨_, same, bound⟩
    cases same
    exact List.mem_range.2 bound
  have short := distinct.length_le_of_subset inside
  rw [length, List.length_range] at short
  exact short

end RuleStore

end Steward
