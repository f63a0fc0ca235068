import Steward.Proofs.OrderedMap
import Steward.Proofs.Rule.Shape

/-!
# The saved form of a shape

What is saved of a component only depends on its shape: its own form if everything
in it has a name, and a marker in its place otherwise.  A rule that follows a
blueprint is saved as the blueprint says, and the saving of a book never fails when
each of its persistent rules follows one.
-/

namespace Steward

open RuleStore (keyed nameValue)

variable {F : Type}

/-- The parameters that a component was made with. -/
def Component.parameters : Component F → Parameters
  | .paramCondition _ _ parameters | .paramAction _ _ parameters => parameters
  | _ => []

namespace Shape

/-- Whether everything in a component has a name. -/
def isSerializable : Shape F → Bool
  | .single component => component.name?.isSome
  | .gathered _ items => (items.map isSerializable).all id
  | .inverted base => base.isSerializable

/-- The saved form of a component that can be saved. -/
def form : Shape F → Value
  | .single component =>
      if component.isParameterized then keyed component.key component.parameters
      else .text component.key
  | .gathered gathering items => keyed gathering.key [("list", .list (items.map form))]
  | .inverted base => keyed "condition::inverted" [("base", base.form)]

/-- What is saved in the place of a component. -/
def saved (shape : Shape F) : Value :=
  if shape.isSerializable then shape.form else .text unserializableMarker

theorem isSerializable_gathered {gathering : Gathering} {items : List (Shape F)} :
    (gathered gathering items).isSerializable = true ↔
      ∀ item ∈ items, item.isSerializable = true := by
  rw [isSerializable]
  simp

theorem saved_of_isSerializable {shape : Shape F} (whole : shape.isSerializable = true) :
    shape.saved = shape.form := by
  rw [saved, if_pos whole]

theorem saved_of_not_isSerializable {shape : Shape F} (part : shape.isSerializable = false) :
    shape.saved = .text unserializableMarker := by
  rw [saved, part, if_neg Bool.false_ne_true]

end Shape

/-! ## Components -/

namespace RuleStore

variable {store : RuleStore F} {shape : Shape F} {reference : ComponentRef}

theorem allPass_eq {test : ComponentRef → Except Failure Bool} {items : List (Shape F)}
    {refs : List ComponentRef}
    (each : List.Forall₂ (fun item inner => test inner = .ok item.isSerializable) items refs) :
    allPass test refs = .ok ((items.map Shape.isSerializable).all id) := by
  induction each with
  | nil =>
      rfl
  | @cons item _ _ _ first _ ih =>
      rw [allPass, first, List.map_cons, List.all_cons]
      cases item.isSerializable
      · rfl
      · exact ih

theorem Shows.isSerializableWithin (shown : store.Shows shape reference) {depth : Nat}
    (deep : shape.height ≤ depth) :
    store.isSerializableWithin depth reference = .ok shape.isSerializable := by
  induction shape using Shape.induction generalizing reference depth with
  | single component =>
      rw [Shape.height] at deep
      rcases Nat.exists_eq_add_one.2 deep with ⟨depth, rfl⟩
      cases shown with
      | @single _ found present isSingle =>
          rw [RuleStore.isSerializableWithin, Option.bind_some, present, Shape.isSerializable]
          cases found with
          | triggerList | anyOf | inverted =>
              exact isSingle.elim
          | eventTrigger | customTrigger | condition | paramCondition | action | paramAction =>
              rfl
  | gathered gathering items ih =>
      rw [Shape.height] at deep
      rcases Nat.exists_eq_add_one.2 (Nat.zero_lt_of_lt deep) with ⟨depth, rfl⟩
      cases shown with
      | @gathered _ _ _ refs present each =>
          have tested : allPass (store.isSerializableWithin depth) refs =
              .ok ((items.map Shape.isSerializable).all id) := by
            refine allPass_eq (each.imp_of_mem fun item isItem _ shown => ih item isItem shown ?_)
            have lower := Shape.height_le_foldr isItem
            omega
          rw [RuleStore.isSerializableWithin, Option.bind_some, present, Shape.isSerializable]
          cases gathering <;> exact tested
  | inverted base ih =>
      rw [Shape.height] at deep
      rcases Nat.exists_eq_add_one.2 (Nat.zero_lt_of_lt deep) with ⟨depth, rfl⟩
      cases shown with
      | inverted present shown =>
          rcases shown.exists_id with ⟨id, rfl, -⟩
          rw [RuleStore.isSerializableWithin, Option.bind_some, present, Shape.isSerializable]
          exact ih shown (by omega)

/-- Whether a component can be saved is known from its shape. -/
theorem Shows.isSerializable (shown : store.Shows shape reference) :
    store.isSerializable reference = .ok shape.isSerializable := by
  exact shown.isSerializableWithin (Nat.le_succ_of_le shown.height_le)

theorem mapM_eq_form {save : ComponentRef → Except Failure Value} {items : List (Shape F)}
    {refs : List ComponentRef}
    (each : List.Forall₂ (fun item inner => save inner = .ok item.form) items refs) :
    refs.mapM save = .ok (items.map Shape.form) := by
  induction each with
  | nil =>
      rfl
  | cons first _ ih =>
      rw [List.mapM_cons, first, ih]
      rfl

theorem Shows.formWithin (shown : store.Shows shape reference) {depth : Nat}
    (deep : shape.height ≤ depth) : store.formWithin depth reference = .ok shape.form := by
  induction shape using Shape.induction generalizing reference depth with
  | single component =>
      rw [Shape.height] at deep
      rcases Nat.exists_eq_add_one.2 deep with ⟨depth, rfl⟩
      cases shown with
      | @single _ found present isSingle =>
          rw [RuleStore.formWithin, Option.bind_some, present, Shape.form]
          cases found with
          | triggerList | anyOf | inverted =>
              exact isSingle.elim
          | eventTrigger | customTrigger | condition | paramCondition | action | paramAction =>
              rfl
  | gathered gathering items ih =>
      rw [Shape.height] at deep
      rcases Nat.exists_eq_add_one.2 (Nat.zero_lt_of_lt deep) with ⟨depth, rfl⟩
      cases shown with
      | @gathered _ _ _ refs present each =>
          have forms : refs.mapM (store.formWithin depth) = .ok (items.map Shape.form) := by
            refine mapM_eq_form (each.imp_of_mem fun item isItem _ shown => ih item isItem shown ?_)
            have lower := Shape.height_le_foldr isItem
            omega
          rw [RuleStore.formWithin, Option.bind_some, present, Shape.form]
          cases gathering <;>
          · simp only [Gathering.component, forms]
            rfl
  | inverted base ih =>
      rw [Shape.height] at deep
      rcases Nat.exists_eq_add_one.2 (Nat.zero_lt_of_lt deep) with ⟨depth, rfl⟩
      cases shown with
      | inverted present shown =>
          rw [RuleStore.formWithin, Option.bind_some, present, Shape.form]
          simp only [ih shown (Nat.le_of_succ_le_succ deep)]
          rfl

/-- Saving a component never fails. -/
theorem Shows.saveComponent (shown : store.Shows shape reference) :
    ∃ omitted, store.saveComponent reference = .ok (shape.saved, omitted) := by
  rw [RuleStore.saveComponent, shown.isSerializable,
    shown.formWithin (Nat.le_succ_of_le shown.height_le)]
  rw [Shape.saved]
  cases shape.isSerializable with
  | true =>
      exact ⟨[], rfl⟩
  | false =>
      exact ⟨_, rfl⟩

theorem Shows.saveComponents {items : List (Shape F)} {refs : List ComponentRef}
    (each : List.Forall₂ store.Shows items refs) :
    ∃ omitted, store.saveComponents refs = (.ok (items.map Shape.saved), omitted) := by
  induction each with
  | nil =>
      exact ⟨[], rfl⟩
  | cons first _ ih =>
      rcases first.saveComponent with ⟨omitted, saved⟩
      rcases ih with ⟨further, rest⟩
      rw [RuleStore.saveComponents, saved]
      simp only [rest]
      exact ⟨omitted ++ further, rfl⟩

end RuleStore

/-! ## Rules -/

/-- What a document keeps of a rule. -/
structure Blueprint (F : Type) where
  id : Int
  name : Option String
  trigger : Shape F
  conditions : List (Shape F)
  actions : List (Shape F)

namespace Blueprint

/-- All components of a rule. -/
def components (blueprint : Blueprint F) : List (Shape F) :=
  blueprint.trigger :: (blueprint.conditions ++ blueprint.actions)

/-- Whether all components of a rule can be saved. -/
def isWhole (blueprint : Blueprint F) : Bool :=
  blueprint.components.all Shape.isSerializable

/-- The entry of a rule in a document. -/
def entry (blueprint : Blueprint F) : Value :=
  .map [("name", nameValue blueprint.name), ("id", .int blueprint.id),
    ("trigger", blueprint.trigger.saved),
    ("conditions", .list (blueprint.conditions.map Shape.saved)),
    ("actions", .list (blueprint.actions.map Shape.saved))]

end Blueprint

namespace RuleStore

variable {store : RuleStore F} {blueprint : Blueprint F} {rule : Nat}

/-- What stands under the number of a rule is built as a blueprint says. -/
structure Follows (store : RuleStore F) (blueprint : Blueprint F) (rule : Nat) (found : Rule) :
    Prop where
  present : store.rule? rule = some found
  id : found.id = blueprint.id
  name : found.name = blueprint.name
  trigger : store.Shows blueprint.trigger found.trigger
  conditions : List.Forall₂ store.Shows blueprint.conditions found.conditions
  actions : List.Forall₂ store.Shows blueprint.actions found.actions

theorem Follows.saveRule {found : Rule} (follows : store.Follows blueprint rule found) :
    (store.saveRule found).1 = .ok blueprint.entry := by
  rcases Shows.saveComponents (.cons follows.trigger .nil) with ⟨omitted, trigger⟩
  rcases Shows.saveComponents follows.conditions with ⟨further, conditions⟩
  rcases Shows.saveComponents follows.actions with ⟨last, actions⟩
  simp only [RuleStore.saveRule, trigger, conditions, actions, Except.map, follows.id,
    follows.name, List.map_cons, List.headD_cons]
  rfl

/-- Whether a rule of the table is kept in documents. -/
def isPersistent (store : RuleStore F) (rule : Nat) : Bool :=
  (store.rule? rule).any (·.persistent)

/-- The persistent rules of a book, in its order. -/
def persistentRules (store : RuleStore F) (index : Nat) : List Nat :=
  (store.book index).rules.values.filter store.isPersistent

/-- A rule of the table is there and built as a blueprint says. -/
def IsDrawn (store : RuleStore F) (blueprint : Blueprint F) (rule : Nat) : Prop :=
  ∃ found, store.Follows blueprint rule found

theorem saveRules_of_drawn {rules : List Nat} {blueprints : List (Blueprint F)}
    (drawn : List.Forall₂ store.IsDrawn blueprints (rules.filter store.isPersistent)) :
    (store.saveRules rules).1 = .ok (blueprints.map Blueprint.entry) := by
  induction rules generalizing blueprints with
  | nil =>
      cases drawn
      rfl
  | cons rule rest ih =>
      rw [saveRules]
      cases persistent : store.isPersistent rule with
      | true =>
          rw [List.filter_cons_of_pos persistent] at drawn
          cases drawn with
          | cons first others =>
              rcases first with ⟨found, follows⟩
              have isPersistent : found.persistent = true := by
                simpa [RuleStore.isPersistent, follows.present] using persistent
              have saved := follows.saveRule
              have savedRest := ih others
              rcases one : store.saveRule found with ⟨form, omitted⟩
              rcases all : store.saveRules rest with ⟨forms, further⟩
              rw [one] at saved
              rw [all] at savedRest
              dsimp only at saved savedRest
              subst saved savedRest
              simp [follows.present, isPersistent, one, Except.map]
      | false =>
          rw [List.filter_cons_of_neg (by simp [persistent])] at drawn
          cases present : store.rule? rule with
          | none =>
              exact ih drawn
          | some found =>
              have fleeting : found.persistent = false := by
                simpa [RuleStore.isPersistent, present] using persistent
              simp only [fleeting]
              exact ih drawn

end RuleStore

/-- The document of some rules. -/
def Blueprint.document (blueprints : List (Blueprint F)) : Value :=
  .map [("interactions", .list (blueprints.map Blueprint.entry))]

/-- Saving a book whose persistent rules follow blueprints succeeds, with their
entries in the order of the book. -/
theorem RuleStore.saveBook_of_drawn {store : RuleStore F} {index : Nat}
    {blueprints : List (Blueprint F)}
    (drawn : List.Forall₂ store.IsDrawn blueprints (store.persistentRules index)) :
    (store.saveBook index).1 = .ok (Blueprint.document blueprints) := by
  have saved := saveRules_of_drawn drawn
  rcases all : store.saveRules (store.book index).rules.values with ⟨forms, omitted⟩
  rw [all] at saved
  dsimp only at saved
  rw [saveBook, all, saved]
  rfl

end Steward
