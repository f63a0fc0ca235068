import Steward.Proofs.Rule.BookLife
import Steward.Proofs.Rule.Rebuilding

/-!
# Rebuilding a rule from its entry

The entry of a rule is accepted by the check of saved rules.  If all components of
the rule can be saved it is rebuilt as its blueprint says; otherwise a marker stands
in the entry, and rebuilding stops there.  A rebuilt rule is registered if its id
and its name are free.
-/

namespace Steward

variable {F : Type} {templates : String → Option (Component F)}

namespace RuleStore

/-! ## Checking an entry -/

theorem checkReference_saved [Validator] [Validator.IsFaithful] {shape : Shape F}
    (built : shape.IsBuiltFrom templates) :
    checkReference shape.saved = .ok shape.saved := by
  have keyed : ∀ (key : String) (rest : List (String × Value)),
      checkReference (.map (("key", .text key) :: rest)) =
        .ok (.map (("key", .text key) :: rest)) := by
    intro key rest
    simp [checkReference, Value.getD, Value.get?, Validator.IsFaithful.text]
  rw [Shape.saved]
  split
  · cases built with
    | @unnamed component noName =>
        rename_i whole
        rw [Shape.isSerializable, noName] at whole
        cases whole
    | named known distinct noKey =>
        rw [Shape.form]
        split
        · rw [keyed_eq distinct noKey]
          exact keyed _ _
        · rfl
    | gathered =>
        rw [Shape.form_gathered]
        exact keyed _ _
    | inverted =>
        rw [Shape.form_inverted]
        exact keyed _ _
  · rfl

theorem checkReferences_saved [Validator] [Validator.IsFaithful] {shapes : List (Shape F)}
    (built : ∀ shape ∈ shapes, shape.IsBuiltFrom templates) :
    checkReferences (.list (shapes.map Shape.saved)) = .ok (shapes.map Shape.saved) := by
  rw [checkReferences]
  induction shapes with
  | nil =>
      rfl
  | cons shape rest ih =>
      rw [List.map_cons, List.mapM_cons, checkReference_saved (built shape List.mem_cons_self),
        ih fun shape isShape => built shape (List.mem_cons_of_mem _ isShape)]
      rfl

end RuleStore

/-- All components of a rule are built from what some templates describe. -/
def Blueprint.IsBuiltFrom (templates : String → Option (Component F)) (blueprint : Blueprint F) :
    Prop :=
  ∀ shape ∈ blueprint.components, shape.IsBuiltFrom templates

namespace Blueprint

variable {blueprint : Blueprint F}

theorem forall_mem_components {motive : Shape F → Prop} :
    (∀ shape ∈ blueprint.components, motive shape) ↔
      motive blueprint.trigger ∧ (∀ shape ∈ blueprint.conditions, motive shape) ∧
        ∀ shape ∈ blueprint.actions, motive shape := by
  rw [components, List.forall_mem_cons, List.forall_mem_append]

/-- The entry of a rule passes the check, with all its fields. -/
theorem ofValue_entry [Validator] [Validator.IsFaithful] (built : blueprint.IsBuiltFrom templates) :
    RuleStore.SavedRule.ofValue blueprint.entry =
      .ok ⟨blueprint.id, blueprint.name, blueprint.trigger.saved,
        blueprint.conditions.map Shape.saved, blueprint.actions.map Shape.saved⟩ := by
  rcases forall_mem_components.1 built with ⟨builtTrigger, builtConditions, builtActions⟩
  have trigger := RuleStore.checkReference_saved builtTrigger
  have conditions := RuleStore.checkReferences_saved builtConditions
  have actions := RuleStore.checkReferences_saved builtActions
  simp only [RuleStore.SavedRule.ofValue, entry, Value.get?, Value.getD, List.find?_cons,
    String.reduceBEq, Option.map_some, Option.getD_some, Option.bind_some,
    Validator.IsFaithful.int, trigger, conditions, actions]
  cases blueprint.name with
  | none =>
      rfl
  | some name =>
      simp only [RuleStore.nameValue, Option.elim_some, Validator.IsFaithful.text]
      rfl

end Blueprint

/-! ## Rebuilding -/

/-- The rule that a blueprint makes of some components. -/
def Blueprint.rule (blueprint : Blueprint F) (index : Nat) (trigger : ComponentRef)
    (conditions actions : List ComponentRef) : Rule where
  book := index
  id := blueprint.id
  name := blueprint.name
  persistent := true
  lifetime := some .forever
  trigger := trigger
  conditions := conditions
  actions := actions
  enabled := false
  destroyed := false

namespace RuleStore

variable {saver store : RuleStore F} {index : Nat} {blueprint : Blueprint F}

/-- A component that can be saved is rebuilt from what is saved in its place. -/
theorem loadComponent_saved {shape : Shape F} {reference : ComponentRef}
    (shown : saver.Shows shape reference) (built : shape.IsBuiltFrom templates)
    (whole : shape.isSerializable = true) (provides : store.Provides index templates) :
    ∃ id after, store.loadComponent index shape.saved = (.ok id, after) ∧
      after.Shows shape (some id) := by
  rw [Shape.saved_of_isSerializable whole]
  exact loadComponent_form shown built whole provides

theorem loadEach_saved {shapes : List (Shape F)}
    (shown : ∀ shape ∈ shapes, ∃ reference, saver.Shows shape reference)
    (built : ∀ shape ∈ shapes, shape.IsBuiltFrom templates)
    (whole : ∀ shape ∈ shapes, shape.isSerializable = true)
    (provides : store.Provides index templates) :
    ∃ refs after, loadEach (fun data (store : RuleStore F) => store.loadComponent index data)
      (shapes.map Shape.saved) store = (.ok refs, after) ∧
        List.Forall₂ after.Shows shapes refs := by
  refine loadEach_forms (fun data store => Grows.loadWithin index _ data store) ?_ provides
  intro shape isShape store provides
  rcases shown shape isShape with ⟨reference, shapeShown⟩
  exact loadComponent_saved shapeShown (built shape isShape) (whole shape isShape) provides

theorem Grows.of_loadComponent {data : Value} {outcome : Except Failure Nat}
    {after : RuleStore F} (loaded : store.loadComponent index data = (outcome, after)) :
    store.Grows after := by
  have grown : store.Grows (store.loadComponent index data).2 := Grows.loadWithin index _ _ store
  rw [loaded] at grown
  exact grown

theorem Grows.of_loadEach {items : List Value} {outcome : Except Failure (List ComponentRef)}
    {after : RuleStore F}
    (loaded : RuleStore.loadEach (fun data (store : RuleStore F) => store.loadComponent index data)
      items store = (outcome, after)) : store.Grows after := by
  have grown : store.Grows (RuleStore.loadEach (fun data (store : RuleStore F) =>
      store.loadComponent index data) items store).2 :=
    Grows.loadEach (fun data store => Grows.loadWithin index _ data store) items store
  rw [loaded] at grown
  exact grown

/-- Loading some components stops at the first of them that could not be saved. -/
theorem loadEach_saved_of_part {shapes : List (Shape F)}
    (shown : ∀ shape ∈ shapes, ∃ reference, saver.Shows shape reference)
    (built : ∀ shape ∈ shapes, shape.IsBuiltFrom templates)
    (part : ∃ shape ∈ shapes, shape.isSerializable = false)
    (provides : store.Provides index templates) (registry : store.IsRegistry index) :
    ∃ failure after, loadEach (fun data (store : RuleStore F) => store.loadComponent index data)
      (shapes.map Shape.saved) store = (.error failure, after) := by
  induction shapes generalizing store with
  | nil =>
      rcases part with ⟨shape, isShape, -⟩
      cases isShape
  | cons first rest ih =>
      rw [List.map_cons, loadEach]
      cases whole : first.isSerializable with
      | false =>
          rw [Shape.saved_of_not_isSerializable whole, loadComponent_marker registry]
          exact ⟨_, _, rfl⟩
      | true =>
          rcases shown first List.mem_cons_self with ⟨reference, firstShown⟩
          rcases loadComponent_saved firstShown (built first List.mem_cons_self) whole provides with
            ⟨id, middle, loaded, -⟩
          have grows := Grows.of_loadComponent loaded
          have later : ∃ shape ∈ rest, shape.isSerializable = false := by
            rcases part with ⟨shape, isShape, unsaved⟩
            rcases List.mem_cons.1 isShape with rfl | later
            · rw [whole] at unsaved
              cases unsaved
            · exact ⟨shape, later, unsaved⟩
          rcases
              ih (fun shape isShape => shown shape (List.mem_cons_of_mem _ isShape))
                (fun shape isShape => built shape (List.mem_cons_of_mem _ isShape))
                later (provides.grows grows) (registry.grows grows) with
            ⟨failure, after, failed⟩
          rw [loaded]
          simp only [failed]
          exact ⟨failure, after, rfl⟩

/-- The components of a rule stand in a table. -/
def IsShown (store : RuleStore F) (blueprint : Blueprint F) : Prop :=
  ∀ shape ∈ blueprint.components, ∃ reference, store.Shows shape reference

theorem IsDrawn.isShown {rule : Nat} (drawn : store.IsDrawn blueprint rule) :
    store.IsShown blueprint := by
  rcases drawn with ⟨found, follows⟩
  refine Blueprint.forall_mem_components.2 ⟨⟨found.trigger, follows.trigger⟩, ?_, ?_⟩
  · intro shape isCondition
    rcases follows.conditions.exists_of_mem_left isCondition with ⟨reference, -, shown⟩
    exact ⟨reference, shown⟩
  · intro shape isAction
    rcases follows.actions.exists_of_mem_left isAction with ⟨reference, -, shown⟩
    exact ⟨reference, shown⟩

/-- The rule of an entry without markers is rebuilt as its blueprint says. -/
theorem loadRule_entry_of_whole [Validator] [Validator.IsFaithful] (shown : saver.IsShown blueprint)
    (built : blueprint.IsBuiltFrom templates) (whole : blueprint.isWhole = true)
    (provides : store.Provides index templates) :
    ∃ middle trigger conditions actions, store.loadRule index blueprint.entry =
        (.ok middle.rules.length,
          (middle.addRule (blueprint.rule index trigger conditions actions)).2) ∧
      store.Grows middle ∧ middle.Shows blueprint.trigger trigger ∧
      List.Forall₂ middle.Shows blueprint.conditions conditions ∧
      List.Forall₂ middle.Shows blueprint.actions actions := by
  rcases Blueprint.forall_mem_components.1 shown with
    ⟨⟨reference, triggerShown⟩, conditionsShown, actionsShown⟩
  rcases Blueprint.forall_mem_components.1 built with
    ⟨triggerBuilt, conditionsBuilt, actionsBuilt⟩
  rcases Blueprint.forall_mem_components.1 (List.all_eq_true.1 whole) with
    ⟨triggerWhole, conditionsWhole, actionsWhole⟩
  rcases loadComponent_saved triggerShown triggerBuilt triggerWhole provides with
    ⟨trigger, withTrigger, loadedTrigger, showsTrigger⟩
  have first := Grows.of_loadComponent loadedTrigger
  rcases loadEach_saved conditionsShown conditionsBuilt conditionsWhole (provides.grows first) with
    ⟨conditions, withConditions, loadedConditions, showsConditions⟩
  have second := Grows.of_loadEach loadedConditions
  rcases
      loadEach_saved actionsShown actionsBuilt actionsWhole
        ((provides.grows first).grows second) with
    ⟨actions, withActions, loadedActions, showsActions⟩
  have third := Grows.of_loadEach loadedActions
  refine ⟨withActions, some trigger, conditions, actions, ?_, first.trans (second.trans third),
    showsTrigger.grows (second.trans third), Shows.grows_each showsConditions third, showsActions⟩
  rw [loadRule, Blueprint.ofValue_entry built]
  simp only [loadedTrigger, loadedConditions, loadedActions]
  rfl

/-- An entry with a marker is not rebuilt. -/
theorem loadRule_entry_of_part [Validator] [Validator.IsFaithful] (shown : saver.IsShown blueprint)
    (built : blueprint.IsBuiltFrom templates) (part : blueprint.isWhole = false)
    (provides : store.Provides index templates) (registry : store.IsRegistry index) :
    ∃ failure after, store.loadRule index blueprint.entry = (.error failure, after) ∧
      store.Grows after := by
  suffices fails : ∃ failure after,
      store.loadRule index blueprint.entry = (.error failure, after) by
    rcases fails with ⟨failure, after, failed⟩
    rcases loadRule_cases store index blueprint.entry with ⟨_, _, same, grows⟩ | ⟨_, _, loaded, -⟩
    · cases failed.symm.trans same
      exact ⟨failure, after, failed, grows⟩
    · cases failed.symm.trans loaded
  have unsaved : ∃ shape ∈ blueprint.components, shape.isSerializable = false := by
    simpa [Blueprint.isWhole] using part
  rcases Blueprint.forall_mem_components.1 shown with ⟨-, conditionsShown, actionsShown⟩
  rcases Blueprint.forall_mem_components.1 built with ⟨-, conditionsBuilt, actionsBuilt⟩
  rw [loadRule, Blueprint.ofValue_entry built]
  dsimp only
  rcases loadedTrigger : store.loadComponent index blueprint.trigger.saved with
    ⟨failure | trigger, withTrigger⟩
  · exact ⟨failure, withTrigger, rfl⟩
  have first := Grows.of_loadComponent loadedTrigger
  rcases loadedConditions : loadEach (fun data store => RuleStore.loadComponent store index data)
    (blueprint.conditions.map Shape.saved) withTrigger with ⟨failure | conditions, withConditions⟩
  · exact ⟨failure, withConditions, by simp only [loadedConditions]⟩
  have second := Grows.of_loadEach loadedConditions
  simp only [loadedConditions]
  rcases unsaved with ⟨shape, isComponent, isPart⟩
  rcases List.mem_cons.1 isComponent with rfl | isComponent
  · rw [Shape.saved_of_not_isSerializable isPart, loadComponent_marker registry] at loadedTrigger
    cases loadedTrigger
  · rcases List.mem_append.1 isComponent with here | here
    · rcases
          loadEach_saved_of_part conditionsShown conditionsBuilt ⟨shape, here, isPart⟩
            (provides.grows first) (registry.grows first) with
        ⟨_, _, failed⟩
      cases failed.symm.trans loadedConditions
    · rcases
          loadEach_saved_of_part actionsShown actionsBuilt ⟨shape, here, isPart⟩
            ((provides.grows first).grows second) ((registry.grows first).grows second) with
        ⟨failure, after, failed⟩
      rw [failed]
      exact ⟨failure, after, rfl⟩

/-! ## Registering -/

/-- A table has what another one has: its components, up to attached rules, its rules
and the templates of a book. -/
structure Keeps (index : Nat) (before after : RuleStore F) : Prop where
  shows : ∀ {shape reference}, before.Shows shape reference → after.Shows shape reference
  rules : ∀ {rule found}, before.rule? rule = some found → after.rule? rule = some found
  templates : ∀ {key template}, before.template? index key = some template →
    after.template? index key = some template

namespace Keeps

variable {before middle after : RuleStore F}

theorem trans (first : before.Keeps index middle) (second : middle.Keeps index after) :
    before.Keeps index after where
  shows shown := second.shows (first.shows shown)
  rules present := second.rules (first.rules present)
  templates known := second.templates (first.templates known)

theorem of_grows (grows : before.Grows after) (index : Nat) : before.Keeps index after where
  shows shown := shown.grows grows
  rules := by
    intro rule found present
    rw [rule?, grows.rules]
    exact present
  templates known := grows.template? known

/-- The components and the base of a book are the same, and rules are only added. -/
theorem of_same (components : after.components = before.components)
    (base : (after.book index).base = (before.book index).base)
    (rules : ∀ {rule found}, before.rule? rule = some found → after.rule? rule = some found) :
    before.Keeps index after where
  shows shown := shown.mono fun present => ⟨_, by rw [component?, components]; exact present, rfl⟩
  rules := rules
  templates := by
    intro key template known
    simp only [template?, base, component?, components]
    exact known

end Keeps

/-- A rule is registered behind the others if its id and its name are free. -/
theorem register_of_new {rule : Nat} {found : Rule} (registry : store.IsRegistry index)
    (present : store.rule? rule = some found)
    (newId : found.id ∉ (store.book index).rules.keys)
    (newName : ∀ name, found.name = some name →
      (store.book index).rulesByName.get? name = none) :
    ∃ after, store.register index rule = (.ok (), after) ∧
      after.components = store.components ∧
      (after.book index).base = (store.book index).base ∧
      (after.book index).rules.entries = (store.book index).rules.entries ++ [(found.id, rule)] ∧
      ∀ other, after.rule? other =
        if rule = other then some { found with book := index } else store.rule? other := by
  have allowed : (store.nameOf rule).elim (.ok ()) (store.checkName index rule) = .ok () := by
    rw [nameOf_eq present]
    cases named : found.name with
    | none =>
        rfl
    | some name =>
        rw [Option.elim_some, checkName, newName name named]
  have book := book_updateBook registry.inside (store.enrolled index rule)
  rw [register_eq, allowed]
  refine ⟨_, rfl, rfl, ?_, ?_, ?_⟩
  · rw [book_updateRule, book]
    rfl
  · rw [book_updateRule, book]
    show ((store.book index).rules.insert (store.idOf rule) rule).entries = _
    rw [idOf_eq present]
    exact OrderedMap.entries_insert_of_new newId rule
  · intro other
    rw [rule?_updateRule, rule?_updateBook]
    split
    · rename_i same
      rw [← same, present]
      rfl
    · rfl

theorem adopt_ok [Validator] {data : Value} {rule : Nat} {added after : RuleStore F}
    (loaded : store.loadRule index data = (.ok rule, added))
    (newId : added.idOf rule ∉ (added.book index).rules.keys)
    (registered : added.register index rule = (.ok (), after)) :
    store.adopt index data = (.ok rule, after) := by
  have absent : (added.book index).rules.contains (added.idOf rule) = false := by
    rw [OrderedMap.contains, OrderedMap.get?_eq_none_iff.2 newId]
    rfl
  simp [adopt, loaded, absent, registered]

/-- The rule of an entry without markers is adopted if its id and its name are free. -/
theorem adopt_entry_of_whole [Validator] [Validator.IsFaithful] (shown : saver.IsShown blueprint)
    (built : blueprint.IsBuiltFrom templates) (whole : blueprint.isWhole = true)
    (provides : store.Provides index templates) (registry : store.IsRegistry index)
    (newId : blueprint.id ∉ (store.book index).rules.keys)
    (newName : ∀ name, blueprint.name = some name →
      (store.book index).rulesByName.get? name = none) :
    ∃ rule trigger conditions actions after,
      store.adopt index blueprint.entry = (.ok rule, after) ∧
      store.Keeps index after ∧ store.rule? rule = none ∧
      after.Follows blueprint rule (blueprint.rule index trigger conditions actions) ∧
      (after.book index).rules.entries =
        (store.book index).rules.entries ++ [(blueprint.id, rule)] := by
  obtain ⟨middle, trigger, conditions, actions, loaded, grows, shownTrigger, shownConditions,
    shownActions⟩ := loadRule_entry_of_whole shown built whole provides
  have books : ∀ rule : Rule, (middle.addRule rule).2.book index = store.book index := by
    intro rule
    show middle.books.getD _ _ = store.books.getD _ _
    rw [grows.books]
  have present : (middle.addRule (blueprint.rule index trigger conditions actions)).2.rule?
      middle.rules.length = some (blueprint.rule index trigger conditions actions) := by
    rw [rule?_addRule, if_pos rfl]
  have added := (registry.grows grows).addRule (blueprint.rule index trigger conditions actions)
  rcases
      register_of_new added present (by rw [books]; exact newId) (by rw [books]; exact newName) with
    ⟨after, registered, components, base, entries, rules⟩
  have kept : middle.Keeps index after := by
    refine .of_same components (base.trans rfl) ?_
    intro rule found stands
    have old : rule < middle.rules.length := (List.getElem?_eq_some_iff.1 stands).1
    rw [rules, if_neg (Nat.ne_of_gt old), rule?_addRule, if_neg (Nat.ne_of_lt old)]
    exact stands
  refine ⟨middle.rules.length, trigger, conditions, actions, after, ?_,
    (Keeps.of_grows grows index).trans kept, ?_,
    ⟨?_, rfl, rfl, kept.shows shownTrigger, ?_, ?_⟩, ?_⟩
  · refine adopt_ok loaded ?_ registered
    rw [idOf_eq present, books]
    exact newId
  · rw [rule?, ← grows.rules]
    exact List.getElem?_eq_none (Nat.le_refl _)
  · rw [rules, if_pos rfl]
    rfl
  · exact shownConditions.imp fun _ _ shown => kept.shows shown
  · exact shownActions.imp fun _ _ shown => kept.shows shown
  · rw [entries, books]
    rfl

/-- An entry with a marker is not adopted, and leaves no rule behind. -/
theorem adopt_entry_of_part [Validator] [Validator.IsFaithful] (shown : saver.IsShown blueprint)
    (built : blueprint.IsBuiltFrom templates) (part : blueprint.isWhole = false)
    (provides : store.Provides index templates) (registry : store.IsRegistry index) :
    ∃ failure after, store.adopt index blueprint.entry = (.error failure, after) ∧
      store.Grows after := by
  rcases loadRule_entry_of_part shown built part provides registry with
    ⟨failure, after, failed, grows⟩
  refine ⟨failure, after, ?_, grows⟩
  rw [adopt, failed]

end RuleStore

end Steward
