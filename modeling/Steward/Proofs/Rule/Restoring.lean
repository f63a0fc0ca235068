import Steward.Proofs.Rule.Adopting
import Steward.Rule.Firing

/-!
# Loading the entries of a document

The entries of a document are taken one by one.  What carries the induction is that
the book holds, in order, a rule for each entry without markers so far: one that
follows the entry's blueprint, is kept in documents and listens to its trigger.
-/

namespace Steward

variable {F : Type}

/-- A trigger, or a list of triggers to any depth. -/
inductive Shape.IsTrigger : Shape F → Prop where
  | single {component : Component F} (isTrigger : component.type = .trigger) :
      IsTrigger (.single component)
  | gathered {items : List (Shape F)} (each : ∀ item ∈ items, IsTrigger item) :
      IsTrigger (.gathered .triggers items)

/-- Two rules do not claim the same id or the same name. -/
def Blueprint.Differs (left right : Blueprint F) : Prop :=
  left.id ≠ right.id ∧ ∀ name, left.name = some name → right.name ≠ some name

namespace RuleStore

variable {store before after : RuleStore F} {index rule : Nat} {shape : Shape F}
  {reference : ComponentRef}

/-! ## Listening -/

theorem tellAll_ok {tellOne : ComponentRef → RuleStore F → Announced F}
    (grows : ∀ trigger (store : RuleStore F), store.Grows (tellOne trigger store).2.2)
    {items : List (Shape F)} {refs : List ComponentRef}
    (each : List.Forall₂ store.Shows items refs)
    (one : ∀ item ∈ items, ∀ (store : RuleStore F) reference, store.Shows item reference →
      (tellOne reference store).1 = .ok ()) :
    (tellAll tellOne refs store).1 = .ok () := by
  induction items generalizing store refs with
  | nil =>
      cases each
      rfl
  | cons item rest ih =>
      cases each with
      | @cons _ reference _ refs shown each =>
          have told := one item List.mem_cons_self store reference shown
          have grown := grows reference store
          rcases here : tellOne reference store with ⟨outcome, announced, after⟩
          rw [here] at told grown
          dsimp only at told
          rw [tellAll, here, told]
          exact ih (Shows.grows_each each grown) fun item isItem =>
            one item (List.mem_cons_of_mem _ isItem)

/-- A trigger can be told about a rule. -/
theorem tellWithin_ok (shown : store.Shows shape reference) (isTrigger : shape.IsTrigger)
    (begins : Bool) (rule : Nat) {depth : Nat} (deep : shape.height ≤ depth) :
    (tellWithin begins rule depth reference store).1 = .ok () := by
  induction shape using Shape.induction generalizing reference depth store with
  | single component =>
      rw [Shape.height] at deep
      rcases Nat.exists_eq_add_one.2 deep with ⟨depth, rfl⟩
      cases shown with
      | @single _ found present isSingle =>
          cases isTrigger with
          | single isTrigger =>
              rw [tellWithin, present]
              cases found with
              | triggerList =>
                  exact isSingle.elim
              | eventTrigger | customTrigger =>
                  rfl
              | anyOf | inverted | condition | paramCondition | action | paramAction =>
                  cases isTrigger
  | gathered gathering items ih =>
      rw [Shape.height] at deep
      rcases Nat.exists_eq_add_one.2 (Nat.zero_lt_of_lt deep) with ⟨depth, rfl⟩
      cases shown with
      | gathered present each =>
          cases isTrigger with
          | gathered triggers =>
              rw [tellWithin, present]
              apply tellAll_ok (Grows.tellWithin begins rule depth) each
              intro item isItem store reference shown
              have lower := Shape.height_le_foldr isItem
              exact ih item isItem shown (triggers item isItem) (by omega)
  | inverted base =>
      cases isTrigger

/-- A rule with a trigger is finished: it listens from then on. -/
theorem create_ok {found : Rule} (present : store.rule? rule = some found)
    (shown : store.Shows shape found.trigger) (isTrigger : shape.IsTrigger)
    (sleeps : found.enabled = false) (lives : found.destroyed = false) :
    ∃ announced told, store.create rule = (.ok (), announced,
        told.updateRule rule fun found => { found with enabled := true }) ∧
      store.Grows told := by
  have heard : (store.tell true rule found.trigger).1 = .ok () :=
    tellWithin_ok shown isTrigger true rule (Nat.le_succ_of_le shown.height_le)
  have grows : store.Grows (store.tell true rule found.trigger).2.2 :=
    Grows.tellWithin true rule _ _ store
  rcases shown.exists_id with ⟨id, isSome, -⟩
  rcases telling : store.tell true rule found.trigger with ⟨outcome, announced, told⟩
  rw [telling] at heard grows
  dsimp only at heard
  refine ⟨announced, told, ?_, grows⟩
  have unset : found.trigger.isNone = false := by
    rw [isSome]
    rfl
  have free : (found.enabled || found.destroyed) = false := by
    rw [sleeps, lives]
    rfl
  simp [create, enable, present, unset, free, telling, heard]

/-! ## One entry -/

/-- A rule that was rebuilt from its blueprint and finished. -/
structure Restores (store : RuleStore F) (blueprint : Blueprint F) (rule : Nat) (found : Rule) :
    Prop where
  follows : store.Follows blueprint rule found
  persistent : found.persistent = true
  lifetime : found.lifetime = some .forever
  enabled : found.enabled = true
  lives : found.destroyed = false

/-- What a book holds while the entries of a document are loaded. -/
structure Holds (store : RuleStore F) (index : Nat)
    (templates : String → Option (Component F)) (loaded : List (Blueprint F)) : Prop where
  registry : store.IsRegistry index
  provides : store.Provides index templates
  ids : (store.book index).rules.keys = loaded.map Blueprint.id
  rules : List.Forall₂ (fun blueprint rule => ∃ found, store.Restores blueprint rule found)
    loaded (store.book index).rules.values

variable {templates : String → Option (Component F)} {loaded : List (Blueprint F)}
  {blueprint : Blueprint F}

theorem Follows.keep {found : Rule} (keeps : before.Keeps index after)
    (follows : before.Follows blueprint rule found) : after.Follows blueprint rule found where
  present := keeps.rules follows.present
  id := follows.id
  name := follows.name
  trigger := keeps.shows follows.trigger
  conditions := follows.conditions.imp fun _ _ shown => keeps.shows shown
  actions := follows.actions.imp fun _ _ shown => keeps.shows shown

theorem Restores.keep {found : Rule} (keeps : before.Keeps index after)
    (restores : before.Restores blueprint rule found) :
    after.Restores blueprint rule found where
  follows := restores.follows.keep keeps
  persistent := restores.persistent
  lifetime := restores.lifetime
  enabled := restores.enabled
  lives := restores.lives

theorem Provides.keep (keeps : before.Keeps index after)
    (provides : before.Provides index templates) : after.Provides index templates := by
  intro key template known
  exact keeps.templates (provides key template known)

theorem Holds.grows (holds : before.Holds index templates loaded) (grows : before.Grows after) :
    after.Holds index templates loaded where
  registry := holds.registry.grows grows
  provides := holds.provides.grows grows
  ids := by
    rw [book, grows.books]
    exact holds.ids
  rules := by
    rw [book, grows.books]
    exact holds.rules.imp fun _ _ restored =>
      restored.imp fun _ restores => restores.keep (.of_grows grows index)

theorem Holds.newId (holds : store.Holds index templates loaded)
    (differs : ∀ earlier ∈ loaded, earlier.Differs blueprint) :
    blueprint.id ∉ (store.book index).rules.keys := by
  rw [holds.ids]
  intro taken
  rcases List.mem_map.1 taken with ⟨earlier, isEarlier, same⟩
  exact (differs earlier isEarlier).1 same

theorem Holds.newName (holds : store.Holds index templates loaded)
    (differs : ∀ earlier ∈ loaded, earlier.Differs blueprint) (name : String)
    (named : blueprint.name = some name) :
    (store.book index).rulesByName.get? name = none := by
  cases taken : (store.book index).rulesByName.get? name with
  | none =>
      rfl
  | some rule =>
      rcases (holds.registry.names name rule).1 taken with ⟨registered, hasName⟩
      have isRule : rule ∈ (store.book index).rules.values :=
        List.mem_map_of_mem (OrderedMap.mem_of_get? registered)
      rcases holds.rules.exists_of_mem_right isRule with ⟨earlier, isEarlier, found, restores⟩
      rw [nameOf_eq restores.follows.present, restores.follows.name] at hasName
      exact absurd named ((differs earlier isEarlier).2 name hasName)

/-- An entry without markers adds its rule to the book. -/
theorem Holds.restore [Validator] [Validator.IsFaithful] {saver : RuleStore F}
    (holds : store.Holds index templates loaded)
    (shown : saver.IsShown blueprint) (built : blueprint.IsBuiltFrom templates)
    (isTrigger : blueprint.trigger.IsTrigger) (whole : blueprint.isWhole = true)
    (differs : ∀ earlier ∈ loaded, earlier.Differs blueprint) :
    ∃ rule adopted announced after, store.adopt index blueprint.entry = (.ok rule, adopted) ∧
      adopted.create rule = (.ok (), announced, after) ∧
      after.Holds index templates (loaded ++ [blueprint]) := by
  rcases
      adopt_entry_of_whole shown built whole holds.provides holds.registry
        (holds.newId differs) (holds.newName differs) with
    ⟨rule, trigger, conditions, actions, adopted, adopts, keeps, isNew, follows, entries⟩
  rcases create_ok follows.present follows.trigger isTrigger rfl rfl with
    ⟨announced, told, creates, grows⟩
  refine ⟨rule, adopted, announced, _, adopts, creates, ?_⟩
  have registry : adopted.IsRegistry index := by
    have adopting := holds.registry.adopt blueprint.entry
    rw [adopts] at adopting
    exact adopting
  have restores : (told.updateRule rule fun found => { found with enabled := true }).Restores
      blueprint rule { blueprint.rule index trigger conditions actions with enabled := true } := by
    have heard := follows.keep (.of_grows grows index)
    refine ⟨⟨?_, rfl, rfl, heard.trigger.updateRule rule _, ?_, ?_⟩, rfl, rfl, rfl, rfl⟩
    · rw [rule?_updateRule, if_pos rfl, heard.present]
      rfl
    · exact heard.conditions.imp fun _ _ shown => shown.updateRule rule _
    · exact heard.actions.imp fun _ _ shown => shown.updateRule rule _
  have kept : store.Keeps index
      (told.updateRule rule fun found => { found with enabled := true }) := by
    have before := keeps.trans (.of_grows grows index)
    refine ⟨fun shown => (before.shows shown).updateRule rule _, ?_, before.templates⟩
    intro other found present
    have another : rule ≠ other := by
      rintro rfl
      rw [isNew] at present
      cases present
    rw [rule?_updateRule, if_neg another]
    exact before.rules present
  have book : (told.updateRule rule fun found => { found with enabled := true }).book index =
      adopted.book index := by
    rw [book_updateRule, RuleStore.book, grows.books]
    rfl
  refine ⟨?_, holds.provides.keep kept, ?_, ?_⟩
  · exact (registry.grows grows).updateRule rule (fun _ => rfl) fun _ => rfl
  · rw [book, OrderedMap.keys, entries, List.map_append, List.map_append]
    exact congrArg (· ++ _) holds.ids
  · rw [book, OrderedMap.values, entries, List.map_append]
    have others := holds.rules.imp fun _ _ restored =>
      restored.imp fun _ restores => restores.keep kept
    exact List.rel_append others (.cons ⟨_, restores⟩ .nil)

/-- The components of a rule stand in a table, are built from what some templates
describe, and begin with a trigger. -/
structure IsSound (store : RuleStore F) (templates : String → Option (Component F))
    (blueprint : Blueprint F) : Prop where
  shown : store.IsShown blueprint
  built : blueprint.IsBuiltFrom templates
  isTrigger : blueprint.trigger.IsTrigger

end RuleStore

/-! ## All entries -/

namespace World

variable {H : Type} {told : Told F H} {index : Nat} {templates : String → Option (Component F)}
  {saver : RuleStore F}

/-- Those who are told about rules leave the table of rules alone. -/
def KeepsRules (told : Told F H) : Prop :=
  ∀ callback begins id world, (told callback begins id world).rules = world.rules

theorem tellTriggers_rules (keeps : KeepsRules told) (announced : List (Announcement F))
    (world : World F H) : (tellTriggers told announced world).rules = world.rules := by
  induction announced generalizing world with
  | nil =>
      rfl
  | cons first rest ih =>
      exact (ih _).trans (keeps _ _ _ world)

/-- Loading the entries of sound rules restores those without markers and skips the
others. -/
theorem loadEntries_of_sound [Validator] [Validator.IsFaithful] (keeps : KeepsRules told)
    {blueprints loaded : List (Blueprint F)}
    (sound : ∀ blueprint ∈ blueprints, saver.IsSound templates blueprint)
    (apart : ∀ earlier ∈ loaded, ∀ blueprint ∈ blueprints, earlier.Differs blueprint)
    (distinct : blueprints.Pairwise Blueprint.Differs) {world : World F H}
    (holds : world.rules.Holds index templates loaded) (count : Nat) :
    ∃ after, loadEntries told index (blueprints.map Blueprint.entry) count world =
        (.ok (count + (blueprints.filter Blueprint.isWhole).length), after) ∧
      after.rules.Holds index templates (loaded ++ blueprints.filter Blueprint.isWhole) := by
  induction blueprints generalizing loaded world count with
  | nil =>
      exact ⟨world, rfl, by simpa using holds⟩
  | cons first rest ih =>
      rcases sound first List.mem_cons_self with ⟨shown, built, isTrigger⟩
      rcases List.pairwise_cons.1 distinct with ⟨differs, distinct⟩
      have soundRest : ∀ blueprint ∈ rest, saver.IsSound templates blueprint :=
        fun blueprint isLater => sound blueprint (List.mem_cons_of_mem _ isLater)
      have apartRest : ∀ earlier ∈ loaded, ∀ blueprint ∈ rest, earlier.Differs blueprint :=
        fun earlier isEarlier blueprint isLater =>
          apart earlier isEarlier blueprint (List.mem_cons_of_mem _ isLater)
      rw [List.map_cons, loadEntries]
      cases whole : first.isWhole with
      | true =>
          rcases
              holds.restore shown built isTrigger whole
                fun earlier isEarlier => apart earlier isEarlier first List.mem_cons_self with
            ⟨rule, adopted, announced, after, adopts, creates, holdsAfter⟩
          have quiet : (tellTriggers told announced
              { world with rules := after }).rules = after := tellTriggers_rules keeps _ _
          have apartNow : ∀ earlier ∈ loaded ++ [first], ∀ blueprint ∈ rest,
              earlier.Differs blueprint := by
            intro earlier isEarlier blueprint isLater
            rcases List.mem_append.1 isEarlier with isEarlier | isFirst
            · exact apartRest earlier isEarlier blueprint isLater
            · rw [List.mem_singleton.1 isFirst]
              exact differs blueprint isLater
          rcases ih soundRest apartNow distinct (quiet.symm ▸ holdsAfter) (count + 1) with
            ⟨final, loads, holdsFinal⟩
          refine ⟨final, ?_, ?_⟩
          · simp only [onRules, adopts, change, creates]
            rw [loads, List.filter_cons_of_pos whole, List.length_cons]
            congr 2
            omega
          · rw [List.filter_cons_of_pos whole, List.append_cons]
            exact holdsFinal
      | false =>
          rcases RuleStore.adopt_entry_of_part shown built whole holds.provides holds.registry with
            ⟨failure, after, fails, grows⟩
          simp only [onRules, fails]
          rw [List.filter_cons_of_neg (by simp [whole])]
          refine ih soundRest apartRest distinct ?_ count
          exact holds.grows grows

end World

end Steward
