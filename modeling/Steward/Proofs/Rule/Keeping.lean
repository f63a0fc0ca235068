import Steward.Proofs.Rule.Hollow

/-!
# Saving a book that is in use

Rules are registered before they are complete, and what a document describes is taken as
it is.  So a book that is in use can hold rules without a trigger, and rules with a hollow
component.  Whatever is asked of a book, its table stays furnished and the book a registry
(`Managed.inUse`); from this follows what saving the book comes to (`Managed.saves_all_iff`).
-/

namespace Steward

namespace RuleStore

variable {F : Type} {store before after : RuleStore F} {index rule : Nat}

namespace IsFurnished

theorem addComponent (furnished : store.IsFurnished) (component : Component F)
    (silent : component.listeners = []) (parts : ∀ part ∈ component.parts, store.Has part) :
    (store.addComponent component).2.IsFurnished := by
  have extension := Extends.addComponent store silent
  refine furnished.of_rules (furnished.proper.addComponent parts) extension.length_le rfl ?_
  intro id found present rule listens
  exact furnished.listeners (extension.exists_of_listeners present listens) rule listens

theorem setComponent (furnished : store.IsFurnished) {id : Nat} {found changed : Component F}
    (present : store.component? id = some found) (same : changed.listeners = found.listeners)
    (proper : (store.setComponent id changed).IsProper) :
    (store.setComponent id changed).IsFurnished := by
  refine furnished.of_rules proper (Nat.le_of_eq List.length_set.symm) rfl ?_
  intro other another presentAfter rule listens
  simp only [component?, RuleStore.setComponent, List.getElem?_set] at presentAfter
  split at presentAfter
  · split at presentAfter
    · cases presentAfter
      exact furnished.listeners present rule (same ▸ listens)
    · cases presentAfter
  · exact furnished.listeners presentAfter rule listens

/-- A table in which a book was just opened has three components more, and no more rules. -/
theorem openBook (furnished : store.IsFurnished) (place : Option DataPlace) :
    (store.openBook place).2.IsFurnished := by
  have list := furnished.addComponent (.triggerList []) rfl nofun
  have either := list.addComponent (.anyOf []) rfl nofun
  have inverted := either.addComponent (.inverted none) rfl nofun
  refine inverted.of_components ?_ (Nat.le_refl _) fun present => inverted.rules present
  simp [RuleStore.addComponent, RuleStore.openBook]

end IsFurnished

/-- Each rule of a registry is held once. -/
theorem IsRegistry.nodup_values (registry : store.IsRegistry index) :
    (store.book index).rules.values.Nodup := by
  exact registry.pairwise.imp fun apart same => apart.1 (congrArg store.idOf same)

/-- What is done to the components of a table beside its rules: a component is made of
components of the table, and no rules are attached to it yet; a list is extended with another
of them, but none comes to lie in itself; and a component is registered for rebuilding. -/
inductive Equips (index : Nat) : RuleStore F → RuleStore F → Prop where
  | made {store : RuleStore F} {component : Component F} (silent : component.listeners = [])
      (parts : ∀ part ∈ component.parts, store.Has part) :
      Equips index store (store.addComponent component).2
  | extended {store : RuleStore F} {id : Nat} {found changed : Component F}
      (present : store.component? id = some found) (sameKey : changed.key = found.key)
      (sameRules : changed.listeners = found.listeners)
      (proper : (store.setComponent id changed).IsProper) :
      Equips index store (store.setComponent id changed)
  | registered {store : RuleStore F} {id : Nat} {found : Component F}
      (present : store.component? id = some found) :
      Equips index store (store.updateBook index fun book =>
        { book with base := book.base.insert found.key id })
  | attached {store : RuleStore F} (connected : Bool)
      (attached : OrderedMap String (List Nat)) :
      Equips index store (store.updateBook index fun book =>
        { book with connected := connected, attached := attached })

/-- A book is in use: its table is furnished, and it is a registry. -/
structure InUse (store : RuleStore F) (index : Nat) : Prop where
  furnished : store.IsFurnished
  registry : store.IsRegistry index

namespace InUse

theorem adopt [Validator] (inUse : store.InUse index) (data : Value) :
    (store.adopt index data).2.InUse index where
  furnished := inUse.furnished.adopt (inUse.registry.ready inUse.furnished.proper) data
  registry := inUse.registry.adopt data

theorem create (inUse : store.InUse index) (rule : Nat) : (store.create rule).2.2.InUse index where
  furnished := inUse.furnished.create rule
  registry := inUse.registry.create rule

/-- A rule is given a component of the table, or refuses that there is none. -/
theorem given (inUse : store.InUse index) (rule : Nat) {component : ComponentRef}
    (has : component = none ∨ store.Has component) (refusal : Failure) {change : Rule → Rule}
    (sameId : ∀ found, (change found).id = found.id)
    (sameName : ∀ found, (change found).name = found.name)
    (fits : store.Has component → ∀ found, store.Furnishes found →
      store.Furnishes (change found)) :
    (if component.isNone then (.error refusal, store)
      else (.ok (), store.updateRule rule change) :
        Except Failure Unit × RuleStore F).2.InUse index := by
  split
  · exact inUse
  · rename_i isSome
    have here := has.resolve_left fun isNone => isSome (by rw [isNone]; rfl)
    exact ⟨inUse.furnished.updateRule rule (fits here),
      inUse.registry.updateRule rule sameId sameName⟩

theorem equips (inUse : before.InUse index) (equips : before.Equips index after) :
    after.InUse index := by
  cases equips with
  | made silent parts =>
      exact ⟨inUse.furnished.addComponent _ silent parts, inUse.registry.addComponent _⟩
  | extended present sameKey sameRules proper =>
      exact ⟨inUse.furnished.setComponent present sameRules proper,
        inUse.registry.setComponent present sameKey⟩
  | registered present =>
      exact ⟨inUse.furnished.updateBook index _, inUse.registry.addBase present⟩
  | attached connected attached =>
      refine ⟨inUse.furnished.updateBook index _, ?_⟩
      exact inUse.registry.updateBook (fun _ => rfl) (fun _ => rfl) (fun _ => rfl) fun _ =>
        Int.le_refl _

end InUse

/-- A component more is one of the table. -/
theorem forall_has_append {refs : List ComponentRef} {component : ComponentRef}
    (each : ∀ part ∈ refs, store.Has part) (has : store.Has component) :
    ∀ part ∈ refs ++ [component], store.Has part := by
  intro part isPart
  rcases List.mem_append.1 isPart with isOld | isNew
  · exact each part isOld
  · exact List.mem_singleton.1 isNew ▸ has

end RuleStore

/-! ## Calls -/

/-- What may be asked of a rule that is being built, besides what may be asked of its book. -/
inductive RuleCall where
  | onBook (call : BookCall)
  | setLifetime (rule : Nat) (lifetime : Lifetime)
  | setTrigger (rule : Nat) (trigger : ComponentRef)
  | addCondition (rule : Nat) (condition : ComponentRef)
  | addAction (rule : Nat) (action : ComponentRef)
  | enable (rule : Nat)
  | disable (rule : Nat)

namespace RuleCall

variable {F H : Type} {told : Told F H} {index : Nat} {world : World F H}

/-- A call on a rule or its book, with the failure that it may end with. -/
def run [Validator] (told : Told F H) (index : Nat) :
    RuleCall → World F H → Except Failure Unit × World F H
  | .onBook call, world => call.run told index world
  | .setLifetime rule lifetime, world =>
    (.ok (), { world with
      rules := world.rules.updateRule rule fun found => { found with lifetime := some lifetime } })
  | .setTrigger rule trigger, world => world.onRules (·.setTrigger rule trigger)
  | .addCondition rule condition, world => world.onRules (·.addCondition rule condition)
  | .addAction rule action, world => world.onRules (·.addAction rule action)
  | .enable rule, world => world.change told (·.enable rule)
  | .disable rule, world => world.change told (·.disable rule)

/-- A call is about a rule that there is, and gives it a component of the table, or none. -/
def IsOn (index : Nat) (store : RuleStore F) : RuleCall → Prop
  | .onBook call => call.IsOn index store
  | .setTrigger _ component | .addCondition _ component | .addAction _ component =>
    component = none ∨ store.Has component
  | _ => True

theorem onBook_isFurnished [Validator] (keeps : World.KeepsRules told) (call : BookCall)
    (inUse : world.rules.InUse index) :
    (call.run told index world).2.rules.IsFurnished := by
  have furnished := inUse.furnished
  cases call with
  | newId =>
      exact furnished.updateBook index _
  | build =>
      exact furnished.build index
  | register rule =>
      exact furnished.register index rule
  | rename rule name =>
      exact furnished.rename index rule name
  | persist rule name =>
      exact furnished.persist rule name
  | create rule =>
      rw [BookCall.run, BookCall.run_rules_change keeps]
      exact furnished.create rule
  | destroy rule =>
      rw [BookCall.run, BookCall.run_rules_change keeps]
      exact furnished.destroy rule
  | remove key =>
      rw [BookCall.run, BookCall.run_rules_change keeps]
      rcases RuleStore.remove_cases world.rules index key with same | ⟨rule, removed⟩
      · exact same.symm ▸ furnished
      · exact removed.symm ▸ furnished.destroy rule
  | unregister rule =>
      exact furnished.unregister index rule
  | load =>
      have adopt : ∀ (store : RuleStore F) data, store.InUse index →
          (store.adopt index data).2.InUse index := fun _ data inUse => inUse.adopt data
      have create : ∀ (store : RuleStore F) rule, store.InUse index →
          (store.create rule).2.2.InUse index := fun _ rule inUse => inUse.create rule
      exact (World.loadRules_preserves keeps adopt create inUse).furnished

/-- A book remains in use through every call. -/
theorem run_inUse [Validator] (keeps : World.KeepsRules told) {call : RuleCall}
    (isOn : call.IsOn index world.rules) (inUse : world.rules.InUse index) :
    (call.run told index world).2.rules.InUse index := by
  cases call with
  | onBook call =>
      exact ⟨onBook_isFurnished keeps call inUse, BookCall.run_isRegistry keeps isOn inUse.registry⟩
  | setLifetime rule lifetime =>
      exact ⟨inUse.furnished.retouch rule (fun _ => rfl) (fun _ => rfl) fun _ => rfl,
        inUse.registry.updateRule rule (fun _ => rfl) fun _ => rfl⟩
  | setTrigger rule trigger =>
      exact inUse.given rule isOn _ (fun _ => rfl) (fun _ => rfl) fun has _ fits =>
        { fits with trigger := .inr has }
  | addCondition rule condition =>
      exact inUse.given rule isOn _ (fun _ => rfl) (fun _ => rfl) fun has _ fits =>
        { fits with conditions := RuleStore.forall_has_append fits.conditions has }
  | addAction rule action =>
      exact inUse.given rule isOn _ (fun _ => rfl) (fun _ => rfl) fun has _ fits =>
        { fits with actions := RuleStore.forall_has_append fits.actions has }
  | enable rule =>
      rw [run, BookCall.run_rules_change keeps]
      exact ⟨inUse.furnished.enable rule, inUse.registry.enable rule⟩
  | disable rule =>
      rw [run, BookCall.run_rules_change keeps]
      exact ⟨inUse.furnished.disable rule, inUse.registry.disable rule⟩

end RuleCall

/-! ## Runs -/

/-- The worlds that are reached from the opening of a book by calls on it and its rules.
Between two calls components are made and registered, and anything may happen that leaves
the rules alone: what is stored may change. -/
inductive Managed [Validator] {F H : Type} (told : Told F H) (index : Nat) :
    World F H → Prop where
  | opened {world : World F H} {store : RuleStore F} (furnished : store.IsFurnished)
      (place : Option DataPlace) (next : store.books.length = index)
      (opens : world.rules = (store.openBook place).2) : Managed told index world
  | called {world : World F H} (run : Managed told index world) (call : RuleCall)
      (isOn : call.IsOn index world.rules) : Managed told index (call.run told index world).2
  | equipped {before after : World F H} (run : Managed told index before)
      (equips : before.rules.Equips index after.rules) : Managed told index after
  | meanwhile {before after : World F H} (run : Managed told index before)
      (same : after.rules = before.rules) : Managed told index after

theorem Managed.inUse [Validator] {told : Told F H} {index : Nat} {world : World F H}
    (keeps : World.KeepsRules told) (run : Managed told index world) :
    world.rules.InUse index := by
  induction run with
  | opened furnished place next opens =>
      subst next
      rw [opens]
      exact ⟨furnished.openBook place, RuleStore.isRegistry_openBook _ place⟩
  | called _ call isOn ih =>
      exact RuleCall.run_inUse keeps isOn ih
  | equipped _ equips ih =>
      exact ih.equips equips
  | meanwhile _ same ih =>
      exact same ▸ ih

/-! ## Saving -/

namespace World

variable {index : Nat} {world : World F H}

/-- A book has a place that takes every document. -/
def IsKept (index : Nat) (world : World F H) : Prop :=
  ∃ place, (world.rules.book index).place = some place ∧
    ∀ document, (world.storage.save document place).1 = .ok ()

/-- The persistent rules of a book that have a trigger, in its order. -/
def rulesToSave (index : Nat) (world : World F H) : List Nat :=
  (world.rules.persistentRules index).filter fun rule =>
    (world.rules.rule? rule).any (·.trigger.isSome)

/-- A book is saved: nothing is raised, and its place is handed a document with exactly one
entry for each of its persistent rules that has a trigger, in its order. -/
structure SavesAll (index : Nat) (world : World F H) : Prop where
  works : (saveRules index world).1 = .ok ()
  hands : ∃ place, (world.rules.book index).place = some place ∧
    (saveRules index world).2.storage =
      (world.storage.save (world.rules.documentOf (world.rulesToSave index)) place).2
  once : (world.rulesToSave index).Nodup

/-- A book is not saved: the saving fails for want of a component, and nothing is written. -/
structure SavesNothing (index : Nat) (world : World F H) : Prop where
  fails : (saveRules index world).1 = .error RuleStore.noComponent
  keeps : (saveRules index world).2.storage = world.storage

theorem enterAll_rules (entries : List Entry) (world : World F H) :
    (world.enterAll entries).rules = world.rules := by
  induction entries generalizing world with
  | nil =>
      rfl
  | cons entry _ ih =>
      exact ih (enter entry world)

theorem enterAll_storage (entries : List Entry) (world : World F H) :
    (world.enterAll entries).storage = world.storage := by
  induction entries generalizing world with
  | nil =>
      rfl
  | cons entry _ ih =>
      exact ih (enter entry world)

/-- Rules that can be saved have triggers. -/
theorem rulesToSave_of_savable
    (all : ∀ rule ∈ world.rules.persistentRules index, world.rules.CanSave rule) :
    world.rulesToSave index = world.rules.persistentRules index := by
  refine List.filter_eq_self.2 fun rule isRule => ?_
  have persistent := (List.mem_filter.1 isRule).2
  rw [RuleStore.isPersistent] at persistent
  cases present : world.rules.rule? rule with
  | none =>
      rw [present] at persistent
      cases persistent
  | some found =>
      exact Option.isSome_iff_ne_none.2 (all rule isRule found present).trigger

/-- A book in use is saved if all its persistent rules can be, and otherwise not at all. -/
theorem saves_cases (inUse : world.rules.InUse index) (kept : world.IsKept index) :
    (∀ rule ∈ world.rules.persistentRules index, world.rules.CanSave rule) ∧
        world.SavesAll index ∨
      (∃ rule ∈ world.rules.persistentRules index, ¬ world.rules.CanSave rule) ∧
        world.SavesNothing index := by
  have cases := RuleStore.saveRules_cases inUse.furnished (world.rules.book index).rules.values
  rcases saving : world.rules.saveRules (world.rules.book index).rules.values with
    ⟨outcome, omitted⟩
  rw [saving] at cases
  rcases cases with ⟨all, rfl⟩ | ⟨one, rfl⟩
  · left
    rcases kept with ⟨place, isPlace, takes⟩
    have saved : saveRules index world =
        store (some place) (world.rules.documentOf (world.rules.persistentRules index))
          (world.enterAll (omitted.map omission)) := by
      simp only [saveRules, World.saving, RuleStore.saveBook, saving, Except.map]
      rw [enterAll_rules, isPlace]
      rfl
    refine ⟨all, ?_, ⟨place, isPlace, ?_⟩, ?_⟩
    · rw [saved, store, enterAll_storage]
      exact takes _
    · rw [saved, store, enterAll_storage, rulesToSave_of_savable all]
    · rw [rulesToSave_of_savable all]
      exact inUse.registry.nodup_values.filter _
  · right
    have failed : saveRules index world =
        (.error RuleStore.noComponent, world.enterAll (omitted.map omission)) := by
      simp only [saveRules, World.saving, RuleStore.saveBook, saving, Except.map]
    refine ⟨one, ?_, ?_⟩
    · rw [failed]
    · rw [failed, enterAll_storage]

end World

/-- A managed book is saved just if each of its persistent rules has a trigger and none has a
hollow component that passes for one that can be saved.  One other rule is enough for nothing
to be saved at all. -/
theorem Managed.saves_all_iff [Validator] {told : Told F H} {index : Nat} {world : World F H}
    (keeps : World.KeepsRules told) (run : Managed told index world) (kept : world.IsKept index) :
    (world.SavesAll index ↔
      ∀ rule ∈ world.rules.persistentRules index, world.rules.CanSave rule) ∧
    ((∃ rule ∈ world.rules.persistentRules index, ¬ world.rules.CanSave rule) →
      world.SavesNothing index) := by
  rcases World.saves_cases (run.inUse keeps) kept with
    ⟨all, saves⟩ | ⟨⟨rule, isKept, cannot⟩, fails⟩
  · refine ⟨⟨fun _ => all, fun _ => saves⟩, ?_⟩
    rintro ⟨rule, isKept, cannot⟩
    exact (cannot (all rule isKept)).elim
  · refine ⟨⟨fun saves => ?_, fun all => (cannot (all rule isKept)).elim⟩, fun _ => fails⟩
    cases saves.works.symm.trans fails.fails

/-! ## A draft

A rule that is kept for good before it has a trigger lets nothing be saved; once it has one,
the book is saved.
-/

namespace Draft

def told : Told String Unit := fun _ _ _ world => world

def opened : World String Unit :=
  { World.new () .standard [] with
    rules := (RuleStore.standard.openBook (some (.memory 0))).2
    storage := ⟨.empty, [⟨none, 0⟩]⟩ }

/-- The world after some calls. -/
def after (calls : List RuleCall) : World String Unit :=
  calls.foldl (fun world call => (call.run told 0 world).2) opened

def begun : List RuleCall := [.onBook .build, .onBook (.persist 0 none)]

def finished : List RuleCall := begun ++ [.setTrigger 0 (some 0)]

theorem standard_plain {component : Component String}
    (isStandard : component ∈ (RuleStore.standard : RuleStore String).components) :
    component.parts = [] ∧ component.listeners = [] := by
  simp only [RuleStore.standard, Standard.components, Standard.platformTrigger, List.mem_cons,
    List.not_mem_nil, or_false] at isStandard
  rcases isStandard with rfl | rfl | rfl | rfl | rfl | rfl | rfl | rfl | rfl | rfl <;>
    exact ⟨rfl, rfl⟩

theorem standard_isFurnished : (RuleStore.standard : RuleStore String).IsFurnished where
  proper := .of_plain fun _ isStandard => (standard_plain isStandard).1
  rules := by
    intro rule found present
    cases present
  listeners := by
    intro id found present rule listens
    rw [(standard_plain (List.mem_of_getElem? present)).2] at listens
    cases listens

theorem after_begun_managed : Managed told 0 (after begun) := by
  have start : Managed told 0 opened := .opened standard_isFurnished _ rfl rfl
  have built := start.called (.onBook .build) trivial
  exact built.called (.onBook (.persist 0 none)) ⟨_, rfl, rfl⟩

theorem after_finished_managed : Managed told 0 (after finished) := by
  have begun := after_begun_managed
  exact begun.called (.setTrigger 0 (some 0)) (.inr ⟨0, by decide, rfl⟩)

theorem not_hasHollow_trigger : ¬ (after finished).rules.HasHollow (some 0) := by
  intro hollow
  cases hollow with
  | here present =>
      cases present
  | inside present isPart _ =>
      cases present
      cases isPart

theorem begun_saves_nothing :
    (after begun).SavesNothing 0 ∧ ¬ (after begun).SavesAll 0 ∧ (after finished).SavesAll 0 := by
  have keeps : World.KeepsRules told := fun _ _ _ _ => rfl
  have unset : ¬ (after begun).rules.CanSave 0 := fun can => (can _ rfl).trigger rfl
  have set : (after finished).rules.CanSave 0 := by
    rintro _ ⟨⟩
    refine ⟨nofun, ?_⟩
    intro part isPart breaks
    rw [List.mem_singleton.1 isPart] at breaks
    exact not_hasHollow_trigger breaks.2
  rcases after_begun_managed.saves_all_iff keeps ⟨.memory 0, rfl, fun _ => rfl⟩ with
    ⟨savesBegun, failsBegun⟩
  rcases after_finished_managed.saves_all_iff keeps ⟨.memory 0, rfl, fun _ => rfl⟩ with
    ⟨savesFinished, -⟩
  refine ⟨failsBegun ⟨0, List.mem_singleton_self 0, unset⟩, fun saves => ?_, ?_⟩
  · exact unset (savesBegun.1 saves 0 (List.mem_singleton_self 0))
  · refine savesFinished.2 fun rule isKept => ?_
    rw [List.mem_singleton.1 isKept]
    exact set

end Draft

end Steward
