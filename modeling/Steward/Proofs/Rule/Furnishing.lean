import Steward.Proofs.Rule.Ledger
import Steward.Proofs.Rule.Standing

/-!
# Furnished tables

A table is furnished if all its components stand, its rules refer to components that are
there, and those who listen to triggers are rules that are there.  Rebuilding components
only adds to the table, and what is rebuilt is made of what is there
(`loadWithin_builds`); telling triggers of a rule changes nothing but whether that rule
listens (`tellWithin_retunes`).  So a table stays furnished whatever a book is asked for.

Rebuilding goes from step to step, up to the first that fails.  `andThen` is such a
sequence, and what holds of a sequence is put together from its steps (`Built.andThen`).
-/

namespace Steward

/-- The rules that are attached to a component. -/
def Component.listeners {F : Type} : Component F → List Nat
  | .eventTrigger _ _ _ rules => rules
  | _ => []

namespace RuleStore

variable {F : Type} {store before middle after : RuleStore F} {index rule : Nat}

/-! ## Steps that can fail -/

section Steps

variable {α β : Type}

/-- Go on with what came of a step, unless it failed. -/
def andThen (first : Except Failure α × RuleStore F)
    (next : α → RuleStore F → Except Failure β × RuleStore F) : Except Failure β × RuleStore F :=
  match first with
  | (.error failure, store) => (.error failure, store)
  | (.ok value, store) => next value store

@[simp]
theorem andThen_error (failure : Failure) (store : RuleStore F)
    (next : α → RuleStore F → Except Failure β × RuleStore F) :
    andThen (.error failure, store) next = (.error failure, store) := by
  rfl

@[simp]
theorem andThen_ok (value : α) (store : RuleStore F)
    (next : α → RuleStore F → Except Failure β × RuleStore F) :
    andThen (.ok value, store) next = next value store := by
  rfl

theorem andThen_snd {first : Except Failure α × RuleStore F}
    {next : α → RuleStore F → Except Failure β × RuleStore F}
    (same : ∀ value store, (next value store).2 = store) : (andThen first next).2 = first.2 := by
  rcases first with ⟨_ | value, store⟩
  · rfl
  · exact same value store

theorem loadEach_cons (loadOne : Value → RuleStore F → Except Failure Nat × RuleStore F)
    (data : Value) (rest : List Value) (store : RuleStore F) :
    loadEach loadOne (data :: rest) store =
      andThen (loadOne data store) fun id store =>
        andThen (loadEach loadOne rest store) fun refs store => (.ok (some id :: refs), store) := by
  rw [loadEach]
  rcases loadOne data store with ⟨_ | id, store⟩
  · rfl
  · dsimp only [andThen]
    rcases loadEach loadOne rest store with ⟨_ | refs, store⟩ <;> rfl

section Making

variable (loadOne : Value → RuleStore F → Except Failure Nat × RuleStore F) (data : Value)
  (store : RuleStore F)

theorem createWith_component (gathering : Gathering) (refs : List ComponentRef) :
    createWith loadOne (gathering.component refs) data store =
      andThen (loadList loadOne data store) fun items store =>
        (.ok (store.addComponent (gathering.component items)).1,
          (store.addComponent (gathering.component items)).2) := by
  cases gathering <;>
  · rw [Gathering.component, createWith]
    rcases loadList loadOne data store with ⟨_ | items, store⟩ <;> rfl

theorem createWith_inverted_of_base (part : ComponentRef) {inner : Value}
    (base : data.get? "base" = some inner) : createWith loadOne (.inverted part) data store =
      andThen (loadOne inner store) fun id store =>
        (.ok (store.addComponent (.inverted (some id))).1,
          (store.addComponent (.inverted (some id))).2) := by
  unfold createWith
  dsimp only
  rw [base]
  dsimp only
  rcases loadOne inner store with ⟨_ | id, store⟩ <;> rfl

theorem createWith_inverted_of_none (part : ComponentRef) (base : data.get? "base" = none) :
    createWith loadOne (.inverted part) data store =
      (.error (.fault .missingKey "base"), store) := by
  unfold createWith
  dsimp only
  rw [base]

end Making

/-- The rule that is rebuilt from a saved one. -/
def SavedRule.restored (saved : SavedRule) (index trigger : Nat)
    (conditions actions : List ComponentRef) : Rule :=
  { Rule.new index saved.id with
    name := saved.name
    persistent := true
    lifetime := some .forever
    trigger := some trigger
    conditions := conditions
    actions := actions }

/-- Rebuild the components of a saved rule: its trigger, its conditions and its actions. -/
def loadParts (index : Nat) (saved : SavedRule) (store : RuleStore F) :
    Except Failure (Nat × List ComponentRef × List ComponentRef) × RuleStore F :=
  let load := loadEach fun data store => RuleStore.loadComponent store index data
  andThen (store.loadComponent index saved.trigger) fun trigger store =>
    andThen (load saved.conditions store) fun conditions store =>
      andThen (load saved.actions store) fun actions store =>
        (.ok (trigger, conditions, actions), store)

theorem loadRule_eq [Validator] (index : Nat) {data : Value} {saved : SavedRule}
    (checked : SavedRule.ofValue data = .ok saved) (store : RuleStore F) :
    store.loadRule index data = andThen (loadParts index saved store) fun parts store =>
      let added := store.addRule (saved.restored index parts.1 parts.2.1 parts.2.2)
      (.ok added.1, added.2) := by
  rw [loadRule, checked, loadParts]
  dsimp only
  rcases store.loadComponent index saved.trigger with ⟨_ | trigger, withTrigger⟩
  · rfl
  dsimp only [andThen]
  rcases loadEach _ saved.conditions withTrigger with ⟨_ | conditions, withConditions⟩
  · rfl
  dsimp only
  rcases loadEach _ saved.actions withConditions with ⟨_ | actions, withActions⟩
  · rfl
  · rfl

theorem adopt_eq [Validator] (store : RuleStore F) (index : Nat) (data : Value) :
    store.adopt index data = andThen (store.loadRule index data) fun rule store =>
      if (store.book index).rules.contains (store.idOf rule) then
        (.error (.interaction s!"Interaction id {store.idOf rule} is already registered"), store)
      else andThen (store.register index rule) fun _ store => (.ok rule, store) := by
  rw [adopt]
  rcases store.loadRule index data with ⟨_ | rule, loaded⟩
  · rfl
  dsimp only [andThen]
  rcases loaded.register index rule with ⟨_ | _, registered⟩ <;> rfl

end Steps

/-! ## Adding to a table -/

/-- A table goes on with more components than another one, none of which has rules attached,
and is the same else. -/
structure Extends (before after : RuleStore F) : Prop where
  components : ∃ added, after.components = before.components ++ added ∧
    ∀ component ∈ added, component.listeners = []
  rules : after.rules = before.rules
  books : after.books = before.books

namespace Extends

theorem refl (store : RuleStore F) : store.Extends store := by
  exact ⟨⟨[], (List.append_nil _).symm, nofun⟩, rfl, rfl⟩

theorem trans (first : before.Extends middle) (second : middle.Extends after) :
    before.Extends after where
  components := by
    rcases first.components with ⟨early, earlyAdded, earlySilent⟩
    rcases second.components with ⟨late, lateAdded, lateSilent⟩
    exact ⟨early ++ late, by rw [lateAdded, earlyAdded, List.append_assoc],
      List.forall_mem_append.2 ⟨earlySilent, lateSilent⟩⟩
  rules := second.rules.trans first.rules
  books := second.books.trans first.books

theorem addComponent (store : RuleStore F) {component : Component F}
    (silent : component.listeners = []) : store.Extends (store.addComponent component).2 := by
  exact ⟨⟨[component], rfl, List.forall_mem_singleton.2 silent⟩, rfl, rfl⟩

theorem component? (extension : before.Extends after) {id : Nat} {found : Component F}
    (present : before.component? id = some found) : after.component? id = some found := by
  rcases extension.components with ⟨added, same, -⟩
  have old : id < before.components.length := (List.getElem?_eq_some_iff.1 present).1
  rw [RuleStore.component?, same, List.getElem?_append_left old]
  exact present

theorem length_le (extension : before.Extends after) :
    before.components.length ≤ after.components.length := by
  rcases extension.components with ⟨added, same, -⟩
  rw [same, List.length_append]
  exact Nat.le_add_right _ _

/-- A component that has rules attached was there before. -/
theorem exists_of_listeners (extension : before.Extends after) {id rule : Nat}
    {found : Component F} (present : after.component? id = some found)
    (listens : rule ∈ found.listeners) : before.component? id = some found := by
  rcases extension.components with ⟨added, same, silent⟩
  rw [RuleStore.component?, same, List.getElem?_append] at present
  split at present
  · exact present
  · rw [silent found (List.mem_of_getElem? present)] at listens
    cases listens

theorem book (extension : before.Extends after) (index : Nat) :
    after.book index = before.book index := by
  rw [RuleStore.book, RuleStore.book, extension.books]

theorem rule? (extension : before.Extends after) (rule : Nat) :
    after.rule? rule = before.rule? rule := by
  rw [RuleStore.rule?, RuleStore.rule?, extension.rules]

end Extends

/-! ## Rebuilding components -/

/-- Components can be rebuilt in a book: those of the table stand, and the base refers to
some of them. -/
structure IsReady (store : RuleStore F) (index : Nat) : Prop where
  proper : store.IsProper
  base : ∀ {key id}, (store.book index).base.get? key = some id → store.Has (some id)

theorem IsReady.of_extends (ready : before.IsReady index) (extension : before.Extends after)
    (proper : after.IsProper) : after.IsReady index where
  proper := proper
  base := by
    intro key id known
    rw [extension.book] at known
    exact (ready.base known).mono extension.length_le

/-- Rebuilding has added to a table, and what it yields is of the table that came of it. -/
structure Built {α : Type} (index : Nat) (yields : RuleStore F → α → Prop)
    (before : RuleStore F) (result : Except Failure α × RuleStore F) : Prop where
  extension : before.Extends result.2
  ready : result.2.IsReady index
  yields : ∀ value, result.1 = .ok value → yields result.2 value

/-- Rebuilding adds to every table that is ready for it. -/
def Builds {α : Type} (index : Nat) (yields : RuleStore F → α → Prop)
    (load : RuleStore F → Except Failure α × RuleStore F) : Prop :=
  ∀ store, store.IsReady index → Built index yields store (load store)

/-- A component of the table is yielded. -/
abbrev YieldsOne (after : RuleStore F) (id : Nat) : Prop := after.Has (some id)

/-- Components of the table are yielded. -/
abbrev YieldsEach (after : RuleStore F) (refs : List ComponentRef) : Prop :=
  ∀ part ∈ refs, after.Has part

namespace Built

variable {α : Type} {yields : RuleStore F → α → Prop}

theorem failed (ready : after.IsReady index) (extension : before.Extends after)
    (failure : Failure) : Built index yields before (.error failure, after) := by
  exact ⟨extension, ready, nofun⟩

theorem of_value {value : α} (ready : after.IsReady index) (extension : before.Extends after)
    (isYield : yields after value) : Built index yields before (.ok value, after) := by
  refine ⟨extension, ready, ?_⟩
  rintro _ ⟨⟩
  exact isYield

theorem behind {result : Except Failure α × RuleStore F} (first : before.Extends middle)
    (built : Built index yields middle result) : Built index yields before result where
  extension := first.trans built.extension
  ready := built.ready
  yields := built.yields

/-- What goes on with what was built builds as well. -/
theorem andThen {β : Type} {yieldsToo : RuleStore F → β → Prop}
    {result : Except Failure α × RuleStore F} (built : Built index yields before result)
    {next : α → RuleStore F → Except Failure β × RuleStore F}
    (goesOn : ∀ value middle, before.Extends middle → middle.IsReady index →
      yields middle value → Built index yieldsToo middle (next value middle)) :
    Built index yieldsToo before (RuleStore.andThen result next) := by
  rcases result with ⟨failure | value, middle⟩
  · exact .failed built.ready built.extension failure
  · exact .behind built.extension
      (goesOn value middle built.extension built.ready (built.yields value rfl))

/-- A component whose parts are there is added to a table. -/
theorem addComponent (ready : store.IsReady index) {component : Component F}
    (silent : component.listeners = []) (parts : ∀ part ∈ component.parts, store.Has part) :
    Built index YieldsOne store
      (.ok (store.addComponent component).1, (store.addComponent component).2) := by
  have extension := Extends.addComponent store silent
  refine of_value (ready.of_extends extension (ready.proper.addComponent parts)) extension ?_
  refine ⟨store.components.length, ?_, rfl⟩
  rw [length_addComponent]
  exact Nat.lt_succ_self _

end Built

variable {loadOne : Value → RuleStore F → Except Failure Nat × RuleStore F}

theorem loadEach_builds (one : ∀ data, Builds index YieldsOne (loadOne data))
    (items : List Value) : Builds index YieldsEach (loadEach loadOne items) := by
  induction items with
  | nil =>
      intro store ready
      exact .of_value ready (.refl store) nofun
  | cons data rest ih =>
      intro store ready
      rw [loadEach_cons]
      refine (one data store ready).andThen fun id middle _ ready has => ?_
      refine (ih middle ready).andThen fun refs after extension ready each => ?_
      refine .of_value ready (.refl after) ?_
      intro part isPart
      rcases List.mem_cons.1 isPart with rfl | later
      · exact has.mono extension.length_le
      · exact each part later

theorem loadList_builds (one : ∀ data, Builds index YieldsOne (loadOne data)) (data : Value) :
    Builds index YieldsEach (loadList loadOne data) := by
  intro store ready
  unfold loadList
  split
  · exact .failed ready (.refl store) _
  · exact loadEach_builds one _ store ready

theorem createWith_builds (one : ∀ data, Builds index YieldsOne (loadOne data))
    (base : Component F) (data : Value) :
    Builds index YieldsOne (createWith loadOne base data) := by
  intro store ready
  have gathered : ∀ (gathering : Gathering) refs, Built index YieldsOne store
      (createWith loadOne (gathering.component refs) data store) := by
    intro gathering refs
    rw [createWith_component]
    refine (loadList_builds one data store ready).andThen fun _ _ _ ready each => ?_
    cases gathering <;> exact .addComponent ready rfl each
  cases base with
  | triggerList refs =>
      exact gathered .triggers refs
  | anyOf refs =>
      exact gathered .alternatives refs
  | inverted part =>
      cases base : data.get? "base" with
      | none =>
          rw [createWith_inverted_of_none _ _ _ part base]
          exact .failed ready (.refl store) _
      | some inner =>
          rw [createWith_inverted_of_base _ _ _ part base]
          refine (one inner store ready).andThen fun id _ _ ready has => ?_
          exact .addComponent ready rfl (List.forall_mem_singleton.2 has)
  | paramCondition | paramAction =>
      exact .addComponent ready rfl nofun
  | eventTrigger | customTrigger | condition | action =>
      exact .failed ready (.refl store) _

/-- What a saved form names is a component of the base. -/
theorem IsReady.baseOf (ready : store.IsReady index) {data : Value} {id : Nat}
    (named : store.baseOf index data = .ok id) : store.Has (some id) := by
  have known : ∀ {key}, store.baseComponent index key = .ok id → store.Has (some id) := by
    intro key found
    unfold baseComponent at found
    cases stands : (store.book index).base.get? key with
    | none =>
        rw [stands] at found
        cases found
    | some other =>
        rw [stands] at found
        cases found
        exact ready.base stands
  unfold RuleStore.baseOf at named
  split at named
  · exact known named
  · split at named
    · cases named
    · cases named
    · exact known named
  · cases named

/-- What is rebuilt of a component is made of components of the table. -/
theorem loadWithin_builds (index depth : Nat) (data : Value) :
    Builds (F := F) index YieldsOne (loadWithin index depth data) := by
  induction depth generalizing data with
  | zero =>
      intro store ready
      exact .failed ready (.refl store) _
  | succ depth ih =>
      intro store ready
      rw [loadWithin]
      cases named : store.baseOf index data with
      | error failure =>
          exact .failed ready (.refl store) failure
      | ok id =>
          have shared : Built index YieldsOne store (.ok id, store) :=
            .of_value ready (.refl store) (ready.baseOf named)
          dsimp only
          split
          · split
            · exact createWith_builds ih _ _ store ready
            · exact shared
          · exact shared

theorem loadComponent_builds (index : Nat) (data : Value) :
    Builds (F := F) index YieldsOne (fun store => store.loadComponent index data) := by
  exact loadWithin_builds index _ data

/-! ## Telling triggers -/

/-- Telling triggers comes to setting the listeners of some of them, one after the other. -/
theorem tellWithin_induction (relation : RuleStore F → RuleStore F → Prop) {begins : Bool}
    {rule : Nat} (refl : ∀ store, relation store store)
    (trans : ∀ {before middle after}, relation before middle → relation middle after →
      relation before after)
    (set : ∀ {store : RuleStore F} {id name event mapper rules},
      store.component? id = some (.eventTrigger name event mapper rules) →
      relation store
        (store.setComponent id (.eventTrigger name event mapper (adjust begins rule rules))))
    (depth : Nat) (trigger : ComponentRef) (store : RuleStore F) :
    relation store (tellWithin begins rule depth trigger store).2.2 := by
  induction depth generalizing trigger store with
  | zero =>
      exact refl store
  | succ depth ih =>
      cases trigger with
      | none =>
          exact refl store
      | some id =>
          rw [tellWithin]
          split
          · rename_i present
            exact set present
          · exact refl store
          · rename_i triggers _
            -- A list is told member by member, so the induction is on what is left of it.
            clear * - ih refl trans
            induction triggers generalizing store with
            | nil =>
                exact refl store
            | cons first rest ihRest =>
                have told := ih first store
                rw [tellAll]
                split
                · rename_i failed
                  rw [failed] at told
                  exact told
                · rename_i heard
                  rw [heard] at told
                  exact trans told (ihRest _)
          · exact refl store

theorem length_tellWithin (begins : Bool) (rule depth : Nat) (trigger : ComponentRef)
    (store : RuleStore F) :
    (tellWithin begins rule depth trigger store).2.2.components.length =
      store.components.length := by
  exact tellWithin_induction
    (fun before after => after.components.length = before.components.length) (fun _ => rfl)
    (fun first second => second.trans first) (fun _ => List.length_set) depth trigger store

/-- Who listens to what besides those who did: the rule that triggers were told of. -/
def Retunes (rule : Nat) (before after : RuleStore F) : Prop :=
  ∀ id found, after.component? id = some found → ∀ other ∈ found.listeners,
    other = rule ∨ ∃ old, before.component? id = some old ∧ other ∈ old.listeners

theorem Retunes.refl (rule : Nat) (store : RuleStore F) : store.Retunes rule store := by
  intro id found present other listens
  exact .inr ⟨found, present, listens⟩

theorem Retunes.trans (first : before.Retunes rule middle) (second : middle.Retunes rule after) :
    before.Retunes rule after := by
  intro id found present other listens
  rcases second id found present other listens with same | ⟨old, presentBefore, listened⟩
  · exact .inl same
  · exact first id old presentBefore other listened

theorem mem_adjust {begins : Bool} {other : Nat} {rules : List Nat}
    (listens : other ∈ adjust begins rule rules) : other = rule ∨ other ∈ rules := by
  cases begins with
  | true =>
      rw [adjust, if_pos rfl] at listens
      split at listens
      · exact .inr listens
      · exact (List.mem_append.1 listens).symm.imp_left List.mem_singleton.1
  | false =>
      exact .inr (List.mem_of_mem_erase listens)

theorem Retunes.setListeners {begins : Bool} {id : Nat} {name event : String}
    {mapper : Option (Mapper F)} {rules : List Nat}
    (present : store.component? id = some (.eventTrigger name event mapper rules)) :
    store.Retunes rule
      (store.setComponent id (.eventTrigger name event mapper (adjust begins rule rules))) := by
  intro other found presentAfter listener listens
  simp only [component?, setComponent, List.getElem?_set] at presentAfter
  split at presentAfter
  · rename_i here
    subst here
    split at presentAfter
    · cases presentAfter
      exact (mem_adjust listens).imp_right fun listened => ⟨_, present, listened⟩
    · cases presentAfter
  · exact .inr ⟨found, presentAfter, listens⟩

theorem tellWithin_retunes (begins : Bool) (rule depth : Nat) (trigger : ComponentRef)
    (store : RuleStore F) :
    store.Retunes rule (tellWithin begins rule depth trigger store).2.2 := by
  exact tellWithin_induction (Retunes rule) (.refl rule) .trans .setListeners depth trigger store

/-- Components go on to stand where nothing but the rules attached to them changes. -/
theorem IsProper.grows (proper : before.IsProper) (grows : before.Grows after)
    (same : after.components.length = before.components.length) : after.IsProper := by
  intro id inside
  exact (proper id (same ▸ inside)).mono grows.component?

theorem IsProper.of_components (proper : before.IsProper)
    (same : after.components = before.components) : after.IsProper := by
  intro id inside
  rw [same] at inside
  apply (proper id inside).mono
  intro id found present
  rw [component?, ← same] at present
  exact ⟨found, present, rfl⟩

/-! ## Rules -/

/-- The components that a rule refers to are in a table. -/
structure Furnishes (store : RuleStore F) (rule : Rule) : Prop where
  trigger : rule.trigger = none ∨ store.Has rule.trigger
  conditions : ∀ condition ∈ rule.conditions, store.Has condition
  actions : ∀ action ∈ rule.actions, store.Has action

theorem Furnishes.mono {rule : Rule} (furnishes : before.Furnishes rule)
    (longer : before.components.length ≤ after.components.length) : after.Furnishes rule where
  trigger := furnishes.trigger.imp_right fun has => has.mono longer
  conditions condition isCondition := (furnishes.conditions condition isCondition).mono longer
  actions action isAction := (furnishes.actions action isAction).mono longer

theorem furnishes_new (store : RuleStore F) (index : Nat) (id : Int) :
    store.Furnishes (.new index id) := by
  exact ⟨.inl rfl, nofun, nofun⟩

/-- The components of a table stand, its rules refer to some of them, and the rules attached
to components are rules of the table. -/
structure IsFurnished (store : RuleStore F) : Prop where
  proper : store.IsProper
  rules : ∀ {rule found}, store.rule? rule = some found → store.Furnishes found
  listeners : ∀ {id found}, store.component? id = some found →
    ∀ rule ∈ found.listeners, rule < store.rules.length

namespace IsFurnished

/-- Where the rules are the same, a table is furnished if its components stand and no other
rules are attached to them. -/
theorem of_rules (furnished : before.IsFurnished) (proper : after.IsProper)
    (longer : before.components.length ≤ after.components.length)
    (same : after.rules = before.rules)
    (listeners : ∀ {id found}, after.component? id = some found →
      ∀ rule ∈ found.listeners, rule < before.rules.length) : after.IsFurnished where
  proper := proper
  rules := by
    intro rule found present
    rw [rule?, same] at present
    exact (furnished.rules present).mono longer
  listeners := by
    rw [same]
    exact listeners

theorem told (furnished : store.IsFurnished) (begins : Bool) {found : Rule}
    (present : store.rule? rule = some found) (trigger : ComponentRef) :
    (store.tell begins rule trigger).2.2.IsFurnished := by
  have grows : store.Grows (store.tell begins rule trigger).2.2 :=
    Grows.tellWithin begins rule _ trigger store
  have same : (store.tell begins rule trigger).2.2.components.length = store.components.length :=
    length_tellWithin begins rule _ trigger store
  refine furnished.of_rules (furnished.proper.grows grows same) (Nat.le_of_eq same.symm)
    grows.rules ?_
  intro id component presentAfter other listens
  rcases tellWithin_retunes begins rule _ trigger store id component presentAfter other listens with
    rfl | ⟨old, presentBefore, listened⟩
  · exact (List.getElem?_eq_some_iff.1 present).1
  · exact furnished.listeners presentBefore other listened

/-- Where the components are the same, a table is furnished if its rules refer to some of
them. -/
theorem of_components (furnished : before.IsFurnished)
    (same : after.components = before.components)
    (longer : before.rules.length ≤ after.rules.length)
    (rules : ∀ {rule found}, after.rule? rule = some found → before.Furnishes found) :
    after.IsFurnished where
  proper := furnished.proper.of_components same
  listeners := by
    intro id found present other listens
    rw [component?, same] at present
    exact Nat.lt_of_lt_of_le (furnished.listeners present other listens) longer
  rules present := (rules present).mono (Nat.le_of_eq (congrArg List.length same.symm))

theorem addRule (furnished : store.IsFurnished) {added : Rule} (fits : store.Furnishes added) :
    (store.addRule added).2.IsFurnished := by
  refine furnished.of_components rfl (by simp [RuleStore.addRule]) ?_
  intro rule found present
  rw [rule?_addRule] at present
  split at present
  · cases present
    exact fits
  · exact furnished.rules present

theorem updateRule (furnished : store.IsFurnished) (rule : Nat) {change : Rule → Rule}
    (fits : ∀ found, store.Furnishes found → store.Furnishes (change found)) :
    (store.updateRule rule change).IsFurnished := by
  refine furnished.of_components rfl (by simp [RuleStore.updateRule]) ?_
  intro other found present
  rw [rule?_updateRule] at present
  split at present
  · rcases Option.map_eq_some_iff.1 present with ⟨old, presentBefore, rfl⟩
    exact fits old (furnished.rules presentBefore)
  · exact furnished.rules present

/-- A change of a rule that leaves its components is of no concern. -/
theorem retouch (furnished : store.IsFurnished) (rule : Nat) {change : Rule → Rule}
    (trigger : ∀ found, (change found).trigger = found.trigger)
    (conditions : ∀ found, (change found).conditions = found.conditions)
    (actions : ∀ found, (change found).actions = found.actions) :
    (store.updateRule rule change).IsFurnished := by
  apply furnished.updateRule
  intro found fits
  refine ⟨?_, ?_, ?_⟩
  · rw [trigger]
    exact fits.trigger
  · rw [conditions]
    exact fits.conditions
  · rw [actions]
    exact fits.actions

theorem updateBook (furnished : store.IsFurnished) (index : Nat)
    (change : RuleBook → RuleBook) : (store.updateBook index change).IsFurnished := by
  exact furnished.of_components rfl (Nat.le_refl _) furnished.rules

theorem register (furnished : store.IsFurnished) (index rule : Nat) :
    (store.register index rule).2.IsFurnished := by
  rw [register_eq]
  split
  · exact furnished
  · exact (furnished.updateBook index _).retouch rule (fun _ => rfl) (fun _ => rfl) fun _ => rfl

theorem unregister (furnished : store.IsFurnished) (index rule : Nat) :
    (store.unregister index rule).IsFurnished := by
  rw [unregister_eq]
  exact furnished.updateBook index _

theorem build (furnished : store.IsFurnished) (index : Nat) :
    (store.build index).2.IsFurnished := by
  have numbered := furnished.updateBook index fun book => { book with nextId := book.nextId + 1 }
  exact (numbered.addRule (furnishes_new _ index (store.newId index).1)).register index _

theorem rename (furnished : store.IsFurnished) (index rule : Nat) (name : String) :
    (store.rename index rule name).2.IsFurnished := by
  have nameless : (store.nameless index rule name).IsFurnished :=
    (furnished.updateBook index _).retouch rule (fun _ => rfl) (fun _ => rfl) fun _ => rfl
  rw [rename_eq]
  split
  · exact furnished
  · dsimp only
    split
    · exact nameless.updateBook index _
    · exact nameless

theorem persist (furnished : store.IsFurnished) (rule : Nat) (name : Option String) :
    (store.persist rule name).2.IsFurnished := by
  unfold RuleStore.persist
  cases name with
  | none =>
      exact furnished.retouch rule (fun _ => rfl) (fun _ => rfl) fun _ => rfl
  | some name =>
      have renamed := furnished.rename (((store.rule? rule).map (·.book)).getD 0) rule name
      dsimp only [Option.elim_some]
      split
      · rename_i failed
        rw [failed] at renamed
        exact renamed
      · rename_i done
        rw [done] at renamed
        exact renamed.retouch rule (fun _ => rfl) (fun _ => rfl) fun _ => rfl

theorem switch (furnished : store.IsFurnished) (begins : Bool) {found : Rule}
    (present : store.rule? rule = some found) {change : Rule → Rule} (trigger : ComponentRef)
    (triggers : ∀ found, (change found).trigger = found.trigger)
    (conditions : ∀ found, (change found).conditions = found.conditions)
    (actions : ∀ found, (change found).actions = found.actions) :
    (store.switch begins rule change trigger).2.2.IsFurnished := by
  have told := furnished.told begins present trigger
  unfold RuleStore.switch
  split
  · rename_i failed
    rw [failed] at told
    exact told
  · rename_i heard
    rw [heard] at told
    exact told.retouch rule triggers conditions actions

theorem enable (furnished : store.IsFurnished) (rule : Nat) :
    (store.enable rule).2.2.IsFurnished := by
  rw [enable_eq]
  split
  · exact furnished
  · rename_i present
    split
    · exact furnished
    · exact furnished.switch true present _ (fun _ => rfl) (fun _ => rfl) fun _ => rfl

theorem disable (furnished : store.IsFurnished) (rule : Nat) :
    (store.disable rule).2.2.IsFurnished := by
  rw [disable_eq]
  split
  · exact furnished
  · rename_i present
    split
    · exact furnished
    · exact furnished.switch false present _ (fun _ => rfl) (fun _ => rfl) fun _ => rfl

theorem create (furnished : store.IsFurnished) (rule : Nat) :
    (store.create rule).2.2.IsFurnished := by
  unfold RuleStore.create
  split
  · exact furnished
  · split
    · exact furnished
    · exact furnished.enable rule

theorem destroy (furnished : store.IsFurnished) (rule : Nat) :
    (store.destroy rule).2.2.IsFurnished := by
  unfold RuleStore.destroy
  split
  · exact furnished
  · split
    · exact furnished
    · have stopped := furnished.disable rule
      split
      · rename_i failed
        rw [failed] at stopped
        exact stopped
      · rename_i done
        rw [done] at stopped
        have gone : IsFurnished (RuleStore.updateRule _ rule fun rule =>
            { rule with destroyed := true }) :=
          stopped.retouch rule (fun _ => rfl) (fun _ => rfl) fun _ => rfl
        exact gone.unregister _ rule

end IsFurnished

/-! ## Saved rules -/

/-- The components of a saved rule are rebuilt from those of the table. -/
theorem loadParts_builds (index : Nat) (saved : SavedRule) : Builds (F := F) index
    (fun after parts => after.Furnishes (saved.restored index parts.1 parts.2.1 parts.2.2))
    (loadParts index saved) := by
  intro store ready
  have each : ∀ items, Builds (F := F) index YieldsEach
      (loadEach (fun data store => store.loadComponent index data) items) :=
    loadEach_builds (loadComponent_builds index)
  refine (loadComponent_builds index saved.trigger store ready).andThen ?_
  intro trigger withTrigger _ ready has
  refine (each saved.conditions withTrigger ready).andThen ?_
  intro conditions withConditions second ready hasConditions
  refine (each saved.actions withConditions ready).andThen ?_
  intro actions withActions third ready hasActions
  refine .of_value ready (.refl withActions) ⟨?_, ?_, hasActions⟩
  · exact .inr (has.mono (Nat.le_trans second.length_le third.length_le))
  · exact fun condition isCondition => (hasConditions condition isCondition).mono third.length_le

/-- A saved rule is rebuilt from components that are added to the table, or nothing more than
components is. -/
theorem loadRule_built [Validator] (ready : store.IsReady index) (data : Value) :
    (∃ failure after, store.loadRule index data = (.error failure, after) ∧
      store.Extends after ∧ after.IsReady index) ∨
    ∃ saved trigger conditions actions middle, SavedRule.ofValue data = .ok saved ∧
      store.loadRule index data = (.ok middle.rules.length,
        (middle.addRule (saved.restored index trigger conditions actions)).2) ∧
      store.Extends middle ∧ middle.IsReady index ∧
      middle.Furnishes (saved.restored index trigger conditions actions) := by
  cases checked : SavedRule.ofValue data with
  | error failure =>
      refine .inl ⟨failure, store, ?_, .refl store, ready⟩
      rw [loadRule, checked]
  | ok saved =>
      have built := loadParts_builds index saved store ready
      rw [loadRule_eq index checked]
      rcases loaded : loadParts index saved store with ⟨failure | parts, middle⟩
      · rw [loaded] at built
        exact .inl ⟨failure, middle, rfl, built.extension, built.ready⟩
      · rw [loaded] at built
        exact .inr ⟨saved, parts.1, parts.2.1, parts.2.2, middle, rfl, rfl, built.extension,
          built.ready, built.yields parts rfl⟩

/-- A table in which rules were registered before rebuilding is furnished after it. -/
theorem IsFurnished.extends (furnished : before.IsFurnished) (extension : before.Extends after)
    (ready : after.IsReady index) : after.IsFurnished := by
  refine furnished.of_rules ready.proper extension.length_le extension.rules ?_
  intro id found present rule listens
  exact furnished.listeners (extension.exists_of_listeners present listens) rule listens

theorem IsFurnished.adopt [Validator] (furnished : store.IsFurnished) (ready : store.IsReady index)
    (data : Value) : (store.adopt index data).2.IsFurnished := by
  rw [adopt_eq]
  rcases loadRule_built ready data with ⟨failure, after, failed, extension, readyAfter⟩ |
    ⟨saved, trigger, conditions, actions, middle, -, loaded, extension, readyAfter, fits⟩
  · rw [failed, andThen_error]
    exact furnished.extends extension readyAfter
  · have added := (furnished.extends extension readyAfter).addRule fits
    rw [loaded, andThen_ok]
    split
    · exact added
    · rw [andThen_snd fun _ _ => rfl]
      exact added.register index middle.rules.length

/-- The base of a registry refers to components of the table. -/
theorem IsRegistry.ready (registry : store.IsRegistry index) (proper : store.IsProper) :
    store.IsReady index where
  proper := proper
  base := by
    intro key id known
    rcases registry.base known with ⟨found, present, -⟩
    exact ⟨id, (List.getElem?_eq_some_iff.1 present).1, rfl⟩

end RuleStore

end Steward
