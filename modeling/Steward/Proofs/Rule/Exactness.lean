import Steward.Proofs.Rule.Attending

/-!
# Exact tables

What is attached to event triggers always follows from which rules are enabled: an event trigger holds
no rule twice, and those rules that listen to a trigger in which it occurs.  `IsExact` says so of a
table, and stays true of it however rules are built, begin and end listening, and are destroyed.
Most calls leave alone all that it speaks of (`Retouches`); those that enable and disable a rule keep
it by `IsExact.retune`.
-/

namespace Steward.RuleStore

variable {F : Type} {store before middle after : RuleStore F} {rule id : Nat} {begins : Bool}
  {reference : ComponentRef}

/-! ## Changes that are none of listening -/

/-- The components stay as they are; every rule remains in its book, listens as before and remains
destroyed if it is, and rules that are added do not listen yet. -/
structure Retouches (before after : RuleStore F) : Prop where
  components : after.components = before.components
  rules : ∀ rule found, before.rule? rule = some found → ∃ same, after.rule? rule = some same ∧
    same.book = found.book ∧ (found.destroyed = true → same.destroyed = true) ∧
    same.enabled = found.enabled ∧ same.trigger = found.trigger
  added : ∀ rule same, after.rule? rule = some same →
    (∃ found, before.rule? rule = some found) ∨ same.enabled = false

namespace Retouches

theorem of_rules (components : after.components = before.components)
    (rules : after.rules = before.rules) : before.Retouches after where
  components := components
  rules := by
    intro rule found present
    refine ⟨found, ?_, rfl, id, rfl, rfl⟩
    rw [rule?, rules]
    exact present
  added := by
    intro rule same present
    rw [rule?, rules] at present
    exact .inl ⟨same, present⟩

theorem refl (store : RuleStore F) : store.Retouches store := by
  exact of_rules rfl rfl

theorem trans (first : before.Retouches middle) (second : middle.Retouches after) :
    before.Retouches after where
  components := second.components.trans first.components
  rules := by
    intro rule found present
    rcases first.rules rule found present with ⟨same, presentMiddle, book, destroyed, enabled, trigger⟩
    rcases second.rules rule same presentMiddle with
      ⟨last, presentAfter, bookToo, destroyedToo, enabledToo, triggerToo⟩
    exact ⟨last, presentAfter, bookToo.trans book, destroyedToo ∘ destroyed,
      enabledToo.trans enabled, triggerToo.trans trigger⟩
  added := by
    intro rule last presentAfter
    rcases second.added rule last presentAfter with ⟨same, presentMiddle⟩ | sleeps
    · rcases first.added rule same presentMiddle with isOld | sleeps
      · exact .inl isOld
      · rcases second.rules rule same presentMiddle with ⟨again, presentToo, -, -, enabled, -⟩
        cases presentAfter.symm.trans presentToo
        exact .inr (enabled.trans sleeps)
    · exact .inr sleeps

theorem updateBook (store : RuleStore F) (index : Nat) (change : RuleBook → RuleBook) :
    store.Retouches (store.updateBook index change) := by
  exact of_rules rfl rfl

theorem updateRule (store : RuleStore F) (rule : Nat) {change : Rule → Rule}
    (retouches : ∀ found, store.rule? rule = some found → (change found).book = found.book ∧
      (found.destroyed = true → (change found).destroyed = true) ∧
      (change found).enabled = found.enabled ∧ (change found).trigger = found.trigger) :
    store.Retouches (store.updateRule rule change) where
  components := rfl
  rules := by
    intro other found present
    rw [rule?_updateRule]
    split
    · rename_i same
      subst same
      exact ⟨change found, by rw [present]; rfl, retouches found present⟩
    · exact ⟨found, present, rfl, id, rfl, rfl⟩
  added := by
    intro other same present
    rw [rule?_updateRule] at present
    split at present
    · rcases Option.map_eq_some_iff.1 present with ⟨found, presentBefore, -⟩
      exact .inl ⟨found, presentBefore⟩
    · exact .inl ⟨same, present⟩

theorem addRule (store : RuleStore F) {added : Rule} (sleeps : added.enabled = false) :
    store.Retouches (store.addRule added).2 where
  components := rfl
  rules := by
    intro rule found present
    have old : rule ≠ store.rules.length := Nat.ne_of_lt (List.getElem?_eq_some_iff.1 present).1
    exact ⟨found, by rw [rule?_addRule, if_neg old]; exact present, rfl, id, rfl, rfl⟩
  added := by
    intro rule same present
    rw [rule?_addRule] at present
    split at present
    · cases present
      exact .inr sleeps
    · exact .inl ⟨same, present⟩

theorem newId (store : RuleStore F) (index : Nat) : store.Retouches (store.newId index).2 := by
  exact updateBook store index _

theorem build (store : RuleStore F) (index : Nat) : store.Retouches (store.build index).2 := by
  have added : store.Retouches
      ((store.newId index).2.addRule (.new index (store.newId index).1)).2 :=
    (newId store index).trans (addRule _ rfl)
  unfold RuleStore.build
  dsimp only
  rw [register_eq]
  split
  · exact added
  · refine added.trans ((updateBook _ index _).trans (updateRule _ _ ?_))
    intro found present
    have isNew : found = .new index (store.newId index).1 := by
      rw [rule?_updateBook, rule?_addRule] at present
      exact (Option.some.inj ((if_pos rfl).symm.trans present)).symm
    rw [isNew]
    exact ⟨rfl, id, rfl, rfl⟩

theorem unregister (store : RuleStore F) (index rule : Nat) :
    store.Retouches (store.unregister index rule) := by
  rw [unregister_eq]
  exact updateBook store index _

theorem rename (store : RuleStore F) (index rule : Nat) (name : String) :
    store.Retouches (store.rename index rule name).2 := by
  have nameless : store.Retouches (store.nameless index rule name) :=
    (updateBook store index _).trans (updateRule _ rule fun _ _ => ⟨rfl, id, rfl, rfl⟩)
  rw [rename_eq]
  split
  · exact refl store
  · dsimp only
    split
    · exact nameless.trans (updateBook _ index _)
    · exact nameless

theorem persist (store : RuleStore F) (rule : Nat) (name : Option String) :
    store.Retouches (store.persist rule name).2 := by
  have kept : ∀ store : RuleStore F, store.Retouches (store.updateRule rule fun found =>
      { found with persistent := true, lifetime := some .forever }) := fun store =>
    updateRule store rule fun _ _ => ⟨rfl, id, rfl, rfl⟩
  unfold RuleStore.persist
  cases name with
  | none =>
      exact kept store
  | some name =>
      have renamed := rename store (((store.rule? rule).map (·.book)).getD 0) rule name
      dsimp only [Option.elim_some]
      split
      · rename_i failed
        rw [failed] at renamed
        exact renamed
      · rename_i done
        rw [done] at renamed
        exact renamed.trans (kept _)

theorem setLifetime (store : RuleStore F) (rule : Nat) (lifetime : Lifetime) :
    store.Retouches (store.updateRule rule fun found => { found with lifetime := some lifetime }) := by
  exact updateRule store rule fun _ _ => ⟨rfl, id, rfl, rfl⟩

theorem retire (store : RuleStore F) (rule : Nat) :
    store.Retouches (store.updateRule rule fun found => { found with destroyed := true }) := by
  exact updateRule store rule fun _ _ => ⟨rfl, fun _ => rfl, rfl, rfl⟩

theorem addCondition (store : RuleStore F) (rule : Nat) (condition : ComponentRef) :
    store.Retouches (store.addCondition rule condition).2 := by
  unfold RuleStore.addCondition
  split
  · exact refl store
  · exact updateRule store rule fun _ _ => ⟨rfl, id, rfl, rfl⟩

theorem addAction (store : RuleStore F) (rule : Nat) (action : ComponentRef) :
    store.Retouches (store.addAction rule action).2 := by
  unfold RuleStore.addAction
  split
  · exact refl store
  · exact updateRule store rule fun _ _ => ⟨rfl, id, rfl, rfl⟩

end Retouches

/-! ## Exact tables -/

/-- What a rule listens to: its trigger, while it is enabled. -/
def listensTo? (store : RuleStore F) (rule : Nat) : Option ComponentRef :=
  ((store.rule? rule).filter (·.enabled)).map (·.trigger)

theorem listensTo?_eq_some_iff : store.listensTo? rule = some reference ↔
    ∃ found, store.rule? rule = some found ∧ found.enabled = true ∧ found.trigger = reference := by
  simp only [listensTo?, Option.map_eq_some_iff, Option.filter_eq_some_iff, and_assoc]

/-- Rules that are retouched listen as before. -/
theorem Retouches.listensTo? (retouches : before.Retouches after) (rule : Nat) :
    after.listensTo? rule = before.listensTo? rule := by
  ext reference
  rw [listensTo?_eq_some_iff, listensTo?_eq_some_iff]
  constructor
  · rintro ⟨same, presentAfter, enabled, rfl⟩
    rcases retouches.added rule same presentAfter with ⟨found, present⟩ | sleeps
    · rcases retouches.rules rule found present with ⟨again, presentToo, -, -, sameEnabled, trigger⟩
      cases presentAfter.symm.trans presentToo
      exact ⟨found, present, sameEnabled.symm.trans enabled, trigger.symm⟩
    · rw [sleeps] at enabled
      cases enabled
  · rintro ⟨found, present, enabled, rfl⟩
    rcases retouches.rules rule found present with ⟨same, presentAfter, -, -, sameEnabled, trigger⟩
    exact ⟨same, presentAfter, sameEnabled.trans enabled, trigger⟩

/-- Every rule that listens does so to triggers of events and lists of them.  An event trigger holds
no rule twice, and those rules that listen to a trigger in which it occurs. -/
structure IsExact (store : RuleStore F) : Prop where
  once : ∀ id, (store.listenersAt id).Nodup
  attached : ∀ {id}, store.IsEvent id → ∀ rule, rule ∈ store.listenersAt id ↔
    ∃ reference, store.listensTo? rule = some reference ∧ store.OccursIn id reference
  eventful : ∀ {rule reference}, store.listensTo? rule = some reference → store.Eventful reference

/-- The trigger of a rule, if it has one, is one of events. -/
def CanListen (store : RuleStore F) (rule : Nat) : Prop :=
  ∀ found, store.rule? rule = some found → found.trigger = none ∨ store.Eventful found.trigger

/-- No callback hears of an operation on triggers, and what is attached to them remains exact. -/
structure StaysExact (result : Announced F) : Prop where
  silent : result.2.1 = []
  exact : result.2.2.IsExact

namespace IsExact

/-- A table remains exact where the same rules listen and are attached, and nothing becomes of the
triggers that rules listen to. -/
theorem transfer (exact : before.IsExact)
    (listen : ∀ rule, after.listensTo? rule = before.listensTo? rule)
    (listeners : ∀ id, after.listenersAt id = before.listenersAt id)
    (events : ∀ id, after.IsEvent id → before.IsEvent id ∨ before.component? id = none)
    (kept : ∀ rule reference, before.listensTo? rule = some reference →
      ∀ id found, before.OccursIn id reference → before.component? id = some found →
        ∃ grown, after.component? id = some grown ∧ grown.bare = found.bare) :
    after.IsExact where
  once := by
    intro id
    rw [listeners]
    exact exact.once id
  attached := by
    intro id isEvent rule
    rw [listeners, listen]
    have same : ∀ reference, before.listensTo? rule = some reference →
        (after.OccursIn id reference ↔ before.OccursIn id reference) := fun reference listens =>
      ((exact.eventful listens).kept (kept rule reference listens)).2 id
    rcases events id isEvent with wasEvent | isNew
    · rw [exact.attached wasEvent]
      exact exists_congr fun reference => and_congr_right fun listens => (same reference listens).symm
    · have silent : before.listenersAt id = [] := by
        rw [listenersAt, isNew]
        rfl
      rw [silent]
      refine iff_of_false List.not_mem_nil ?_
      rintro ⟨reference, listens, occurs⟩
      rcases (exact.eventful listens).exists_of_occursIn ((same reference listens).1 occurs) with
        ⟨found, present, -⟩
      cases isNew.symm.trans present
  eventful := by
    intro rule reference listens
    rw [listen] at listens
    exact ((exact.eventful listens).kept (kept rule reference listens)).1

/-- A change that is none of the components or of what rules listen to. -/
theorem of_components (exact : before.IsExact) (same : after.components = before.components)
    (listen : ∀ rule, after.listensTo? rule = before.listensTo? rule) : after.IsExact := by
  have found : ∀ id, after.component? id = before.component? id := by
    intro id
    rw [component?, component?, same]
  refine exact.transfer listen ?_ ?_ ?_
  · intro id
    rw [listenersAt, listenersAt, found]
  · rintro id ⟨name, event, mapper, rules, present⟩
    exact .inl ⟨name, event, mapper, rules, (found id).symm.trans present⟩
  · intro rule reference _ id component _ present
    exact ⟨component, (found id).trans present, rfl⟩

theorem retouched (exact : before.IsExact) (retouches : before.Retouches after) :
    after.IsExact := by
  exact exact.of_components retouches.components retouches.listensTo?

/-- A rule that begins to listen is attached where its trigger says, and taken off there when it
ends. -/
theorem retune (exact : before.IsExact) (eventful : before.Eventful reference)
    (retuned : Retuned begins rule (before.OccursIn · reference) before after)
    (kept : before.KeepsComponents after) (events : ∀ id, after.IsEvent id → before.IsEvent id)
    (was : before.listensTo? rule = if begins then none else some reference)
    (becomes : after.listensTo? rule = if begins then some reference else none)
    (others : ∀ other, other ≠ rule → after.listensTo? other = before.listensTo? other) :
    after.IsExact := by
  have same : ∀ {reference}, before.Eventful reference → after.Eventful reference ∧
      ∀ id, after.OccursIn id reference ↔ before.OccursIn id reference := fun eventful =>
    eventful.kept fun _ _ _ present => kept present
  constructor
  · exact retuned.once
  · intro id isEvent other
    by_cases isRule : other = rule
    · subst isRule
      rw [becomes]
      by_cases isHeard : before.OccursIn id reference
      · rw [retuned.told id (events id isEvent) isHeard]
        have heard := ((same eventful).2 id).2 isHeard
        cases begins <;> simp [heard]
      · rw [retuned.others id other (.inr isHeard), exact.attached (events id isEvent), was]
        have unheard := mt ((same eventful).2 id).1 isHeard
        cases begins <;> simp [isHeard, unheard]
    · rw [retuned.others id other (.inl isRule), exact.attached (events id isEvent),
        others other isRule]
      exact exists_congr fun reference => and_congr_right fun listens =>
        ((same (exact.eventful listens)).2 id).symm
  · intro other reference listens
    by_cases isRule : other = rule
    · subst isRule
      rw [becomes] at listens
      cases begins <;> cases listens
      exact (same eventful).1
    · rw [others other isRule] at listens
      exact (same (exact.eventful listens)).1

/-- A rule that is switched on or off is told to all event triggers in its trigger. -/
theorem switch (exact : store.IsExact) {begins : Bool} {found : Rule}
    (present : store.rule? rule = some found) (turns : found.enabled = !begins)
    (eventful : store.Eventful found.trigger) :
    StaysExact (store.switch begins rule (fun found => { found with enabled := begins })
      found.trigger) := by
  have grows : store.Grows (store.tell begins rule found.trigger).2.2 :=
    Grows.tellWithin begins rule _ _ store
  have length : (store.tell begins rule found.trigger).2.2.components.length =
      store.components.length := length_tellWithin begins rule _ _ store
  rcases eventful.tell begins rule exact.once with ⟨heard, silent, retuned⟩
  rw [RuleStore.switch]
  generalize store.tell begins rule found.trigger = telling at grows length heard silent retuned ⊢
  rcases telling with ⟨_, announced, told⟩
  dsimp only at grows length heard silent retuned
  subst heard silent
  have rules : ∀ other, told.rule? other = store.rule? other := fun other => by
    rw [rule?, grows.rules]
    rfl
  refine ⟨rfl, exact.retune eventful ⟨retuned.once, retuned.told, retuned.others⟩
    grows.component? (fun id isEvent => IsEvent.of_grows grows length isEvent) ?_ ?_ ?_⟩
  · rw [listensTo?, present]
    cases begins <;> simp [turns]
  · rw [listensTo?, rule?_updateRule, if_pos rfl, rules, present]
    cases begins <;> rfl
  · intro other isOther
    rw [listensTo?, rule?_updateRule, if_neg isOther.symm, rules]
    rfl

/-! ### Calls -/

theorem enable (exact : store.IsExact) (canListen : store.CanListen rule) :
    StaysExact (store.enable rule) := by
  rw [enable_eq]
  split
  · exact ⟨rfl, exact⟩
  · rename_i found present
    split
    · exact ⟨rfl, exact⟩
    · rename_i free
      have sleeps : found.enabled = false := by
        cases enabled : found.enabled <;> simp_all
      rcases canListen found present with untold | eventful
      · rw [untold]
        exact ⟨rfl, exact⟩
      · exact exact.switch present sleeps eventful

theorem create (exact : store.IsExact) (canListen : store.CanListen rule) :
    StaysExact (store.create rule) := by
  unfold RuleStore.create
  split
  · exact ⟨rfl, exact⟩
  · split
    · exact ⟨rfl, exact⟩
    · exact exact.enable canListen

theorem disable (exact : store.IsExact) (rule : Nat) : StaysExact (store.disable rule) := by
  rw [disable_eq]
  split
  · exact ⟨rfl, exact⟩
  · rename_i found present
    split
    · exact ⟨rfl, exact⟩
    · rename_i listens
      have enabled : found.enabled = true := by simpa using listens
      exact exact.switch present enabled
        (exact.eventful (listensTo?_eq_some_iff.2 ⟨found, present, enabled, rfl⟩))

theorem destroy (exact : store.IsExact) (rule : Nat) : StaysExact (store.destroy rule) := by
  unfold RuleStore.destroy
  split
  · exact ⟨rfl, exact⟩
  · split
    · exact ⟨rfl, exact⟩
    · have stopped := exact.disable rule
      split
      · rename_i failed
        rw [failed] at stopped
        exact stopped
      · rename_i done
        rw [done] at stopped
        exact ⟨stopped.silent,
          (stopped.exact.retouched (.retire _ rule)).retouched (.unregister _ _ rule)⟩

theorem remove (exact : store.IsExact) (index : Nat) (key : Value) :
    (store.remove index key).2.1 = [] ∧ (store.remove index key).2.2.IsExact := by
  unfold RuleStore.remove
  split
  · exact ⟨rfl, exact⟩
  · exact ⟨rfl, exact⟩
  · rename_i rule _
    exact ⟨(exact.destroy rule).silent, (exact.destroy rule).exact⟩

theorem settleLifetime (exact : store.IsExact) (rule : Nat) :
    StaysExact (store.settleLifetime rule) := by
  unfold RuleStore.settleLifetime
  split
  · exact exact.destroy rule
  · rename_i lifetime _
    have settled := exact.retouched (.setLifetime store rule lifetime.settle.2)
    dsimp only
    split
    · exact ⟨rfl, settled⟩
    · exact settled.destroy rule

/-- A trigger is given to a rule that does not listen. -/
theorem setTrigger (exact : store.IsExact) (trigger : ComponentRef)
    (sleeps : ∀ found, store.rule? rule = some found → found.enabled = false) :
    (store.setTrigger rule trigger).2.IsExact := by
  unfold RuleStore.setTrigger
  split
  · exact exact
  · refine exact.of_components rfl fun other => ?_
    rw [listensTo?, listensTo?, rule?_updateRule]
    split
    · rename_i same
      subst same
      cases present : store.rule? rule with
      | none =>
          rfl
      | some found =>
          simp [Option.filter, sleeps found present]
    · rfl

/-! ### Components -/

/-- Components to which no rules are attached are added behind those of a table. -/
theorem append (exact : before.IsExact) {added : List (Component F)}
    (components : after.components = before.components ++ added)
    (silent : ∀ component ∈ added, component.listeners = []) (rules : after.rules = before.rules) :
    after.IsExact := by
  have old : ∀ {id found}, before.component? id = some found →
      after.component? id = some found := by
    intro id found present
    rw [component?, components,
      List.getElem?_append_left (List.getElem?_eq_some_iff.1 present).1]
    exact present
  have new : ∀ {id}, before.component? id = none → after.listenersAt id = [] := by
    intro id absent
    rw [listenersAt]
    cases present : after.component? id with
    | none =>
        rfl
    | some found =>
        rw [component?, components, List.getElem?_append_right
          (List.getElem?_eq_none_iff.1 absent)] at present
        exact silent found (List.mem_of_getElem? present)
  have known : ∀ id, before.component? id = none ∨ ∃ found, before.component? id = some found := by
    intro id
    cases present : before.component? id with
    | none =>
        exact .inl rfl
    | some found =>
        exact .inr ⟨found, rfl⟩
  refine exact.transfer ?_ ?_ ?_ ?_
  · intro rule
    rw [listensTo?, listensTo?, rule?, rule?, rules]
  · intro id
    rcases known id with absent | ⟨found, present⟩
    · rw [new absent, listenersAt, absent]
      rfl
    · rw [listenersAt, listenersAt, old present, present]
  · rintro id ⟨name, event, mapper, rules, presentAfter⟩
    rcases known id with absent | ⟨found, present⟩
    · exact .inr absent
    · cases presentAfter.symm.trans (old present)
      exact .inl ⟨name, event, mapper, rules, present⟩
  · intro rule reference _ id found _ present
    exact ⟨found, old present, rfl⟩

theorem openBook (exact : store.IsExact) (place : Option DataPlace) :
    (store.openBook place).2.IsExact := by
  refine exact.append rfl ?_ rfl
  simp [Component.listeners]

/-- A component that is no event trigger is changed into another one, and no rule listens to a
trigger in which it occurs. -/
theorem setComponent (exact : store.IsExact) {found changed : Component F}
    (present : store.component? id = some found) (wasPlain : ¬ store.IsEvent id)
    (isPlain : ∀ name event mapper rules, changed ≠ .eventTrigger name event mapper rules)
    (unheard : ∀ rule reference, store.listensTo? rule = some reference →
      ¬ store.OccursIn id reference) : (store.setComponent id changed).IsExact := by
  have inside : id < store.components.length := (List.getElem?_eq_some_iff.1 present).1
  have here : (store.setComponent id changed).component? id = some changed := by
    simp [component?, RuleStore.setComponent, inside]
  have elsewhere : ∀ other, other ≠ id →
      (store.setComponent id changed).component? other = store.component? other := by
    intro other apart
    simp [component?, RuleStore.setComponent, apart.symm]
  have plain : ∀ {component : Component F},
      (∀ name event mapper rules, component ≠ .eventTrigger name event mapper rules) →
        component.listeners = [] := by
    intro component isPlain
    cases component with
    | eventTrigger name event mapper rules =>
        exact (isPlain name event mapper rules rfl).elim
    | _ =>
        rfl
  refine exact.transfer (fun _ => rfl) ?_ ?_ ?_
  · intro other
    by_cases same : other = id
    · subst same
      rw [listenersAt_eq here, listenersAt_eq present, plain isPlain, plain]
      rintro name event mapper rules rfl
      exact wasPlain ⟨name, event, mapper, rules, present⟩
    · rw [listenersAt, listenersAt, elsewhere other same]
  · rintro other ⟨name, event, mapper, rules, presentAfter⟩
    by_cases same : other = id
    · subst same
      cases presentAfter.symm.trans here
      exact (isPlain name event mapper rules rfl).elim
    · rw [elsewhere other same] at presentAfter
      exact .inl ⟨name, event, mapper, rules, presentAfter⟩
  · intro rule reference listens other component occurs presentBefore
    have apart : other ≠ id := by
      rintro rfl
      exact unheard rule reference listens occurs
    exact ⟨component, (elsewhere other apart).trans presentBefore, rfl⟩

end IsExact

end Steward.RuleStore
