import Steward.Proofs.Rule.Keeping

/-!
# Tables that match

Two tables may hold the same rules under different numbers: what one of them has and the
other has not shifts everything that is made later.  A matching says which components and
which rules correspond.  Tables that match do so after every change that is made to both of
them, and components are rebuilt alike in both (`loadWithin_agrees`), while the matching only
grows.
-/

namespace Steward

variable {F : Type}

/-- Which components and which rules of two tables correspond. -/
structure Matching where
  components : Nat → Nat → Prop
  rules : Nat → Nat → Prop

namespace Matching

variable {matching middle other : Matching}

/-- What corresponds goes on to correspond. -/
structure Within (matching other : Matching) : Prop where
  components : ∀ {left right}, matching.components left right → other.components left right
  rules : ∀ {left right}, matching.rules left right → other.rules left right

theorem Within.refl (matching : Matching) : matching.Within matching := by
  exact ⟨id, id⟩

theorem Within.trans (first : matching.Within middle) (second : middle.Within other) :
    matching.Within other := by
  exact ⟨second.components ∘ first.components, second.rules ∘ first.rules⟩

/-- References to corresponding components, or to none. -/
abbrev Refers (matching : Matching) : ComponentRef → ComponentRef → Prop :=
  Option.Rel matching.components

/-- Entries of one key whose rules correspond. -/
def Enters {κ : Type} (matching : Matching) (left right : κ × Nat) : Prop :=
  left.1 = right.1 ∧ matching.rules left.2 right.2

theorem Refers.mono {left right : ComponentRef} (refers : matching.Refers left right)
    (within : matching.Within other) : other.Refers left right := by
  cases refers with
  | some related =>
      exact .some (within.components related)
  | none =>
      exact .none

theorem rules_mono {left right : Option Nat} (same : Option.Rel matching.rules left right)
    (within : matching.Within other) : Option.Rel other.rules left right := by
  cases same with
  | some related =>
      exact .some (within.rules related)
  | none =>
      exact .none

def withComponent (matching : Matching) (left right : Nat) : Matching where
  components first second := matching.components first second ∨ first = left ∧ second = right
  rules := matching.rules

def withRule (matching : Matching) (left right : Nat) : Matching where
  components := matching.components
  rules first second := matching.rules first second ∨ first = left ∧ second = right

theorem within_withComponent (matching : Matching) (left right : Nat) :
    matching.Within (matching.withComponent left right) := by
  exact ⟨.inl, id⟩

theorem within_withRule (matching : Matching) (left right : Nat) :
    matching.Within (matching.withRule left right) := by
  exact ⟨id, .inl⟩

end Matching

/-- Components of one kind, with corresponding parts and listeners. -/
inductive Component.Matches (matching : Matching) : Component F → Component F → Prop where
  | triggerList {items others : List ComponentRef}
      (each : List.Forall₂ matching.Refers items others) :
      Matches matching (.triggerList items) (.triggerList others)
  | eventTrigger {name event : String} {mapper : Option (Mapper F)} {rules others : List Nat}
      (each : List.Forall₂ matching.rules rules others) :
      Matches matching (.eventTrigger name event mapper rules)
        (.eventTrigger name event mapper others)
  | customTrigger {name : Option String} {callback : F} :
      Matches matching (.customTrigger name callback) (.customTrigger name callback)
  | anyOf {items others : List ComponentRef}
      (each : List.Forall₂ matching.Refers items others) :
      Matches matching (.anyOf items) (.anyOf others)
  | inverted {base other : ComponentRef} (refers : matching.Refers base other) :
      Matches matching (.inverted base) (.inverted other)
  | condition {name : Option String} {test : Test F} :
      Matches matching (.condition name test) (.condition name test)
  | paramCondition {name : String} {test : Test F} {parameters : Parameters} :
      Matches matching (.paramCondition name test parameters)
        (.paramCondition name test parameters)
  | action {name : Option String} {deed : Deed F} :
      Matches matching (.action name deed) (.action name deed)
  | paramAction {name : String} {deed : Deed F} {parameters : Parameters} :
      Matches matching (.paramAction name deed parameters) (.paramAction name deed parameters)

/-- Rules that are the same but for the numbers of their components. -/
structure Rule.Matches (matching : Matching) (left right : Rule) : Prop where
  book : left.book = right.book
  id : left.id = right.id
  name : left.name = right.name
  persistent : left.persistent = right.persistent
  lifetime : left.lifetime = right.lifetime
  enabled : left.enabled = right.enabled
  destroyed : left.destroyed = right.destroyed
  trigger : matching.Refers left.trigger right.trigger
  conditions : List.Forall₂ matching.Refers left.conditions right.conditions
  actions : List.Forall₂ matching.Refers left.actions right.actions

theorem Component.Matches.mono {matching other : Matching} {left right : Component F}
    (same : left.Matches matching right) (within : matching.Within other) :
    left.Matches other right := by
  cases same with
  | triggerList each =>
      exact .triggerList (each.imp fun _ _ refers => refers.mono within)
  | eventTrigger each =>
      exact .eventTrigger (each.imp fun _ _ => within.rules)
  | anyOf each =>
      exact .anyOf (each.imp fun _ _ refers => refers.mono within)
  | inverted refers =>
      exact .inverted (refers.mono within)
  | customTrigger | condition | paramCondition | action | paramAction =>
      constructor

theorem Rule.Matches.mono {matching other : Matching} {left right : Rule}
    (same : left.Matches matching right) (within : matching.Within other) :
    left.Matches other right :=
  { same with
    trigger := same.trigger.mono within
    conditions := same.conditions.imp fun _ _ refers => refers.mono within
    actions := same.actions.imp fun _ _ refers => refers.mono within }

namespace RuleStore

variable {matching next : Matching} {index : Nat} {left right : RuleStore F}

/-- Two tables match: what corresponds is the same in both up to a matching, which pairs
everything at most once, and so is a book: its base, its rules in their order, its names and
its next id. -/
structure Matches (matching : Matching) (index : Nat) (left right : RuleStore F) : Prop where
  components : ∀ {first second}, matching.components first second →
    ∃ found other, left.component? first = some found ∧ right.component? second = some other ∧
      found.Matches matching other
  rules : ∀ {first second}, matching.rules first second →
    ∃ found other, left.rule? first = some found ∧ right.rule? second = some other ∧
      found.Matches matching other
  oneComponent : ∀ {first second third fourth}, matching.components first second →
    matching.components third fourth → (first = third ↔ second = fourth)
  oneRule : ∀ {first second third fourth}, matching.rules first second →
    matching.rules third fourth → (first = third ↔ second = fourth)
  insideLeft : index < left.books.length
  insideRight : index < right.books.length
  base : ∀ key, matching.Refers ((left.book index).base.get? key)
    ((right.book index).base.get? key)
  registered : List.Forall₂ matching.Enters (left.book index).rules.entries
    (right.book index).rules.entries
  named : ∀ name, Option.Rel matching.rules ((left.book index).rulesByName.get? name)
    ((right.book index).rulesByName.get? name)
  nextId : (left.book index).nextId = (right.book index).nextId

/-- A table has all components and rules of another one, and the same books. -/
structure Preserves (before after : RuleStore F) : Prop where
  components : ∀ {id found}, before.component? id = some found → after.component? id = some found
  rules : ∀ {rule found}, before.rule? rule = some found → after.rule? rule = some found
  books : after.books = before.books

namespace Matches

theorem component_lt (same : left.Matches matching index right) {first second : Nat}
    (related : matching.components first second) :
    first < left.components.length ∧ second < right.components.length := by
  rcases same.components related with ⟨_, _, presentLeft, presentRight, -⟩
  exact ⟨(List.getElem?_eq_some_iff.1 presentLeft).1, (List.getElem?_eq_some_iff.1 presentRight).1⟩

theorem rule_lt (same : left.Matches matching index right) {first second : Nat}
    (related : matching.rules first second) :
    first < left.rules.length ∧ second < right.rules.length := by
  rcases same.rules related with ⟨_, _, presentLeft, presentRight, -⟩
  exact ⟨(List.getElem?_eq_some_iff.1 presentLeft).1, (List.getElem?_eq_some_iff.1 presentRight).1⟩

/-! ## Changes of both tables -/

theorem addComponent (same : left.Matches matching index right) {found other : Component F}
    (alike : found.Matches matching other) :
    (left.addComponent found).2.Matches
      (matching.withComponent left.components.length right.components.length) index
      (right.addComponent other).2 := by
  have within := matching.within_withComponent left.components.length right.components.length
  refine ⟨?_, ?_, ?_, same.oneRule, same.insideLeft, same.insideRight, ?_, same.registered,
    same.named, same.nextId⟩
  · rintro first second (old | ⟨rfl, rfl⟩)
    · rcases same.components old with ⟨here, there, presentLeft, presentRight, alikeToo⟩
      exact ⟨here, there, component?_addComponent_of_old presentLeft found,
        component?_addComponent_of_old presentRight other, alikeToo.mono within⟩
    · exact ⟨found, other, component?_addComponent left found, component?_addComponent right other,
        alike.mono within⟩
  · intro first second related
    rcases same.rules related with ⟨here, there, presentLeft, presentRight, alikeToo⟩
    exact ⟨here, there, presentLeft, presentRight, alikeToo.mono within⟩
  · -- The new pair lies behind both tables, so no old one shares a member with it.
    rintro first second third fourth (old | ⟨rfl, rfl⟩) (oldToo | ⟨rfl, rfl⟩)
    · exact same.oneComponent old oldToo
    · have below := same.component_lt old
      omega
    · have below := same.component_lt oldToo
      omega
    · simp
  · intro key
    exact (same.base key).mono within

theorem addRule (same : left.Matches matching index right) {found other : Rule}
    (alike : found.Matches matching other) :
    (left.addRule found).2.Matches
      (matching.withRule left.rules.length right.rules.length) index (right.addRule other).2 := by
  have within := matching.within_withRule left.rules.length right.rules.length
  refine ⟨?_, ?_, same.oneComponent, ?_, same.insideLeft, same.insideRight, same.base, ?_, ?_,
    same.nextId⟩
  · intro first second related
    rcases same.components related with ⟨here, there, presentLeft, presentRight, alikeToo⟩
    exact ⟨here, there, presentLeft, presentRight, alikeToo.mono within⟩
  · rintro first second (old | ⟨rfl, rfl⟩)
    · rcases same.rules old with ⟨here, there, presentLeft, presentRight, alikeToo⟩
      have below := same.rule_lt old
      refine ⟨here, there, ?_, ?_, alikeToo.mono within⟩
      · rw [rule?_addRule, if_neg (Nat.ne_of_lt below.1)]
        exact presentLeft
      · rw [rule?_addRule, if_neg (Nat.ne_of_lt below.2)]
        exact presentRight
    · exact ⟨found, other, by rw [rule?_addRule, if_pos rfl], by rw [rule?_addRule, if_pos rfl],
        alike.mono within⟩
  · rintro first second third fourth (old | ⟨rfl, rfl⟩) (oldToo | ⟨rfl, rfl⟩)
    · exact same.oneRule old oldToo
    · have below := same.rule_lt old
      omega
    · have below := same.rule_lt oldToo
      omega
    · simp
  · exact same.registered.imp fun _ _ enters => ⟨enters.1, within.rules enters.2⟩
  · intro name
    exact Matching.rules_mono (same.named name) within

theorem updateRule (same : left.Matches matching index right) {first second : Nat}
    (related : matching.rules first second) {change : Rule → Rule}
    (alike : ∀ {found other : Rule}, found.Matches matching other →
      (change found).Matches matching (change other)) :
    (left.updateRule first change).Matches matching index (right.updateRule second change) := by
  refine { same with rules := ?_ }
  intro third fourth relatedToo
  rcases same.rules relatedToo with ⟨here, there, presentLeft, presentRight, alikeToo⟩
  have one := same.oneRule related relatedToo
  rw [rule?_updateRule, rule?_updateRule, presentLeft, presentRight]
  by_cases changed : first = third
  · rw [if_pos changed, if_pos (one.1 changed)]
    exact ⟨_, _, rfl, rfl, alike alikeToo⟩
  · rw [if_neg changed, if_neg fun changedToo => changed (one.2 changedToo)]
    exact ⟨_, _, rfl, rfl, alikeToo⟩

theorem setComponent (same : left.Matches matching index right) {first second : Nat}
    (related : matching.components first second) {found other : Component F}
    (alike : found.Matches matching other) :
    (left.setComponent first found).Matches matching index (right.setComponent second other) := by
  refine { same with components := ?_ }
  intro third fourth relatedToo
  rcases same.components relatedToo with ⟨here, there, presentLeft, presentRight, alikeToo⟩
  have one := same.oneComponent related relatedToo
  have below := same.component_lt related
  simp only [component?, RuleStore.setComponent, List.getElem?_set]
  by_cases changed : first = third
  · rw [if_pos changed, if_pos (one.1 changed), if_pos below.1, if_pos below.2]
    exact ⟨_, _, rfl, rfl, alike⟩
  · rw [if_neg changed, if_neg fun changedToo => changed (one.2 changedToo)]
    exact ⟨_, _, presentLeft, presentRight, alikeToo⟩

/-- What is only added to one of two tables that match is of no concern. -/
theorem preserves_right {after : RuleStore F} (same : left.Matches matching index right)
    (preserves : right.Preserves after) : left.Matches matching index after := by
  rcases preserves with ⟨components, rules, books⟩
  have book : after.book index = right.book index := by
    rw [RuleStore.book, RuleStore.book, books]
  refine ⟨?_, ?_, same.oneComponent, same.oneRule, same.insideLeft, ?_, ?_, ?_, ?_, ?_⟩
  · intro first second related
    rcases same.components related with ⟨here, there, presentLeft, presentRight, alikeToo⟩
    exact ⟨here, there, presentLeft, components presentRight, alikeToo⟩
  · intro first second related
    rcases same.rules related with ⟨here, there, presentLeft, presentRight, alikeToo⟩
    exact ⟨here, there, presentLeft, rules presentRight, alikeToo⟩
  · rw [books]
    exact same.insideRight
  · rw [book]
    exact same.base
  · rw [book]
    exact same.registered
  · rw [book]
    exact same.named
  · rw [book]
    exact same.nextId

end Matches

/-- What is in a table corresponds to itself. -/
def selfMatching (store : RuleStore F) : Matching where
  components first second := first = second ∧ first < store.components.length
  rules first second := first = second ∧ first < store.rules.length

theorem Has.refers_self {store : RuleStore F} {reference : ComponentRef}
    (has : store.Has reference) : store.selfMatching.Refers reference reference := by
  rcases has with ⟨id, inside, rfl⟩
  exact .some ⟨rfl, inside⟩

theorem Furnishes.matches_self {store : RuleStore F} {found : Rule}
    (furnishes : store.Furnishes found) : found.Matches store.selfMatching found where
  book := rfl
  id := rfl
  name := rfl
  persistent := rfl
  lifetime := rfl
  enabled := rfl
  destroyed := rfl
  trigger := by
    rcases furnishes.trigger with unset | has
    · rw [unset]
      exact .none
    · exact has.refers_self
  conditions := List.forall₂_same.2 fun condition isCondition =>
    (furnishes.conditions condition isCondition).refers_self
  actions := List.forall₂_same.2 fun action isAction =>
    (furnishes.actions action isAction).refers_self

theorem IsFurnished.component_matches_self {store : RuleStore F} (furnished : store.IsFurnished)
    {id : Nat} {found : Component F} (present : store.component? id = some found) :
    found.Matches store.selfMatching found := by
  have stands := furnished.proper id (List.getElem?_eq_some_iff.1 present).1
  have parts : ∀ part ∈ found.parts, store.selfMatching.Refers part part := by
    cases stands with
    | intro presentToo parts =>
        cases present.symm.trans presentToo
        exact fun part isPart => Has.refers_self (parts part isPart).exists_id
  have listeners : ∀ rule ∈ found.listeners, store.selfMatching.rules rule rule :=
    fun rule listens => ⟨rfl, furnished.listeners present rule listens⟩
  cases found with
  | triggerList items =>
      exact .triggerList (List.forall₂_same.2 parts)
  | eventTrigger =>
      exact .eventTrigger (List.forall₂_same.2 listeners)
  | anyOf items =>
      exact .anyOf (List.forall₂_same.2 parts)
  | inverted base =>
      cases base with
      | none =>
          exact .inverted .none
      | some base =>
          exact .inverted (parts _ List.mem_cons_self)
  | customTrigger | condition | paramCondition | action | paramAction =>
      constructor

/-- A table with a book that is in use matches itself. -/
theorem InUse.matches_self {store : RuleStore F} (inUse : store.InUse index) :
    store.Matches store.selfMatching index store := by
  rcases inUse with ⟨furnished, registry⟩
  have registered : ∀ {id rule}, (store.book index).rules.get? id = some rule →
      store.selfMatching.rules rule rule := by
    intro id rule isRegistered
    rcases registry.own isRegistered with ⟨found, present, -⟩
    exact ⟨rfl, (List.getElem?_eq_some_iff.1 present).1⟩
  refine ⟨?_, ?_, ?_, ?_, registry.inside, registry.inside, ?_, ?_, ?_, rfl⟩
  · rintro first _ ⟨rfl, inside⟩
    have present : store.component? first = some store.components[first] :=
      List.getElem?_eq_getElem inside
    exact ⟨_, _, present, present, furnished.component_matches_self present⟩
  · rintro first _ ⟨rfl, inside⟩
    have present : store.rule? first = some store.rules[first] := List.getElem?_eq_getElem inside
    exact ⟨_, _, present, present, (furnished.rules present).matches_self⟩
  · rintro first _ third _ ⟨rfl, -⟩ ⟨rfl, -⟩
    exact Iff.rfl
  · rintro first _ third _ ⟨rfl, -⟩ ⟨rfl, -⟩
    exact Iff.rfl
  · intro key
    cases known : (store.book index).base.get? key with
    | none =>
        exact .none
    | some id =>
        exact ((registry.ready furnished.proper).base known).refers_self
  · refine List.forall₂_same.2 ?_
    rintro ⟨id, rule⟩ isEntry
    exact ⟨rfl, registered (OrderedMap.get?_of_mem registry.distinct isEntry)⟩
  · intro name
    cases named : (store.book index).rulesByName.get? name with
    | none =>
        exact .none
    | some rule =>
        exact .some (registered ((registry.names name rule).1 named).1)

/-! ## Rebuilding components -/

/-- Two outcomes are the same failure, or values that are related. -/
inductive Alike {α : Type} (related : α → α → Prop) :
    Except Failure α → Except Failure α → Prop where
  | failed (failure : Failure) : Alike related (.error failure) (.error failure)
  | done {first second : α} (isRelated : related first second) :
      Alike related (.ok first) (.ok second)

/-- Two tables match after something was done to both of them, and what came of it is related
by what corresponds then. -/
structure Agree {α : Type} (matching : Matching) (index : Nat) (related : Matching → α → α → Prop)
    (left right : Except Failure α × RuleStore F) : Prop where
  exists_next : ∃ next, matching.Within next ∧ left.2.Matches next index right.2 ∧
    Alike (related next) left.1 right.1

/-- What is done to two tables that match agrees. -/
def Agrees {α : Type} (index : Nat) (related : Matching → α → α → Prop)
    (load : RuleStore F → Except Failure α × RuleStore F) : Prop :=
  ∀ {matching left right}, left.Matches matching index right →
    Agree matching index related (load left) (load right)

/-- Corresponding components. -/
abbrev RelatesOne (matching : Matching) (first second : Nat) : Prop :=
  matching.components first second

/-- References to corresponding components. -/
abbrev RelatesEach (matching : Matching) (refs others : List ComponentRef) : Prop :=
  List.Forall₂ matching.Refers refs others

namespace Agree

variable {α : Type} {related : Matching → α → α → Prop}

theorem failed (same : left.Matches matching index right) (failure : Failure) :
    Agree matching index related (.error failure, left) (.error failure, right) := by
  exact ⟨matching, .refl matching, same, .failed failure⟩

theorem done (within : matching.Within next) (same : left.Matches next index right)
    {first second : α} (isRelated : related next first second) :
    Agree matching index related (.ok first, left) (.ok second, right) := by
  exact ⟨next, within, same, .done isRelated⟩

theorem behind {results others : Except Failure α × RuleStore F} (within : matching.Within next)
    (agree : Agree next index related results others) :
    Agree matching index related results others := by
  rcases agree with ⟨last, later, same, alike⟩
  exact ⟨last, within.trans later, same, alike⟩

/-- What goes on alike with related results agrees. -/
theorem andThen {β : Type} {relatedToo : Matching → β → β → Prop}
    {results others : Except Failure α × RuleStore F}
    (agree : Agree matching index related results others)
    {goOn goOnToo : α → RuleStore F → Except Failure β × RuleStore F}
    (goesOn : ∀ next left right first second, matching.Within next →
      left.Matches next index right → related next first second →
      Agree next index relatedToo (goOn first left) (goOnToo second right)) :
    Agree matching index relatedToo (RuleStore.andThen results goOn)
      (RuleStore.andThen others goOnToo) := by
  rcases agree with ⟨next, within, same, alike⟩
  rcases results with ⟨_, left⟩
  rcases others with ⟨_, right⟩
  cases alike with
  | failed failure =>
      exact .behind within (.failed same failure)
  | done isRelated =>
      exact .behind within (goesOn next left right _ _ within same isRelated)

/-- Corresponding components are added to both tables. -/
theorem addComponent (same : left.Matches matching index right) {found other : Component F}
    (alike : found.Matches matching other) :
    Agree matching index RelatesOne
      (.ok (left.addComponent found).1, (left.addComponent found).2)
      (.ok (right.addComponent other).1, (right.addComponent other).2) := by
  exact .done (matching.within_withComponent _ _) (same.addComponent alike) (.inr ⟨rfl, rfl⟩)

end Agree

variable {loadOne : Value → RuleStore F → Except Failure Nat × RuleStore F}

theorem loadEach_agrees (one : ∀ data, Agrees index RelatesOne (loadOne data))
    (items : List Value) : Agrees index RelatesEach (loadEach loadOne items) := by
  induction items with
  | nil =>
      intro matching left right same
      exact .done (.refl matching) same .nil
  | cons data rest ih =>
      intro matching left right same
      rw [loadEach_cons, loadEach_cons]
      refine (one data same).andThen fun next left right id other _ same isRelated => ?_
      refine (ih same).andThen fun later left right refs others within same areRelated => ?_
      exact .done (.refl later) same (.cons (.some (within.components isRelated)) areRelated)

theorem loadList_agrees (one : ∀ data, Agrees index RelatesOne (loadOne data)) (data : Value) :
    Agrees index RelatesEach (loadList loadOne data) := by
  intro matching left right same
  unfold loadList
  split
  · exact .failed same _
  · exact loadEach_agrees one _ same

theorem createWith_agree (one : ∀ data, Agrees index RelatesOne (loadOne data))
    (same : left.Matches matching index right) {base other : Component F}
    (alike : base.Matches matching other) (data : Value) :
    Agree matching index RelatesOne (createWith loadOne base data left)
      (createWith loadOne other data right) := by
  have gathered : ∀ (gathering : Gathering) refs others, Agree matching index RelatesOne
      (createWith loadOne (gathering.component refs) data left)
      (createWith loadOne (gathering.component others) data right) := by
    intro gathering refs others
    rw [createWith_component, createWith_component]
    refine (loadList_agrees one data same).andThen fun _ _ _ _ _ _ same areRelated => ?_
    cases gathering with
    | triggers =>
        exact .addComponent same (.triggerList areRelated)
    | alternatives =>
        exact .addComponent same (.anyOf areRelated)
  cases alike with
  | triggerList =>
      exact gathered .triggers _ _
  | anyOf =>
      exact gathered .alternatives _ _
  | inverted =>
      cases base : data.get? "base" with
      | none =>
          rw [createWith_inverted_of_none _ _ _ _ base, createWith_inverted_of_none _ _ _ _ base]
          exact .failed same _
      | some inner =>
          rw [createWith_inverted_of_base _ _ _ _ base, createWith_inverted_of_base _ _ _ _ base]
          refine (one inner same).andThen fun _ _ _ _ _ _ same isRelated => ?_
          exact .addComponent same (.inverted (.some isRelated))
  | paramCondition =>
      exact .addComponent same .paramCondition
  | paramAction =>
      exact .addComponent same .paramAction
  | eventTrigger | customTrigger | condition | action =>
      exact .failed same _

theorem Matches.baseOf (same : left.Matches matching index right) (data : Value) :
    Alike matching.components (left.baseOf index data) (right.baseOf index data) := by
  have known : ∀ key, Alike matching.components (left.baseComponent index key)
      (right.baseComponent index key) := by
    intro key
    have base := same.base key
    unfold baseComponent
    generalize (left.book index).base.get? key = first at base ⊢
    generalize (right.book index).base.get? key = second at base ⊢
    cases base with
    | some isRelated =>
        exact .done isRelated
    | none =>
        exact .failed _
  unfold RuleStore.baseOf
  split
  · exact known _
  · split
    · exact .failed _
    · exact .failed _
    · exact known _
  · exact .failed _

/-- Components are rebuilt alike in tables that match. -/
theorem loadWithin_agrees (index depth : Nat) (data : Value) :
    Agrees (F := F) index RelatesOne (loadWithin index depth data) := by
  induction depth generalizing data with
  | zero =>
      intro matching left right same
      exact .failed same _
  | succ depth ih =>
      intro matching left right same
      rw [loadWithin, loadWithin]
      have named := same.baseOf data
      generalize left.baseOf index data = first at named ⊢
      generalize right.baseOf index data = second at named ⊢
      cases named with
      | failed failure =>
          exact .failed same failure
      | @done first second isRelated =>
          have shared : Agree matching index RelatesOne (.ok first, left) (.ok second, right) :=
            .done (.refl matching) same isRelated
          rcases same.components isRelated with ⟨found, other, presentLeft, presentRight, alike⟩
          dsimp only
          rw [presentLeft, presentRight]
          cases data with
          | map entries =>
              have sameKind : other.isParameterized = found.isParameterized := by
                cases alike <;> rfl
              dsimp only
              rw [sameKind]
              split
              · exact createWith_agree ih same alike _
              · exact shared
          | _ =>
              exact shared

theorem loadComponent_agrees (index : Nat) (data : Value) :
    Agrees (F := F) index RelatesOne (fun store => store.loadComponent index data) := by
  exact loadWithin_agrees index _ data

end RuleStore

end Steward
