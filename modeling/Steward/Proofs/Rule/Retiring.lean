import Steward.Proofs.Rule.Exactness

/-!
# Retired rules

A rule that is destroyed has left its book, and no call brings it back: its name may change, but it is
registered under none, and it is not enabled again.  `IsTidy` says this of a table with any number of
books; `Upholds` says that what is destroyed stays so.
-/

namespace Steward.RuleStore

variable {F : Type} {store before middle after : RuleStore F} {rule index : Nat}

/-! ## What stays of a rule -/

/-- Every rule remains in its book, and one that is destroyed remains destroyed. -/
def Upholds (before after : RuleStore F) : Prop :=
  ∀ rule found, before.rule? rule = some found →
    ∃ same, after.rule? rule = some same ∧ same.book = found.book ∧
      (found.destroyed = true → same.destroyed = true)

theorem Retouches.upholds (retouches : before.Retouches after) : before.Upholds after := by
  intro rule found present
  rcases retouches.rules rule found present with ⟨same, presentAfter, book, destroyed, -⟩
  exact ⟨same, presentAfter, book, destroyed⟩

namespace Upholds

theorem of_rules (same : after.rules = before.rules) : before.Upholds after := by
  intro rule found present
  refine ⟨found, ?_, rfl, id⟩
  rw [rule?, same]
  exact present

theorem refl (store : RuleStore F) : store.Upholds store := by
  exact of_rules rfl

theorem trans (first : before.Upholds middle) (second : middle.Upholds after) :
    before.Upholds after := by
  intro rule found present
  rcases first rule found present with ⟨same, presentMiddle, sameBook, destroyed⟩
  rcases second rule same presentMiddle with ⟨last, presentAfter, sameBookToo, destroyedToo⟩
  exact ⟨last, presentAfter, sameBookToo.trans sameBook, destroyedToo ∘ destroyed⟩

theorem updateRule (store : RuleStore F) (rule : Nat) {change : Rule → Rule}
    (sameBook : ∀ found, (change found).book = found.book)
    (destroyed : ∀ found, found.destroyed = true → (change found).destroyed = true) :
    store.Upholds (store.updateRule rule change) := by
  intro other found present
  rw [rule?_updateRule]
  split
  · rename_i same
    subst same
    exact ⟨change found, by rw [present]; rfl, sameBook found, destroyed found⟩
  · exact ⟨found, present, rfl, id⟩

theorem switch (store : RuleStore F) (begins : Bool) (rule : Nat) (trigger : ComponentRef) :
    store.Upholds (store.switch begins rule (fun found => { found with enabled := begins })
      trigger).2.2 := by
  have told : (store.tell begins rule trigger).2.2.rules = store.rules :=
    (Grows.tellWithin begins rule _ trigger store).rules
  unfold RuleStore.switch
  split
  · rename_i failed
    rw [failed] at told
    exact of_rules told
  · rename_i heard
    rw [heard] at told
    exact (of_rules told).trans (updateRule _ rule (fun _ => rfl) fun _ destroyed => destroyed)

theorem setTrigger (store : RuleStore F) (rule : Nat) (trigger : ComponentRef) :
    store.Upholds (store.setTrigger rule trigger).2 := by
  unfold RuleStore.setTrigger
  split
  · exact refl store
  · exact updateRule store rule (fun _ => rfl) fun _ destroyed => destroyed

theorem enable (store : RuleStore F) (rule : Nat) : store.Upholds (store.enable rule).2.2 := by
  rw [enable_eq]
  split
  · exact refl store
  · split
    · exact refl store
    · exact switch store true rule _

theorem create (store : RuleStore F) (rule : Nat) : store.Upholds (store.create rule).2.2 := by
  unfold RuleStore.create
  split
  · exact refl store
  · split
    · exact refl store
    · exact enable store rule

theorem disable (store : RuleStore F) (rule : Nat) : store.Upholds (store.disable rule).2.2 := by
  rw [disable_eq]
  split
  · exact refl store
  · split
    · exact refl store
    · exact switch store false rule _

theorem destroy (store : RuleStore F) (rule : Nat) : store.Upholds (store.destroy rule).2.2 := by
  unfold RuleStore.destroy
  split
  · exact refl store
  · split
    · exact refl store
    · have stopped := disable store rule
      split
      · rename_i failed
        rw [failed] at stopped
        exact stopped
      · rename_i done
        rw [done] at stopped
        exact stopped.trans ((Retouches.retire _ rule).trans (.unregister _ _ rule)).upholds

theorem remove (store : RuleStore F) (index : Nat) (key : Value) :
    store.Upholds (store.remove index key).2.2 := by
  rcases remove_cases store index key with same | ⟨rule, removed⟩
  · rw [same]
    exact refl store
  · rw [removed]
    exact destroy store rule

theorem settleLifetime (store : RuleStore F) (rule : Nat) :
    store.Upholds (store.settleLifetime rule).2.2 := by
  unfold RuleStore.settleLifetime
  split
  · exact destroy store rule
  · rename_i lifetime _
    have settled := (Retouches.setLifetime store rule lifetime.settle.2).upholds
    dsimp only
    split
    · exact settled
    · exact settled.trans (destroy _ rule)

end Upholds

/-! ## Tidy books -/

theorem book_updateBook_other {other : Nat} (elsewhere : other ≠ index)
    (change : RuleBook → RuleBook) :
    (store.updateBook other change).book index = store.book index := by
  simp [book, updateBook, elsewhere]

/-- A rule that is taken off the tables is none of those that are left. -/
theorem get?_unregister (registry : store.IsRegistry index) (rule : Nat) (id : Int) (other : Nat) :
    ((store.unregister index rule).book index).rules.get? id = some other ↔
      (store.book index).rules.get? id = some other ∧ other ≠ rule := by
  rcases forgetName_eq { store.book index with rules := store.withoutRule index rule }
    (store.nameOf rule) rule with ⟨names, forgotten, -⟩
  have book : (store.unregister index rule).book index =
      { store.book index with rules := store.withoutRule index rule, rulesByName := names } := by
    rw [unregister_eq, book_updateBook registry.inside, ← forgotten]
    congr 1
    unfold withoutRule
    split <;> rfl
  rw [book]
  exact get?_withoutRule registry rule id other

/-- Every book is a registry, of rules that belong to it and are not destroyed; and what is destroyed
is not enabled. -/
structure IsTidy (store : RuleStore F) : Prop where
  registry : ∀ index < store.books.length, store.IsRegistry index
  housed : ∀ {rule found}, store.rule? rule = some found → found.book < store.books.length
  registered : ∀ {index id rule}, (store.book index).rules.get? id = some rule →
    ∃ found, store.rule? rule = some found ∧ found.book = index ∧ found.destroyed = false
  retired : ∀ {rule found}, store.rule? rule = some found → found.destroyed = true →
    found.enabled = false

namespace IsTidy

/-- A name stands for a rule of the book that is not destroyed. -/
theorem named (tidy : store.IsTidy) {name : String}
    (named : (store.book index).rulesByName.get? name = some rule) :
    ∃ found, store.rule? rule = some found ∧ found.book = index ∧ found.destroyed = false := by
  by_cases inside : index < store.books.length
  · exact tidy.registered (((tidy.registry index inside).names name rule).1 named).1
  · have absent : store.book index = emptyBook none := by
      simp [book, Nat.le_of_not_lt inside]
    rw [absent] at named
    cases named

/-- Components are added or changed, and keep their keys. -/
theorem of_rules (tidy : before.IsTidy) (rules : after.rules = before.rules)
    (books : after.books = before.books)
    (components : ∀ id found, before.component? id = some found →
      ∃ same, after.component? id = some same ∧ same.key = found.key) : after.IsTidy := by
  have same : ∀ rule, after.rule? rule = before.rule? rule := fun rule => by
    rw [rule?, rules]
    rfl
  have sameBook : ∀ index, after.book index = before.book index := fun index => by
    rw [book, books]
    rfl
  constructor
  · intro index inside
    rw [books] at inside
    apply (tidy.registry index inside).transfer (books ▸ inside) (sameBook index) _ components
    intro rule found present
    exact ⟨found, (same rule).trans present, rfl, rfl⟩
  · intro rule found present
    rw [books]
    exact tidy.housed ((same rule).symm.trans present)
  · intro index id rule registered
    rw [sameBook] at registered
    rw [same]
    exact tidy.registered registered
  · intro rule found present
    exact tidy.retired ((same rule).symm.trans present)

theorem grows (tidy : before.IsTidy) (grows : before.Grows after) : after.IsTidy := by
  apply tidy.of_rules grows.rules grows.books
  intro id found present
  rcases grows.component? present with ⟨grown, presentAfter, sameBare⟩
  refine ⟨grown, presentAfter, ?_⟩
  rw [← Component.key_bare, sameBare, Component.key_bare]

/-- A rule is changed, but not as to what its book says of it. -/
theorem updateRule (tidy : store.IsTidy) (rule : Nat) {change : Rule → Rule}
    (sameId : ∀ found, (change found).id = found.id)
    (sameName : ∀ found, (change found).name = found.name)
    (sameBook : ∀ found, (change found).book = found.book)
    (destroyed : ∀ found, (change found).destroyed = found.destroyed)
    (enabled : ∀ found, store.rule? rule = some found → found.destroyed = true →
      (change found).enabled = false) : (store.updateRule rule change).IsTidy := by
  have cases : ∀ {other found}, (store.updateRule rule change).rule? other = some found →
      (∃ old, other = rule ∧ store.rule? rule = some old ∧ found = change old) ∨
        store.rule? other = some found := by
    intro other found present
    rw [rule?_updateRule] at present
    split at present
    · rename_i same
      subst same
      rcases Option.map_eq_some_iff.1 present with ⟨old, presentBefore, rfl⟩
      exact .inl ⟨old, rfl, presentBefore, rfl⟩
    · exact .inr present
  constructor
  · intro index inside
    exact (tidy.registry index inside).updateRule rule sameId sameName
  · intro other found present
    rcases cases present with ⟨old, rfl, presentBefore, rfl⟩ | presentBefore
    · rw [sameBook]
      exact tidy.housed presentBefore
    · exact tidy.housed presentBefore
  · intro index id other registered
    rcases tidy.registered registered with ⟨found, present, here, lives⟩
    rw [rule?_updateRule]
    split
    · exact ⟨change found, by rw [present]; rfl, (sameBook found).trans here,
        (destroyed found).trans lives⟩
    · exact ⟨found, present, here, lives⟩
  · intro other found present isDestroyed
    rcases cases present with ⟨old, rfl, presentBefore, rfl⟩ | presentBefore
    · rw [destroyed] at isDestroyed
      exact enabled old presentBefore isDestroyed
    · exact tidy.retired presentBefore isDestroyed

/-- A book is changed and remains a registry, without further rules. -/
theorem updateBook (tidy : store.IsTidy) {change : RuleBook → RuleBook}
    (registry : index < store.books.length → (store.updateBook index change).IsRegistry index)
    (rules : ∀ {id rule}, (change (store.book index)).rules.get? id = some rule →
      (store.book index).rules.get? id = some rule) : (store.updateBook index change).IsTidy := by
  have length : (store.updateBook index change).books.length = store.books.length := by
    simp [RuleStore.updateBook]
  constructor
  · intro other inside
    rw [length] at inside
    by_cases here : index = other
    · subst here
      exact registry inside
    · exact (tidy.registry other inside).updateOther here change
  · intro rule found present
    rw [length]
    exact tidy.housed present
  · intro other id rule registered
    by_cases here : index = other
    · subst here
      by_cases inside : index < store.books.length
      · rw [book_updateBook inside] at registered
        exact tidy.registered (rules registered)
      · have same : (store.updateBook index change).book index = store.book index := by
          simp [book, RuleStore.updateBook, Nat.le_of_not_lt inside]
        rw [same] at registered
        exact tidy.registered registered
    · rw [book_updateBook_other here] at registered
      exact tidy.registered registered
  · exact tidy.retired

/-! ### Calls -/

theorem newId (tidy : store.IsTidy) (index : Nat) : (store.newId index).2.IsTidy := by
  exact tidy.updateBook (fun inside => (tidy.registry index inside).newId) id

theorem switch (tidy : store.IsTidy) (begins : Bool) {found : Rule}
    (present : store.rule? rule = some found) (free : begins = true → found.destroyed = false)
    (trigger : ComponentRef) :
    (store.switch begins rule (fun found => { found with enabled := begins }) trigger).2.2.IsTidy := by
  have grows := Grows.tellWithin begins rule (store.components.length + 1) trigger store
  have told := tidy.grows grows
  unfold RuleStore.switch RuleStore.tell
  split
  · rename_i failed
    rw [failed] at told
    exact told
  · rename_i heard
    rw [heard] at told grows
    refine told.updateRule rule (fun _ => rfl) (fun _ => rfl) (fun _ => rfl) (fun _ => rfl) ?_
    intro same presentToo destroyed
    rw [rule?, grows.rules] at presentToo
    cases present.symm.trans presentToo
    cases begins with
    | false =>
        rfl
    | true =>
        rw [free rfl] at destroyed
        cases destroyed

theorem enable (tidy : store.IsTidy) (rule : Nat) : (store.enable rule).2.2.IsTidy := by
  rw [enable_eq]
  split
  · exact tidy
  · rename_i found present
    split
    · exact tidy
    · rename_i free
      refine tidy.switch true present (fun _ => ?_) found.trigger
      simp_all

theorem create (tidy : store.IsTidy) (rule : Nat) : (store.create rule).2.2.IsTidy := by
  unfold RuleStore.create
  split
  · exact tidy
  · split
    · exact tidy
    · exact tidy.enable rule

theorem disable (tidy : store.IsTidy) (rule : Nat) : (store.disable rule).2.2.IsTidy := by
  rw [disable_eq]
  split
  · exact tidy
  · rename_i found present
    split
    · exact tidy
    · exact tidy.switch false present nofun found.trigger

/-- A rule that has ended listening is still there, and not enabled. -/
theorem rule?_of_disable {found : Rule} (present : store.rule? rule = some found)
    (done : (store.disable rule).1 = .ok ()) :
    (store.disable rule).2.2.rule? rule = some { found with enabled := false } := by
  rw [disable_eq, present] at done ⊢
  dsimp only at done ⊢
  split at done
  · rename_i sleeps
    rw [if_pos sleeps, present]
    cases found
    simp_all
  · rename_i listens
    rw [if_neg listens]
    have grows := Grows.tellWithin false rule (store.components.length + 1) found.trigger store
    unfold RuleStore.switch RuleStore.tell at done ⊢
    split at done
    · cases done
    · rename_i heard
      rw [heard] at grows
      have kept := (congrArg (fun rules : List Rule => rules[rule]?) grows.rules).trans present
      rw [rule?_updateRule, if_pos rfl]
      exact congrArg (Option.map _) kept

/-- A rule that is not enabled is destroyed and leaves its book. -/
theorem retire (tidy : store.IsTidy) {found : Rule} (present : store.rule? rule = some found)
    (home : found.book = index) (sleeps : found.enabled = false) :
    ((store.updateRule rule fun found => { found with destroyed := true }).unregister index
      rule).IsTidy := by
  generalize set : store.updateRule rule (fun found => { found with destroyed := true }) = gone
  have rules : ∀ other, other ≠ rule → gone.rule? other = store.rule? other := by
    intro other isOther
    rw [← set, rule?_updateRule, if_neg isOther.symm]
  have itself : gone.rule? rule = some { found with destroyed := true } := by
    rw [← set, rule?_updateRule, if_pos rfl, present]
    rfl
  have registry : ∀ index < store.books.length, gone.IsRegistry index := by
    intro index inside
    rw [← set]
    exact (tidy.registry index inside).updateRule rule (fun _ => rfl) fun _ => rfl
  have inside : index < store.books.length := home ▸ tidy.housed present
  have length : (gone.unregister index rule).books.length = store.books.length := by
    rw [← set]
    simp [RuleStore.unregister, RuleStore.updateBook, RuleStore.updateRule]
  have books : ∀ place, gone.book place = store.book place := by
    intro place
    rw [← set, book_updateRule]
  -- What is left in the book of the rule are the others; no other book held it.
  have left : ∀ {place id other},
      ((gone.unregister index rule).book place).rules.get? id = some other →
        (store.book place).rules.get? id = some other ∧ other ≠ rule := by
    intro place id other registered
    by_cases here : index = place
    · subst here
      rw [← books]
      exact (get?_unregister (registry index inside) rule id other).1 registered
    · rw [unregister_eq, book_updateBook_other here, books] at registered
      refine ⟨registered, ?_⟩
      rintro rfl
      rcases tidy.registered registered with ⟨same, presentToo, elsewhere, -⟩
      cases present.symm.trans presentToo
      exact here (home.symm.trans elsewhere)
  constructor
  · intro place insideToo
    rw [length] at insideToo
    by_cases here : index = place
    · subst here
      exact (registry index inside).unregister rule
    · exact (registry place insideToo).updateOther here _
  · intro other same presentToo
    rw [length]
    rw [unregister_eq, rule?_updateBook] at presentToo
    by_cases isRule : other = rule
    · subst isRule
      cases itself.symm.trans presentToo
      show found.book < _
      exact tidy.housed present
    · rw [rules other isRule] at presentToo
      exact tidy.housed presentToo
  · intro place id other registered
    rcases left registered with ⟨wasRegistered, isOther⟩
    rw [unregister_eq, rule?_updateBook, rules other isOther]
    exact tidy.registered wasRegistered
  · intro other same presentToo destroyed
    rw [unregister_eq, rule?_updateBook] at presentToo
    by_cases isRule : other = rule
    · subst isRule
      cases itself.symm.trans presentToo
      exact sleeps
    · rw [rules other isRule] at presentToo
      exact tidy.retired presentToo destroyed

theorem destroy (tidy : store.IsTidy) (rule : Nat) : (store.destroy rule).2.2.IsTidy := by
  unfold RuleStore.destroy
  split
  · exact tidy
  · rename_i found present
    split
    · exact tidy
    · have disabled := tidy.disable rule
      have stopped := rule?_of_disable present
      split
      · rename_i failed
        rw [failed] at disabled
        exact disabled
      · rename_i done
        rw [done] at disabled stopped
        exact disabled.retire (stopped rfl) rfl rfl

theorem remove (tidy : store.IsTidy) (index : Nat) (key : Value) :
    (store.remove index key).2.2.IsTidy := by
  rcases remove_cases store index key with same | ⟨rule, removed⟩
  · rw [same]
    exact tidy
  · rw [removed]
    exact tidy.destroy rule

/-- A rule is changed in nothing that concerns its book or listening. -/
theorem edit (tidy : store.IsTidy) (rule : Nat) {change : Rule → Rule}
    (sameId : ∀ found, (change found).id = found.id)
    (sameName : ∀ found, (change found).name = found.name)
    (sameBook : ∀ found, (change found).book = found.book)
    (destroyed : ∀ found, (change found).destroyed = found.destroyed)
    (enabled : ∀ found, (change found).enabled = found.enabled) :
    (store.updateRule rule change).IsTidy := by
  apply tidy.updateRule rule sameId sameName sameBook destroyed
  intro found present isDestroyed
  rw [enabled]
  exact tidy.retired present isDestroyed

theorem settleLifetime (tidy : store.IsTidy) (rule : Nat) :
    (store.settleLifetime rule).2.2.IsTidy := by
  unfold RuleStore.settleLifetime
  split
  · exact tidy.destroy rule
  · rename_i lifetime _
    have settled : (store.updateRule rule fun found =>
        { found with lifetime := some lifetime.settle.2 }).IsTidy :=
      tidy.edit rule (fun _ => rfl) (fun _ => rfl) (fun _ => rfl) (fun _ => rfl) fun _ => rfl
    dsimp only
    split
    · exact settled
    · exact settled.destroy rule

theorem addRule (tidy : store.IsTidy) {added : Rule} (housed : added.book < store.books.length)
    (free : added.destroyed = false) : (store.addRule added).2.IsTidy := by
  have others : ∀ {other found}, (store.addRule added).2.rule? other = some found →
      found = added ∨ store.rule? other = some found := by
    intro other found present
    rw [rule?_addRule] at present
    split at present
    · cases present
      exact .inl rfl
    · exact .inr present
  constructor
  · intro index inside
    exact (tidy.registry index inside).addRule added
  · intro other found present
    rcases others present with rfl | presentBefore
    · exact housed
    · exact tidy.housed presentBefore
  · intro index id other registered
    rcases tidy.registered registered with ⟨found, present, here, lives⟩
    have old : other ≠ store.rules.length := Nat.ne_of_lt (List.getElem?_eq_some_iff.1 present).1
    rw [rule?_addRule, if_neg old]
    exact ⟨found, present, here, lives⟩
  · intro other found present destroyed
    rcases others present with rfl | presentBefore
    · rw [free] at destroyed
      cases destroyed
    · exact tidy.retired presentBefore destroyed

/-- A rule is registered in its own book. -/
theorem register (tidy : store.IsTidy) {found : Rule} (present : store.rule? rule = some found)
    (home : found.book = index) (lives : found.destroyed = false) :
    (store.register index rule).2.IsTidy := by
  have inside : index < store.books.length := home ▸ tidy.housed present
  have own := (tidy.registry index inside).register present
  rw [register_eq] at own ⊢
  split
  · exact tidy
  · rename_i free
    rw [free] at own
    have same : ∀ {other found}, store.rule? other = some found →
        ((store.updateBook index (store.enrolled index rule)).updateRule rule
          fun found => { found with book := index }).rule? other = some found := by
      intro other another presentToo
      rw [rule?_updateRule, rule?_updateBook]
      split
      · rename_i isRule
        subst isRule
        cases present.symm.trans presentToo
        rw [present, ← home]
        rfl
      · exact presentToo
    have was : ∀ {other found}, ((store.updateBook index (store.enrolled index rule)).updateRule rule
        fun found => { found with book := index }).rule? other = some found →
          store.rule? other = some found := by
      intro other another presentToo
      cases presentBefore : store.rule? other with
      | none =>
          rw [rule?_updateRule, rule?_updateBook, presentBefore] at presentToo
          split at presentToo <;> cases presentToo
      | some found =>
          exact (same presentBefore).symm.trans presentToo
    have length : (store.updateBook index (store.enrolled index rule)).books.length =
        store.books.length := by
      simp [RuleStore.updateBook]
    constructor
    · intro place insideToo
      by_cases here : index = place
      · exact here ▸ own
      · exact ((tidy.registry place (length ▸ insideToo)).updateOther here _).updateRule rule
          (fun _ => rfl) fun _ => rfl
    · intro other another presentToo
      show another.book < (store.updateBook index (store.enrolled index rule)).books.length
      rw [length]
      exact tidy.housed (was presentToo)
    · intro place id other registered
      rw [book_updateRule] at registered
      by_cases here : index = place
      · subst here
        rw [book_updateBook inside] at registered
        simp only [enrolled] at registered
        rw [OrderedMap.get?_insert] at registered
        split at registered
        · cases registered
          exact ⟨found, same present, home, lives⟩
        · rcases tidy.registered registered with ⟨another, presentToo, facts⟩
          exact ⟨another, same presentToo, facts⟩
      · rw [book_updateBook_other here] at registered
        rcases tidy.registered registered with ⟨another, presentToo, facts⟩
        exact ⟨another, same presentToo, facts⟩
    · intro other another presentToo
      exact tidy.retired (was presentToo)

/-- A rule that is begun is registered in its book. -/
theorem build (tidy : store.IsTidy) (inside : index < store.books.length) :
    (store.build index).2.IsTidy := by
  have added : ((store.newId index).2.addRule (.new index (store.newId index).1)).2.IsTidy := by
    apply (tidy.newId index).addRule
    · simpa [RuleStore.newId, RuleStore.updateBook, Rule.new] using inside
    · rfl
  apply added.register
  · rw [rule?_addRule]
    exact if_pos rfl
  · rfl
  · rfl

/-- Names are written anew in one book and in a rule of it, and nothing else changes. -/
theorem retitle (tidy : before.IsTidy) {found : Rule} (present : before.rule? rule = some found)
    (home : found.book = index) (own : after.IsRegistry index)
    (components : after.components = before.components)
    (length : after.books.length = before.books.length)
    (tables : (after.book index).rules = (before.book index).rules)
    (elsewhere : ∀ place, index ≠ place → after.book place = before.book place)
    (name : Option String) (itself : after.rule? rule = some { found with name := name })
    (others : ∀ other, other ≠ rule → after.rule? other = before.rule? other) :
    after.IsTidy := by
  have same : ∀ {other another}, before.rule? other = some another →
      ∃ renamed, after.rule? other = some renamed ∧ renamed.book = another.book ∧
        renamed.destroyed = another.destroyed := by
    intro other another presentToo
    by_cases isRule : other = rule
    · subst isRule
      cases present.symm.trans presentToo
      exact ⟨_, itself, rfl, rfl⟩
    · exact ⟨another, (others other isRule).trans presentToo, rfl, rfl⟩
  have was : ∀ {other renamed}, after.rule? other = some renamed →
      ∃ another, before.rule? other = some another ∧ renamed.book = another.book ∧
        renamed.destroyed = another.destroyed ∧ renamed.enabled = another.enabled := by
    intro other renamed presentToo
    by_cases isRule : other = rule
    · subst isRule
      cases itself.symm.trans presentToo
      exact ⟨found, present, rfl, rfl, rfl⟩
    · exact ⟨renamed, (others other isRule).symm.trans presentToo, rfl, rfl, rfl⟩
  have kept : ∀ {place id other}, (after.book place).rules.get? id = some other →
      (before.book place).rules.get? id = some other := by
    intro place id other registered
    by_cases here : index = place
    · subst here
      exact tables ▸ registered
    · exact elsewhere place here ▸ registered
  constructor
  · intro place inside
    by_cases here : index = place
    · exact here ▸ own
    · refine (tidy.registry place (length ▸ inside)).transferOwn inside (elsewhere place here) ?_ ?_
      · intro id other another registered presentToo
        -- The rule that is renamed is in no book but its own.
        have isOther : other ≠ rule := by
          rintro rfl
          rcases tidy.registered registered with ⟨again, presentAgain, there, -⟩
          cases present.symm.trans presentAgain
          exact here (home.symm.trans there)
        exact ⟨another, (others other isOther).trans presentToo, rfl, rfl⟩
      · intro id component presentToo
        exact ⟨component, by rw [component?, components]; exact presentToo, rfl⟩
  · intro other renamed presentToo
    rcases was presentToo with ⟨another, presentBefore, sameBook, -⟩
    rw [length, sameBook]
    exact tidy.housed presentBefore
  · intro place id other registered
    rcases tidy.registered (kept registered) with ⟨another, presentBefore, here, lives⟩
    rcases same presentBefore with ⟨renamed, presentToo, sameBook, destroyed⟩
    exact ⟨renamed, presentToo, sameBook.trans here, destroyed.trans lives⟩
  · intro other renamed presentToo isDestroyed
    rcases was presentToo with ⟨another, presentBefore, -, destroyed, enabled⟩
    rw [enabled]
    exact tidy.retired presentBefore (destroyed.symm.trans isDestroyed)

/-- A rule is renamed in its own book. -/
theorem rename (tidy : store.IsTidy) {found : Rule} (present : store.rule? rule = some found)
    (home : found.book = index) (name : String) : (store.rename index rule name).2.IsTidy := by
  have inside : index < store.books.length := home ▸ tidy.housed present
  have own := (tidy.registry index inside).rename present name
  have length : (store.nameless index rule name).books.length = store.books.length := by
    simp [nameless, RuleStore.updateRule, RuleStore.updateBook]
  have tables : ((store.nameless index rule name).book index).rules = (store.book index).rules := by
    rcases forgetName_eq (store.book index) (store.nameOf rule) rule with ⟨names, forgotten, -⟩
    rw [nameless, book_updateRule, book_updateBook inside, forgotten]
  have elsewhere : ∀ place, index ≠ place →
      (store.nameless index rule name).book place = store.book place := by
    intro place there
    rw [nameless, book_updateRule, book_updateBook_other there]
  have itself : (store.nameless index rule name).rule? rule =
      some { found with name := some name } := by
    rw [nameless, rule?_updateRule, if_pos rfl, rule?_updateBook, present]
    rfl
  have others : ∀ other, other ≠ rule →
      (store.nameless index rule name).rule? other = store.rule? other := by
    intro other isOther
    rw [nameless, rule?_updateRule, if_neg isOther.symm, rule?_updateBook]
  rw [rename_eq] at own ⊢
  split
  · exact tidy
  · rename_i free
    rw [free] at own
    dsimp only at own ⊢
    split
    · rename_i registered
      rw [if_pos registered] at own
      apply tidy.retitle present home own rfl _ _ _ (some name) itself others
      · simpa [RuleStore.updateBook] using length
      · rw [book_updateBook (length.symm ▸ inside)]
        exact tables
      · intro place there
        rw [book_updateBook_other there]
        exact elsewhere place there
    · rename_i absent
      rw [if_neg absent] at own
      exact tidy.retitle present home own rfl length tables elsewhere (some name) itself others

theorem persist (tidy : store.IsTidy) {found : Rule} (present : store.rule? rule = some found)
    (name : Option String) : (store.persist rule name).2.IsTidy := by
  have kept : ∀ {store : RuleStore F}, store.IsTidy → (store.updateRule rule fun found =>
      { found with persistent := true, lifetime := some .forever }).IsTidy := fun tidy =>
    tidy.edit rule (fun _ => rfl) (fun _ => rfl) (fun _ => rfl) (fun _ => rfl) fun _ => rfl
  simp only [RuleStore.persist, present, Option.map_some, Option.getD_some]
  cases name with
  | none =>
      exact kept tidy
  | some name =>
      have renamed := tidy.rename present rfl name
      rw [Option.elim_some]
      split
      · rename_i failed
        rw [failed] at renamed
        exact renamed
      · rename_i done
        rw [done] at renamed
        exact kept renamed

theorem setTrigger (tidy : store.IsTidy) (rule : Nat) (trigger : ComponentRef) :
    (store.setTrigger rule trigger).2.IsTidy := by
  unfold RuleStore.setTrigger
  split
  · exact tidy
  · exact tidy.edit rule (fun _ => rfl) (fun _ => rfl) (fun _ => rfl) (fun _ => rfl) fun _ => rfl

theorem addCondition (tidy : store.IsTidy) (rule : Nat) (condition : ComponentRef) :
    (store.addCondition rule condition).2.IsTidy := by
  unfold RuleStore.addCondition
  split
  · exact tidy
  · exact tidy.edit rule (fun _ => rfl) (fun _ => rfl) (fun _ => rfl) (fun _ => rfl) fun _ => rfl

theorem addAction (tidy : store.IsTidy) (rule : Nat) (action : ComponentRef) :
    (store.addAction rule action).2.IsTidy := by
  unfold RuleStore.addAction
  split
  · exact tidy
  · exact tidy.edit rule (fun _ => rfl) (fun _ => rfl) (fun _ => rfl) (fun _ => rfl) fun _ => rfl

theorem addComponent (tidy : store.IsTidy) (component : Component F) :
    (store.addComponent component).2.IsTidy := by
  have kept : ∀ id found, store.component? id = some found →
      ∃ same, (store.addComponent component).2.component? id = some same ∧ same.key = found.key :=
    fun id found present => ⟨found, component?_addComponent_of_old present component, rfl⟩
  exact tidy.of_rules rfl rfl kept

theorem setComponent (tidy : store.IsTidy) {id : Nat} {found changed : Component F}
    (present : store.component? id = some found) (sameKey : changed.key = found.key) :
    (store.setComponent id changed).IsTidy := by
  have inside : id < store.components.length := (List.getElem?_eq_some_iff.1 present).1
  have kept : ∀ other another, store.component? other = some another →
      ∃ same, (store.setComponent id changed).component? other = some same ∧
        same.key = another.key := by
    intro other another presentToo
    simp only [component?, RuleStore.setComponent, List.getElem?_set]
    by_cases here : id = other
    · subst here
      cases present.symm.trans presentToo
      exact ⟨changed, by simp [inside], sameKey⟩
    · exact ⟨another, by rw [if_neg here]; exact presentToo, rfl⟩
  exact tidy.of_rules rfl rfl kept

theorem openBook (tidy : store.IsTidy) (place : Option DataPlace) :
    (store.openBook place).2.IsTidy := by
  have length : (store.openBook place).2.books.length = store.books.length + 1 := by
    simp [RuleStore.openBook]
  have old : ∀ index < store.books.length,
      (store.openBook place).2.book index = store.book index := by
    intro index inside
    simp [book, RuleStore.openBook, List.getElem?_append_left inside]
  constructor
  · intro index inside
    rw [length] at inside
    rcases Nat.lt_succ_iff_lt_or_eq.1 inside with isOld | rfl
    · exact (tidy.registry index isOld).openBook place
    · exact isRegistry_openBook store place
  · intro rule found present
    rw [length]
    exact Nat.lt_succ_of_lt (tidy.housed present)
  · intro index id rule registered
    by_cases isOld : index < store.books.length
    · rw [old index isOld] at registered
      exact tidy.registered registered
    · have empty : ((store.openBook place).2.book index).rules.get? id = none := by
        rcases Nat.lt_or_eq_of_le (Nat.le_of_not_lt isOld) with beyond | rfl
        · simp only [book, RuleStore.openBook, List.getD_eq_getElem?_getD]
          rw [List.getElem?_eq_none (by rw [List.length_append]; exact beyond)]
          rfl
        · simp only [book, RuleStore.openBook, List.getD_eq_getElem?_getD,
            List.getElem?_concat_length]
          rfl
      cases empty.symm.trans registered
  · exact tidy.retired

end IsTidy

end Steward.RuleStore
