import Steward.Proofs.Rule.Registry
import Steward.Rule.Standard

/-!
# The life of a book

A book is opened without rules, as a registry, and stays one whatever happens
around it and in it: components are made and changed, rules are built, edited,
named, finished, destroyed and rebuilt from documents, base components are
registered, other books are opened.
-/

namespace Steward.RuleStore

variable {F : Type} {store : RuleStore F} {index rule : Nat}

namespace IsRegistry

theorem addComponent (registry : store.IsRegistry index) (component : Component F) :
    (store.addComponent component).2.IsRegistry index := by
  refine registry.transfer registry.inside rfl
    (fun _ found present => ⟨found, present, rfl, rfl⟩) ?_
  intro id found present
  refine ⟨found, ?_, rfl⟩
  have old : id < store.components.length := (List.getElem?_eq_some_iff.1 present).1
  rw [component?, RuleStore.addComponent, List.getElem?_append_left old]
  exact present

theorem setComponent (registry : store.IsRegistry index) {id : Nat} {found changed : Component F}
    (present : store.component? id = some found) (sameKey : changed.key = found.key) :
    (store.setComponent id changed).IsRegistry index := by
  refine registry.transfer registry.inside rfl
    (fun _ found present => ⟨found, present, rfl, rfl⟩) ?_
  intro other another presentToo
  simp only [component?, RuleStore.setComponent, List.getElem?_set]
  by_cases here : id = other
  · subst here
    have same : found = another := Option.some.inj (present.symm.trans presentToo)
    have inside : id < store.components.length := (List.getElem?_eq_some_iff.1 present).1
    exact ⟨changed, by simp [inside], same ▸ sameKey⟩
  · exact ⟨another, by rw [if_neg here]; exact presentToo, rfl⟩

theorem updateOther (registry : store.IsRegistry index) {other : Nat} (elsewhere : other ≠ index)
    (change : RuleBook → RuleBook) : (store.updateBook other change).IsRegistry index := by
  refine registry.transfer ?_ ?_ (fun _ found present => ⟨found, present, rfl, rfl⟩)
    fun _ found present => ⟨found, present, rfl⟩
  · simpa [RuleStore.updateBook] using registry.inside
  · simp [book, RuleStore.updateBook, elsewhere]

theorem addBase (registry : store.IsRegistry index) {id : Nat} {found : Component F}
    (present : store.component? id = some found) :
    (store.updateBook index fun book =>
      { book with base := book.base.insert found.key id }).IsRegistry index := by
  have book := book_updateBook registry.inside fun book =>
    { book with base := book.base.insert found.key id }
  refine ⟨?_, ?_, ?_, ?_, ?_, ?_⟩
  · simpa [RuleStore.updateBook] using registry.inside
  · rw [book]
    exact registry.distinct
  · rw [book]
    exact registry.own
  · rw [book]
    exact registry.names
  · rw [book]
    exact registry.nextId
  · intro key other known
    rw [book] at known
    dsimp only at known
    rw [OrderedMap.get?_insert] at known
    split at known
    · rename_i here
      cases known
      exact ⟨found, present, here⟩
    · exact registry.base known

theorem enable (registry : store.IsRegistry index) (rule : Nat) :
    (store.enable rule).2.2.IsRegistry index := by
  unfold RuleStore.enable
  split
  · exact registry
  · rename_i found _
    split
    · exact registry
    · have told : (store.tell true rule found.trigger).2.2.IsRegistry index :=
        registry.grows (Grows.tellWithin true rule _ _ store)
      split
      · rename_i failed
        rw [failed] at told
        exact told
      · rename_i listening
        rw [listening] at told
        exact told.updateRule rule (fun _ => rfl) fun _ => rfl

theorem disable (registry : store.IsRegistry index) (rule : Nat) :
    (store.disable rule).2.2.IsRegistry index := by
  unfold RuleStore.disable
  split
  · exact registry
  · rename_i found _
    split
    · exact registry
    · have told : (store.tell false rule found.trigger).2.2.IsRegistry index :=
        registry.grows (Grows.tellWithin false rule _ _ store)
      split
      · rename_i failed
        rw [failed] at told
        exact told
      · rename_i silent
        rw [silent] at told
        exact told.updateRule rule (fun _ => rfl) fun _ => rfl

theorem create (registry : store.IsRegistry index) (rule : Nat) :
    (store.create rule).2.2.IsRegistry index := by
  unfold RuleStore.create
  split
  · exact registry
  · split
    · exact registry
    · exact registry.enable rule

theorem destroy (registry : store.IsRegistry index) (rule : Nat) :
    (store.destroy rule).2.2.IsRegistry index := by
  unfold RuleStore.destroy
  split
  · exact registry
  · rename_i found _
    split
    · exact registry
    · have disabled := registry.disable rule
      split
      · rename_i failed
        rw [failed] at disabled
        exact disabled
      · rename_i announced silent stopped
        rw [stopped] at disabled
        have gone : (silent.updateRule rule fun rule =>
            { rule with destroyed := true }).IsRegistry index :=
          disabled.updateRule rule (fun _ => rfl) fun _ => rfl
        by_cases here : found.book = index
        · rw [here]
          exact gone.unregister rule
        · exact gone.updateOther here _

theorem persist (registry : store.IsRegistry index) {found : Rule}
    (present : store.rule? rule = some found) (here : found.book = index)
    (name : Option String) : (store.persist rule name).2.IsRegistry index := by
  subst here
  simp only [RuleStore.persist, present, Option.map_some, Option.getD_some]
  cases name with
  | none =>
      exact registry.updateRule rule (fun _ => rfl) fun _ => rfl
  | some name =>
      have renamed := registry.rename present name
      rw [Option.elim_some]
      split
      · rename_i failed
        rw [failed] at renamed
        exact renamed
      · rename_i done
        rw [done] at renamed
        exact renamed.updateRule rule (fun _ => rfl) fun _ => rfl

theorem adopt [Validator] (registry : store.IsRegistry index) (data : Value) :
    (store.adopt index data).2.IsRegistry index := by
  unfold RuleStore.adopt
  rcases loadRule_cases store index data with ⟨_, after, failed, grows⟩ |
    ⟨middle, rule, loaded, grows⟩
  · rw [failed]
    exact registry.grows grows
  · rw [loaded]
    have added := (registry.grows grows).addRule rule
    dsimp only
    split
    · exact added
    · have present : (middle.addRule rule).2.rule? middle.rules.length = some rule := by
        rw [rule?_addRule, if_pos rfl]
      have registered := added.register present
      split
      · rename_i failed
        rw [failed] at registered
        exact registered
      · rename_i done
        rw [done] at registered
        exact registered

theorem openBook (registry : store.IsRegistry index) (place : Option DataPlace) :
    (store.openBook place).2.IsRegistry index := by
  have old := registry.inside
  refine registry.transfer ?_ ?_ (fun _ found present => ⟨found, present, rfl, rfl⟩) ?_
  · simp only [RuleStore.openBook, List.length_append]
    omega
  · simp [book, RuleStore.openBook, List.getElem?_append_left old]
  · intro id found present
    refine ⟨found, ?_, rfl⟩
    have inside : id < store.components.length := (List.getElem?_eq_some_iff.1 present).1
    rw [component?, RuleStore.openBook, List.getElem?_append_left inside]
    exact present

end IsRegistry

/-- A book that was just opened is a registry without rules. -/
theorem isRegistry_openBook (store : RuleStore F) (place : Option DataPlace) :
    (store.openBook place).2.IsRegistry store.books.length := by
  have book : ((store.openBook place).2.book store.books.length).rules = .empty ∧
      ((store.openBook place).2.book store.books.length).rulesByName = .empty ∧
      ((store.openBook place).2.book store.books.length).base =
        .ofList [("trigger::list", store.components.length),
          ("condition::orList", store.components.length + 1),
          ("condition::inverted", store.components.length + 2)] := by
    simp only [RuleStore.book, openBook, emptyBook, List.getD_eq_getElem?_getD,
      List.getElem?_concat_length, Option.getD_some, true_and]
    rfl
  rcases book with ⟨rules, names, base⟩
  refine ⟨by simp [openBook], ?_, ?_, ?_, ?_, ?_⟩
  · rw [rules]
    exact List.nodup_nil
  · intro id rule registered
    rw [rules] at registered
    cases registered
  · intro name rule
    rw [rules, names]
    simp
  · intro id rule registered
    rw [rules] at registered
    cases registered
  · intro key id known
    rw [base] at known
    have isEntry := OrderedMap.mem_of_get? known
    rw [OrderedMap.entries_ofList (by simp)] at isEntry
    simp only [List.mem_cons, Prod.mk.injEq, List.not_mem_nil, or_false] at isEntry
    rcases isEntry with ⟨rfl, rfl⟩ | ⟨rfl, rfl⟩ | ⟨rfl, rfl⟩
    · exact ⟨.triggerList [], by simp [component?, openBook], rfl⟩
    · exact ⟨.anyOf [], by simp [component?, openBook], rfl⟩
    · exact ⟨.inverted none, by simp [component?, openBook], rfl⟩

/-! ## Every table that is reached -/

/-- The tables that are reached from the opening of a book. -/
inductive Reaches [Validator] (index : Nat) : RuleStore F → Prop where
  | opened (store : RuleStore F) (place : Option DataPlace) (next : store.books.length = index) :
      Reaches index (store.openBook place).2
  | openBook {store : RuleStore F} (reached : Reaches index store) (place : Option DataPlace) :
      Reaches index (store.openBook place).2
  | addComponent {store : RuleStore F} (reached : Reaches index store) (component : Component F) :
      Reaches index (store.addComponent component).2
  /-- A list of triggers or conditions is extended. -/
  | setComponent {store : RuleStore F} (reached : Reaches index store) {id : Nat}
      {found changed : Component F} (present : store.component? id = some found)
      (sameKey : changed.key = found.key) : Reaches index (store.setComponent id changed)
  | addBase {store : RuleStore F} (reached : Reaches index store) {id : Nat}
      {found : Component F} (present : store.component? id = some found) :
      Reaches index (store.updateBook index fun book =>
        { book with base := book.base.insert found.key id })
  /-- The triggers of a book are connected and attached. -/
  | attach {store : RuleStore F} (reached : Reaches index store) (connected : Bool)
      (attached : OrderedMap String (List Nat)) :
      Reaches index (store.updateBook index fun book =>
        { book with connected := connected, attached := attached })
  | updateOther {store : RuleStore F} (reached : Reaches index store) {other : Nat}
      (elsewhere : other ≠ index) (change : RuleBook → RuleBook) :
      Reaches index (store.updateBook other change)
  | build {store : RuleStore F} (reached : Reaches index store) :
      Reaches index (store.build index).2
  /-- A trigger, a condition or an action is given to a rule, or a lifetime. -/
  | edit {store : RuleStore F} (reached : Reaches index store) (rule : Nat)
      {change : Rule → Rule} (sameId : ∀ found, (change found).id = found.id)
      (sameName : ∀ found, (change found).name = found.name) :
      Reaches index (store.updateRule rule change)
  | rename {store : RuleStore F} (reached : Reaches index store) {rule : Nat} {found : Rule}
      (present : store.rule? rule = some found) (name : String) :
      Reaches index (store.rename index rule name).2
  | persist {store : RuleStore F} (reached : Reaches index store) {rule : Nat} {found : Rule}
      (present : store.rule? rule = some found) (here : found.book = index)
      (name : Option String) : Reaches index (store.persist rule name).2
  | register {store : RuleStore F} (reached : Reaches index store) {rule : Nat} {found : Rule}
      (present : store.rule? rule = some found) : Reaches index (store.register index rule).2
  | unregister {store : RuleStore F} (reached : Reaches index store) (rule : Nat) :
      Reaches index (store.unregister index rule)
  | create {store : RuleStore F} (reached : Reaches index store) (rule : Nat) :
      Reaches index (store.create rule).2.2
  | disable {store : RuleStore F} (reached : Reaches index store) (rule : Nat) :
      Reaches index (store.disable rule).2.2
  | destroy {store : RuleStore F} (reached : Reaches index store) (rule : Nat) :
      Reaches index (store.destroy rule).2.2
  | adopt {store : RuleStore F} (reached : Reaches index store) (data : Value) :
      Reaches index (store.adopt index data).2

/-- A book is a registry in every table that is reached. -/
theorem Reaches.isRegistry [Validator] (reached : Reaches index store) : store.IsRegistry index := by
  induction reached with
  | opened store place next =>
      exact next ▸ isRegistry_openBook store place
  | openBook _ place ih =>
      exact ih.openBook place
  | addComponent _ component ih =>
      exact ih.addComponent component
  | setComponent _ present sameKey ih =>
      exact ih.setComponent present sameKey
  | addBase _ present ih =>
      exact ih.addBase present
  | attach _ connected attached ih =>
      exact ih.updateBook (fun _ => rfl) (fun _ => rfl) (fun _ => rfl) fun _ => Int.le_refl _
  | updateOther _ elsewhere change ih =>
      exact ih.updateOther elsewhere change
  | build _ ih =>
      exact ih.build
  | edit _ rule sameId sameName ih =>
      exact ih.updateRule rule sameId sameName
  | rename _ present name ih =>
      exact ih.rename present name
  | persist _ present here name ih =>
      exact ih.persist present here name
  | register _ present ih =>
      exact ih.register present
  | unregister _ rule ih =>
      exact ih.unregister rule
  | create _ rule ih =>
      exact ih.create rule
  | disable _ rule ih =>
      exact ih.disable rule
  | destroy _ rule ih =>
      exact ih.destroy rule
  | adopt _ data ih =>
      exact ih.adopt data

end Steward.RuleStore
