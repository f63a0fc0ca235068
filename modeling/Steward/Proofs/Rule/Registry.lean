import Steward.Proofs.OrderedMap
import Steward.Proofs.Rule.Frame

/-!
# Books as registries

A book keeps its rules under their own ids, and an index of the names of exactly
these rules.  The next id is above all of them, and each base component stands
under its own key.  Registering a rule, renaming it and taking it off keep a book
so; in particular no two rules of a book share a name.
-/

namespace Steward.RuleStore

variable {F : Type}

/-- What holds of a book at all times. -/
structure IsRegistry (store : RuleStore F) (index : Nat) : Prop where
  inside : index < store.books.length
  distinct : (store.book index).rules.keys.Nodup
  own : ∀ {id rule}, (store.book index).rules.get? id = some rule →
    ∃ found, store.rule? rule = some found ∧ found.id = id
  names : ∀ name rule, (store.book index).rulesByName.get? name = some rule ↔
    (store.book index).rules.get? (store.idOf rule) = some rule ∧ store.nameOf rule = some name
  nextId : ∀ {id rule}, (store.book index).rules.get? id = some rule →
    id < (store.book index).nextId
  base : ∀ {key id}, (store.book index).base.get? key = some id →
    ∃ found, store.component? id = some found ∧ found.key = key

/-! ## What is known of a rule -/

variable {store before after : RuleStore F} {index rule : Nat}

theorem idOf_eq {found : Rule} (present : store.rule? rule = some found) :
    store.idOf rule = found.id := by
  simp [idOf, present]

theorem nameOf_eq {found : Rule} (present : store.rule? rule = some found) :
    store.nameOf rule = found.name := by
  simp [nameOf, present]

theorem rule?_updateRule (store : RuleStore F) (rule other : Nat) (change : Rule → Rule) :
    (store.updateRule rule change).rule? other =
      if rule = other then (store.rule? other).map change else store.rule? other := by
  simp only [rule?, updateRule, List.getElem?_modify]
  split
  · rfl
  · simp

theorem rule?_addRule (store : RuleStore F) (added : Rule) (other : Nat) :
    (store.addRule added).2.rule? other =
      if other = store.rules.length then some added else store.rule? other := by
  simp only [rule?, addRule, List.getElem?_append]
  by_cases old : other < store.rules.length
  · simp [old, Nat.ne_of_lt old]
  · by_cases new : other = store.rules.length
    · simp [new]
    · have beyond : store.rules.length < other := by omega
      simp [old, new, Nat.sub_ne_zero_of_lt beyond]

@[simp]
theorem book_updateRule (store : RuleStore F) (rule : Nat) (change : Rule → Rule) (index : Nat) :
    (store.updateRule rule change).book index = store.book index := by
  rfl

@[simp]
theorem rule?_updateBook (store : RuleStore F) (index : Nat) (change : RuleBook → RuleBook)
    (rule : Nat) : (store.updateBook index change).rule? rule = store.rule? rule := by
  rfl

theorem book_updateBook {store : RuleStore F} {index : Nat}
    (inside : index < store.books.length) (change : RuleBook → RuleBook) :
    (store.updateBook index change).book index = change (store.book index) := by
  simp [book, updateBook, inside]

namespace IsRegistry

theorem idOf_of_registered (registry : store.IsRegistry index) {id : Int}
    (registered : (store.book index).rules.get? id = some rule) : store.idOf rule = id := by
  rcases registry.own registered with ⟨found, present, sameId⟩
  rw [idOf_eq present, sameId]

/-- Two rules of a book that have the same name are the same. -/
theorem eq_of_name (registry : store.IsRegistry index) {other : Nat} {id otherId : Int}
    {name : String} (registered : (store.book index).rules.get? id = some rule)
    (otherRegistered : (store.book index).rules.get? otherId = some other)
    (named : store.nameOf rule = some name) (otherNamed : store.nameOf other = some name) :
    rule = other := by
  have first := (registry.names name rule).2
    ⟨(registry.idOf_of_registered registered).symm ▸ registered, named⟩
  have second := (registry.names name other).2
    ⟨(registry.idOf_of_registered otherRegistered).symm ▸ otherRegistered, otherNamed⟩
  exact Option.some.inj (first.symm.trans second)

/-- A book stays a registry where it stays the same itself, and the rules registered in it keep
their ids and names and the components their keys. -/
theorem transferOwn (registry : before.IsRegistry index)
    (inside : index < after.books.length) (book : after.book index = before.book index)
    (rules : ∀ id rule found, (before.book index).rules.get? id = some rule →
      before.rule? rule = some found →
      ∃ same, after.rule? rule = some same ∧ same.id = found.id ∧ same.name = found.name)
    (components : ∀ id found, before.component? id = some found →
      ∃ same, after.component? id = some same ∧ same.key = found.key) :
    after.IsRegistry index where
  inside := inside
  distinct := book ▸ registry.distinct
  own := by
    intro id rule registered
    rw [book] at registered
    rcases registry.own registered with ⟨found, present, sameId⟩
    rcases rules id rule found registered present with ⟨same, stands, keepsId, -⟩
    exact ⟨same, stands, keepsId.trans sameId⟩
  names := by
    intro name rule
    rw [book, registry.names]
    have kept : ∀ id, (before.book index).rules.get? id = some rule →
        after.idOf rule = before.idOf rule ∧ after.nameOf rule = before.nameOf rule := by
      intro id registered
      rcases registry.own registered with ⟨found, present, -⟩
      rcases rules id rule found registered present with ⟨same, stands, keepsId, keepsName⟩
      rw [idOf_eq stands, idOf_eq present, nameOf_eq stands, nameOf_eq present]
      exact ⟨keepsId, keepsName⟩
    constructor
    · rintro ⟨registered, named⟩
      rcases kept _ registered with ⟨sameId, sameName⟩
      rw [sameId, sameName]
      exact ⟨registered, named⟩
    · rintro ⟨registered, named⟩
      rcases kept _ registered with ⟨sameId, sameName⟩
      rw [sameId] at registered
      rw [sameName] at named
      exact ⟨registered, named⟩
  nextId := by
    intro id rule registered
    rw [book] at registered ⊢
    exact registry.nextId registered
  base := by
    intro key id known
    rw [book] at known
    rcases registry.base known with ⟨found, present, sameKey⟩
    rcases components id found present with ⟨same, stands, keepsKey⟩
    exact ⟨same, stands, keepsKey.trans sameKey⟩

/-- A book stays a registry where it stays the same itself, and its rules keep their
ids and names and the components their keys. -/
theorem transfer (registry : before.IsRegistry index)
    (inside : index < after.books.length) (book : after.book index = before.book index)
    (rules : ∀ rule found, before.rule? rule = some found →
      ∃ same, after.rule? rule = some same ∧ same.id = found.id ∧ same.name = found.name)
    (components : ∀ id found, before.component? id = some found →
      ∃ same, after.component? id = some same ∧ same.key = found.key) :
    after.IsRegistry index := by
  exact registry.transferOwn inside book (fun _ rule found _ => rules rule found) components

theorem grows (registry : before.IsRegistry index) (grows : before.Grows after) :
    after.IsRegistry index := by
  refine registry.transfer ?_ ?_ ?_ ?_
  · rw [grows.books]
    exact registry.inside
  · rw [book, book, grows.books]
  · intro rule found present
    refine ⟨found, ?_, rfl, rfl⟩
    rw [rule?, grows.rules]
    exact present
  · intro id found present
    rcases grows.component? present with ⟨grown, stands, same⟩
    exact ⟨grown, stands, by rw [← Component.key_bare, same, Component.key_bare]⟩

theorem addRule (registry : store.IsRegistry index) (added : Rule) :
    (store.addRule added).2.IsRegistry index := by
  refine registry.transfer registry.inside rfl ?_ fun _ found present => ⟨found, present, rfl⟩
  intro rule found present
  refine ⟨found, ?_, rfl, rfl⟩
  have old : rule < store.rules.length := (List.getElem?_eq_some_iff.1 present).1
  rw [rule?_addRule, if_neg (Nat.ne_of_lt old)]
  exact present

/-- A change of a rule that leaves its id and its name is of no concern to a book. -/
theorem updateRule (registry : store.IsRegistry index) (rule : Nat) {change : Rule → Rule}
    (sameId : ∀ found, (change found).id = found.id)
    (sameName : ∀ found, (change found).name = found.name) :
    (store.updateRule rule change).IsRegistry index := by
  refine registry.transfer registry.inside rfl ?_ fun _ found present => ⟨found, present, rfl⟩
  intro other found present
  rw [rule?_updateRule, present]
  split
  · exact ⟨change found, rfl, sameId found, sameName found⟩
  · exact ⟨found, rfl, rfl, rfl⟩

end IsRegistry

/-! ## Registering -/

theorem checkName_eq_ok_iff {name : String} :
    store.checkName index rule name = .ok () ↔
      ∀ existing, (store.book index).rulesByName.get? name = some existing →
        store.idOf existing = store.idOf rule := by
  unfold checkName
  split
  · rename_i existing stands
    simp [stands]
  · rename_i free
    simp [free]

/-- The name that a rule gives up when another one is registered in its place. -/
def replacedName (store : RuleStore F) (index rule : Nat) : Option String :=
  match (store.book index).rules.get? (store.idOf rule) with
  | some old => if old = rule then none else store.nameOf old
  | none => none

/-- The book with a rule registered in it. -/
def enrolled (store : RuleStore F) (index rule : Nat) (book : RuleBook) : RuleBook :=
  let byName := match store.replacedName index rule with
    | some name => book.rulesByName.erase name
    | none => book.rulesByName
  { book with
    rules := book.rules.insert (store.idOf rule) rule
    rulesByName := match store.nameOf rule with
      | some name => byName.insert name rule
      | none => byName
    nextId := max book.nextId (store.idOf rule + 1) }

theorem register_eq (store : RuleStore F) (index rule : Nat) :
    store.register index rule =
      match (store.nameOf rule).elim (.ok ()) (store.checkName index rule) with
      | .error failure => (.error failure, store)
      | .ok _ => (.ok (), (store.updateBook index (store.enrolled index rule)).updateRule rule
          fun found => { found with book := index }) := by
  rfl

theorem get?_eraseReplaced (registry : store.IsRegistry index) (rule : Nat) (name : String)
    (other : Nat) :
    (match store.replacedName index rule with
      | some name => (store.book index).rulesByName.erase name
      | none => (store.book index).rulesByName).get? name = some other ↔
      (store.book index).rulesByName.get? name = some other ∧
        ¬ (store.idOf other = store.idOf rule ∧ other ≠ rule) := by
  have isOld : (store.book index).rulesByName.get? name = some other →
      (store.replacedName index rule = some name ↔
        store.idOf other = store.idOf rule ∧ other ≠ rule) := by
    intro named
    rcases (registry.names name other).1 named with ⟨registered, hasName⟩
    constructor
    · intro replaced
      unfold replacedName at replaced
      split at replaced
      · rename_i old stands
        split at replaced
        · cases replaced
        · rename_i another
          have same := registry.eq_of_name stands registered replaced hasName
          subst same
          exact ⟨registry.idOf_of_registered stands, another⟩
      · cases replaced
    · rintro ⟨sameId, another⟩
      unfold replacedName
      rw [← sameId, registered]
      simp only [another, if_false, hasName]
  cases replaced : store.replacedName index rule with
  | none =>
      rw [replaced] at isOld
      constructor
      · intro named
        exact ⟨named, fun gone => nomatch (isOld named).2 gone⟩
      · exact And.left
  | some gone =>
      rw [replaced] at isOld
      dsimp only
      rw [OrderedMap.get?_erase]
      by_cases same : gone = name
      · subst same
        rw [if_pos rfl]
        constructor
        · intro absent
          cases absent
        · rintro ⟨named, stays⟩
          exact (stays ((isOld named).1 rfl)).elim
      · rw [if_neg same]
        constructor
        · intro named
          exact ⟨named, fun gone => same (Option.some.inj ((isOld named).2 gone))⟩
        · exact And.left

theorem IsRegistry.enroll (registry : store.IsRegistry index) {found : Rule}
    (present : store.rule? rule = some found)
    (free : ∀ name, store.nameOf rule = some name → store.checkName index rule name = .ok ()) :
    (store.updateBook index (store.enrolled index rule)).IsRegistry index := by
  have sameId := idOf_eq present
  have book := book_updateBook registry.inside (store.enrolled index rule)
  have lookup : ∀ id, (store.enrolled index rule (store.book index)).rules.get? id =
      if store.idOf rule = id then some rule else (store.book index).rules.get? id :=
    fun id => OrderedMap.get?_insert (store.book index).rules (store.idOf rule) id rule
  refine ⟨?_, ?_, ?_, ?_, ?_, ?_⟩
  · simpa [updateBook] using registry.inside
  · rw [book]
    exact OrderedMap.nodup_keys_insert registry.distinct _ _
  · intro id other registered
    rw [book, lookup] at registered
    split at registered
    · rename_i here
      cases registered
      exact ⟨found, present, sameId ▸ here⟩
    · exact registry.own registered
  · intro name other
    have registeredNow : (store.enrolled index rule (store.book index)).rules.get?
        (store.idOf other) = some other ↔ other = rule ∨
          store.idOf other ≠ store.idOf rule ∧
            (store.book index).rules.get? (store.idOf other) = some other := by
      rw [lookup]
      by_cases here : store.idOf rule = store.idOf other
      · simp [here, eq_comm]
      · have another : other ≠ rule := fun same => here (same ▸ rfl)
        simp [here, Ne.symm here, another]
    have erased := get?_eraseReplaced registry rule name other
    have known := registry.names name other
    rw [book]
    show _ ↔ (store.enrolled index rule (store.book index)).rules.get? (store.idOf other) =
      some other ∧ store.nameOf other = some name
    rw [registeredNow]
    cases named : store.nameOf rule with
    | none =>
        have unnamed : other = rule → store.nameOf other ≠ some name := by
          rintro rfl
          simp [named]
        simp only [enrolled, named]
        rw [erased, known]
        grind
    | some own =>
        have check := checkName_eq_ok_iff.1 (free own named) other
        simp only [enrolled, named]
        rw [OrderedMap.get?_insert]
        by_cases here : own = name
        · subst here
          rw [if_pos rfl]
          grind
        · have misnamed : other = rule → store.nameOf other ≠ some name := by
            rintro rfl
            simp [named, here]
          rw [if_neg here, erased, known]
          grind
  · intro id other registered
    rw [book, lookup] at registered
    rw [book]
    have above : (store.enrolled index rule (store.book index)).nextId =
        max (store.book index).nextId (store.idOf rule + 1) := rfl
    rw [above]
    split at registered
    · omega
    · have below := registry.nextId registered
      omega
  · intro key id known
    rw [book] at known
    exact registry.base known

theorem IsRegistry.register (registry : store.IsRegistry index) {found : Rule}
    (present : store.rule? rule = some found) :
    (store.register index rule).2.IsRegistry index := by
  rw [register_eq]
  split
  · exact registry
  · rename_i allowed
    refine (registry.enroll present ?_).updateRule rule (fun _ => rfl) fun _ => rfl
    intro name named
    rw [named] at allowed
    exact allowed

/-- A change of a book that leaves its tables and does not take an id back. -/
theorem IsRegistry.updateBook (registry : store.IsRegistry index) {change : RuleBook → RuleBook}
    (rules : ∀ book, (change book).rules = book.rules)
    (names : ∀ book, (change book).rulesByName = book.rulesByName)
    (base : ∀ book, (change book).base = book.base)
    (nextId : ∀ book, book.nextId ≤ (change book).nextId) :
    (store.updateBook index change).IsRegistry index := by
  have book := book_updateBook registry.inside change
  refine ⟨?_, ?_, ?_, ?_, ?_, ?_⟩
  · simpa [RuleStore.updateBook] using registry.inside
  · rw [book, rules]
    exact registry.distinct
  · rw [book, rules]
    exact registry.own
  · rw [book, rules, names]
    exact registry.names
  · intro id other registered
    rw [book, rules] at registered
    rw [book]
    exact Int.lt_of_lt_of_le (registry.nextId registered) (nextId _)
  · rw [book, base]
    exact registry.base

theorem IsRegistry.newId (registry : store.IsRegistry index) :
    (store.newId index).2.IsRegistry index := by
  refine registry.updateBook (fun _ => rfl) (fun _ => rfl) (fun _ => rfl) fun book => ?_
  exact Int.le_add_one (Int.le_refl _)

theorem IsRegistry.build (registry : store.IsRegistry index) :
    (store.build index).2.IsRegistry index := by
  have begun := registry.newId.addRule (.new index (store.newId index).1)
  have present : ((store.newId index).2.addRule (.new index (store.newId index).1)).2.rule?
      (store.newId index).2.rules.length = some (.new index (store.newId index).1) := by
    rw [rule?_addRule, if_pos rfl]
  exact begun.register present

/-! ## Renaming and leaving -/

theorem forgetName_eq (book : RuleBook) (old : Option String) (rule : Nat) :
    ∃ names, forgetName book old rule = { book with rulesByName := names } ∧
      ∀ name other, names.get? name = some other ↔
        book.rulesByName.get? name = some other ∧ ¬ (old = some name ∧ other = rule) := by
  cases old with
  | none =>
      exact ⟨book.rulesByName, rfl, by simp⟩
  | some old =>
      by_cases stands : book.rulesByName.get? old = some rule
      · refine ⟨book.rulesByName.erase old, by simp [forgetName, stands], ?_⟩
        intro name other
        rw [OrderedMap.get?_erase]
        by_cases same : old = name
        · subst same
          rw [if_pos rfl, stands]
          simp [eq_comm]
        · simp [same]
      · refine ⟨book.rulesByName, by simp [forgetName, stands], ?_⟩
        intro name other
        constructor
        · intro named
          refine ⟨named, ?_⟩
          rintro ⟨same, rfl⟩
          cases same
          exact stands named
        · exact And.left

/-- The rules of a book without one of them. -/
def withoutRule (store : RuleStore F) (index rule : Nat) : OrderedMap Int Nat :=
  if store.isRegistered index rule then (store.book index).rules.erase (store.idOf rule)
  else (store.book index).rules

theorem get?_withoutRule (registry : store.IsRegistry index) (rule : Nat) (id : Int)
    (other : Nat) : (store.withoutRule index rule).get? id = some other ↔
      (store.book index).rules.get? id = some other ∧ other ≠ rule := by
  have ownId : (store.book index).rules.get? id = some rule → store.idOf rule = id :=
    registry.idOf_of_registered
  unfold withoutRule isRegistered
  split
  · rename_i registered
    have stands := eq_of_beq registered
    rw [OrderedMap.get?_erase]
    by_cases here : store.idOf rule = id
    · rw [if_pos here, ← here, stands]
      simp [eq_comm]
    · rw [if_neg here]
      constructor
      · intro found
        exact ⟨found, fun same => here (ownId (same ▸ found))⟩
      · exact And.left
  · rename_i absent
    constructor
    · intro found
      refine ⟨found, ?_⟩
      rintro rfl
      rw [ownId found, found] at absent
      simp at absent
    · exact And.left

theorem unregister_eq (store : RuleStore F) (index rule : Nat) :
    store.unregister index rule = store.updateBook index fun book =>
      forgetName (if store.isRegistered index rule
        then { book with rules := book.rules.erase (store.idOf rule) } else book)
        (store.nameOf rule) rule := by
  rfl

theorem IsRegistry.unregister (registry : store.IsRegistry index) (rule : Nat) :
    (store.unregister index rule).IsRegistry index := by
  rcases
      forgetName_eq
      { store.book index with rules := store.withoutRule index rule } (store.nameOf rule) rule with
    ⟨names, forgotten, lookup⟩
  have without := get?_withoutRule registry rule
  have book : (store.unregister index rule).book index =
      { store.book index with rules := store.withoutRule index rule, rulesByName := names } := by
    rw [unregister_eq, book_updateBook registry.inside, ← forgotten]
    congr 1
    unfold withoutRule
    split <;> rfl
  refine ⟨?_, ?_, ?_, ?_, ?_, ?_⟩
  · simpa [RuleStore.unregister, RuleStore.updateBook] using registry.inside
  · rw [book]
    show (store.withoutRule index rule).keys.Nodup
    unfold withoutRule
    split
    · exact OrderedMap.nodup_keys_erase registry.distinct _
    · exact registry.distinct
  · intro id other registered
    rw [book] at registered
    exact registry.own ((without id other).1 registered).1
  · intro name other
    rw [book]
    show names.get? name = some other ↔
      (store.withoutRule index rule).get? (store.idOf other) = some other ∧
        store.nameOf other = some name
    rw [lookup, without]
    have known := registry.names name other
    have named : other = rule → store.nameOf rule = store.nameOf other := by
      rintro rfl
      rfl
    grind
  · intro id other registered
    rw [book] at registered ⊢
    exact registry.nextId ((without id other).1 registered).1
  · intro key id known
    rw [book] at known
    exact registry.base known

/-- The table with a rule renamed, before the new name is written down. -/
def nameless (store : RuleStore F) (index rule : Nat) (name : String) : RuleStore F :=
  (store.updateBook index (forgetName · (store.nameOf rule) rule)).updateRule rule
    fun found => { found with name := some name }

theorem rename_eq (store : RuleStore F) (index rule : Nat) (name : String) :
    store.rename index rule name =
      match store.checkName index rule name with
      | .error failure => (.error failure, store)
      | .ok _ =>
        let renamed := store.nameless index rule name
        if renamed.isRegistered index rule then
          (.ok (), renamed.updateBook index fun book =>
            { book with rulesByName := book.rulesByName.insert name rule })
        else (.ok (), renamed) := by
  rfl

theorem idOf_nameless (store : RuleStore F) (index rule : Nat) (name : String) (other : Nat) :
    (store.nameless index rule name).idOf other = store.idOf other := by
  rw [idOf, nameless, rule?_updateRule, idOf, rule?_updateBook]
  split
  · rw [Option.map_map]
    rfl
  · rfl

theorem nameOf_nameless {found : Rule} (present : store.rule? rule = some found) (index : Nat)
    (name : String) (other : Nat) :
    (store.nameless index rule name).nameOf other =
      if rule = other then some name else store.nameOf other := by
  rw [nameOf, nameless, rule?_updateRule, nameOf, rule?_updateBook]
  split
  · rename_i same
    rw [← same, present]
    rfl
  · rfl

/-- A registry with an index of names written anew. -/
theorem IsRegistry.reindex (registry : before.IsRegistry index)
    {names : OrderedMap String Nat} (inside : index < after.books.length)
    (book : after.book index = { before.book index with rulesByName := names })
    (components : after.components = before.components)
    (rules : ∀ rule found, before.rule? rule = some found →
      ∃ same, after.rule? rule = some same ∧ same.id = found.id)
    (lookup : ∀ name rule, names.get? name = some rule ↔
      (before.book index).rules.get? (after.idOf rule) = some rule ∧
        after.nameOf rule = some name) :
    after.IsRegistry index where
  inside := inside
  distinct := by
    rw [book]
    exact registry.distinct
  own := by
    intro id rule registered
    rw [book] at registered
    rcases registry.own registered with ⟨found, present, sameId⟩
    rcases rules rule found present with ⟨same, stands, keepsId⟩
    exact ⟨same, stands, keepsId.trans sameId⟩
  names := by
    rw [book]
    exact lookup
  nextId := by
    rw [book]
    exact registry.nextId
  base := by
    intro key id known
    rw [book] at known
    rw [component?, components]
    exact registry.base known

theorem IsRegistry.rename (registry : store.IsRegistry index) {found : Rule}
    (present : store.rule? rule = some found) (name : String) :
    (store.rename index rule name).2.IsRegistry index := by
  rcases forgetName_eq (store.book index) (store.nameOf rule) rule with ⟨names, forgotten, lookup⟩
  have book : (store.nameless index rule name).book index =
      { store.book index with rulesByName := names } := by
    rw [nameless, book_updateRule, book_updateBook registry.inside, forgotten]
  have inside : index < (store.nameless index rule name).books.length := by
    simpa [nameless, RuleStore.updateRule, RuleStore.updateBook] using registry.inside
  have rules : ∀ other found, store.rule? other = some found →
      ∃ same, (store.nameless index rule name).rule? other = some same ∧
        same.id = found.id := by
    intro other found present
    rw [nameless, rule?_updateRule, rule?_updateBook, present]
    split <;> exact ⟨_, rfl, rfl⟩
  have known := registry.names
  have ownId := idOf_nameless store index rule name
  have named := nameOf_nameless present index name
  rw [rename_eq]
  split
  · exact registry
  · rename_i allowed
    have free := checkName_eq_ok_iff.1 allowed
    dsimp only
    split
    · rename_i registered
      have stands := eq_of_beq registered
      rw [book, ownId] at stands
      have renamed : ((store.nameless index rule name).updateBook index fun book =>
          { book with rulesByName := book.rulesByName.insert name rule }).book index =
          { store.book index with rulesByName := names.insert name rule } := by
        rw [book_updateBook inside, book]
      refine registry.reindex ?_ renamed rfl rules ?_
      · simpa [RuleStore.updateBook] using inside
      · intro other holder
        show _ ↔ (store.book index).rules.get?
          ((store.nameless index rule name).idOf holder) = some holder ∧
            (store.nameless index rule name).nameOf holder = some other
        rw [ownId, named, OrderedMap.get?_insert]
        have held := known other holder
        by_cases here : name = other
        · subst here
          have unclaimed := free holder
          rw [if_pos rfl]
          grind
        · rw [if_neg here, lookup, held]
          grind
    · rename_i absent
      apply registry.reindex inside book rfl rules
      intro other holder
      rw [ownId, named, lookup, known]
      have unheld : (store.book index).rules.get? (store.idOf rule) ≠ some rule := by
        intro stands
        refine absent (beq_iff_eq.2 ?_)
        rw [book, ownId]
        exact stands
      grind

end Steward.RuleStore
