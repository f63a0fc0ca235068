import Steward.Proofs.Rule.BookLife
import Steward.Proofs.Rule.Restoring

/-!
# The ledger of a book

A book is asked for ids and new rules; rules of any id and name are registered in
it, named, kept for good, finished, destroyed and removed; and saved rules are
loaded into it.  Any of these calls may fail.  The ledger of such a run is the list
of all ids that were handed out or registered on the way.

Two facts carry a run.  Every call keeps the book a registry, whether it fails or
not, and no call takes an id back.  So the next id is above the whole ledger, and a
call that fails because a name is taken has changed nothing.
-/

namespace Steward

/-- A name is taken by another rule. -/
def Failure.IsDuplicate : Failure → Prop
  | .duplicateName .. => True
  | _ => False

namespace RuleStore

variable {F : Type} {store before middle after : RuleStore F} {index rule : Nat}

/-! ## Listening is no matter of the books -/

/-- Tell a trigger about a rule, which changes if all went well. -/
def switch (store : RuleStore F) (begins : Bool) (rule : Nat) (change : Rule → Rule)
    (trigger : ComponentRef) : Announced F :=
  match store.tell begins rule trigger with
  | (.error failure, announced, told) => (.error failure, announced, told)
  | (.ok _, announced, told) => (.ok (), announced, told.updateRule rule change)

theorem enable_eq (store : RuleStore F) (rule : Nat) :
    store.enable rule =
      match store.rule? rule with
      | none => (.ok (), [], store)
      | some found =>
        if found.enabled || found.destroyed then (.ok (), [], store)
        else
          store.switch true rule (fun found => { found with enabled := true }) found.trigger := by
  rfl

theorem disable_eq (store : RuleStore F) (rule : Nat) :
    store.disable rule =
      match store.rule? rule with
      | none => (.ok (), [], store)
      | some found =>
        if !found.enabled then (.ok (), [], store)
        else store.switch false rule (fun found => { found with enabled := false })
          found.trigger := by
  rfl

theorem books_switch (store : RuleStore F) (begins : Bool) (rule : Nat) (change : Rule → Rule)
    (trigger : ComponentRef) :
    (store.switch begins rule change trigger).2.2.books = store.books := by
  have told : (store.tell begins rule trigger).2.2.books = store.books :=
    (Grows.tellWithin begins rule _ trigger store).books
  unfold switch
  split
  · rename_i failed
    rw [failed] at told
    exact told
  · rename_i heard
    rw [heard] at told
    exact told

theorem books_enable (store : RuleStore F) (rule : Nat) :
    (store.enable rule).2.2.books = store.books := by
  rw [enable_eq]
  split
  · rfl
  · split
    · rfl
    · exact books_switch store true rule _ _

theorem books_disable (store : RuleStore F) (rule : Nat) :
    (store.disable rule).2.2.books = store.books := by
  rw [disable_eq]
  split
  · rfl
  · split
    · rfl
    · exact books_switch store false rule _ _

theorem books_create (store : RuleStore F) (rule : Nat) :
    (store.create rule).2.2.books = store.books := by
  unfold create
  split
  · rfl
  · split
    · rfl
    · exact books_enable store rule

/-- An outcome is not that a name is taken. -/
def NoDuplicate {α : Type} (outcome : Except Failure α) : Prop :=
  ∀ failure, outcome = .error failure → ¬ failure.IsDuplicate

theorem noDuplicate_ok {α : Type} {value : α} : NoDuplicate (.ok value) := by
  intro failure failed
  cases failed

theorem NoDuplicate.map {α β : Type} {outcome : Except Failure α} (free : NoDuplicate outcome)
    (f : α → β) : NoDuplicate (outcome.map f) := by
  intro failure failed
  cases outcome with
  | error reason =>
      cases failed
      exact free failure rfl
  | ok value =>
      cases failed

theorem tellAll_noDuplicate {tellOne : ComponentRef → RuleStore F → Announced F}
    (one : ∀ trigger (store : RuleStore F), NoDuplicate (tellOne trigger store).1)
    (triggers : List ComponentRef) (store : RuleStore F) :
    NoDuplicate (tellAll tellOne triggers store).1 := by
  induction triggers generalizing store with
  | nil =>
      exact noDuplicate_ok
  | cons trigger rest ih =>
      have first := one trigger store
      rw [tellAll]
      split
      · rename_i failed
        rw [failed] at first
        exact first
      · exact ih _

theorem tellWithin_noDuplicate (begins : Bool) (rule depth : Nat) (trigger : ComponentRef)
    (store : RuleStore F) : NoDuplicate (tellWithin begins rule depth trigger store).1 := by
  induction depth generalizing trigger store with
  | zero =>
      intro failure failed
      cases failed
      exact id
  | succ depth ih =>
      cases trigger with
      | none =>
          intro failure failed
          cases failed
          exact id
      | some id =>
          rw [tellWithin]
          split
          · exact noDuplicate_ok
          · exact noDuplicate_ok
          · exact tellAll_noDuplicate ih _ store
          · intro failure failed
            cases failed
            exact False.elim

theorem switch_noDuplicate (store : RuleStore F) (begins : Bool) (rule : Nat) (change : Rule → Rule)
    (trigger : ComponentRef) : NoDuplicate (store.switch begins rule change trigger).1 := by
  have told := tellWithin_noDuplicate begins rule (store.components.length + 1) trigger store
  unfold switch
  split
  · rename_i failed
    rw [tell] at failed
    rw [failed] at told
    exact told
  · exact noDuplicate_ok

theorem create_noDuplicate (store : RuleStore F) (rule : Nat) :
    NoDuplicate (store.create rule).1 := by
  unfold create
  split
  · exact noDuplicate_ok
  · split
    · intro failure failed
      cases failed
      exact id
    · rw [enable_eq]
      split
      · exact noDuplicate_ok
      · split
        · exact noDuplicate_ok
        · exact switch_noDuplicate store true rule _ _

theorem destroy_noDuplicate (store : RuleStore F) (rule : Nat) :
    NoDuplicate (store.destroy rule).1 := by
  unfold destroy
  split
  · exact noDuplicate_ok
  · split
    · exact noDuplicate_ok
    · have stopped : NoDuplicate (store.disable rule).1 := by
        rw [disable_eq]
        split
        · exact noDuplicate_ok
        · split
          · exact noDuplicate_ok
          · exact switch_noDuplicate store false rule _ _
      split
      · rename_i failed
        rw [failed] at stopped
        exact stopped
      · exact noDuplicate_ok

/-- Removing a rule destroys it, or there is none. -/
theorem remove_cases (store : RuleStore F) (index : Nat) (key : Value) :
    (store.remove index key).2.2 = store ∨
      ∃ rule, (store.remove index key).2 = (store.destroy rule).2 := by
  unfold remove
  split
  · exact .inl rfl
  · exact .inl rfl
  · rename_i rule _
    exact .inr ⟨rule, rfl⟩

theorem remove_noDuplicate (store : RuleStore F) (index : Nat) (key : Value) :
    NoDuplicate (store.remove index key).1 := by
  unfold remove
  split
  · rename_i failure failed
    intro other same
    cases same
    unfold get? at failed
    split at failed <;> cases failed
    all_goals exact id
  · exact noDuplicate_ok
  · rename_i rule _
    exact (destroy_noDuplicate store rule).map _

/-! ## Ids are not taken back -/

/-- The next id of a book does not fall. -/
def Advances (index : Nat) (before after : RuleStore F) : Prop :=
  (before.book index).nextId ≤ (after.book index).nextId

namespace Advances

theorem refl (index : Nat) (store : RuleStore F) : Advances index store store := by
  exact Int.le_refl _

theorem trans (first : Advances index before middle) (second : Advances index middle after) :
    Advances index before after := by
  exact Int.le_trans first second

theorem of_books (same : after.books = before.books) : Advances index before after := by
  have book : after.book index = before.book index := by
    rw [RuleStore.book, RuleStore.book, same]
  exact Int.le_of_eq (congrArg RuleBook.nextId book.symm)

theorem updateRule (index : Nat) (store : RuleStore F) (rule : Nat) (change : Rule → Rule) :
    Advances index store (store.updateRule rule change) := by
  exact of_books rfl

theorem updateBook (index : Nat) (store : RuleStore F) (other : Nat) {change : RuleBook → RuleBook}
    (rises : ∀ book, book.nextId ≤ (change book).nextId) :
    Advances index store (store.updateBook other change) := by
  simp only [Advances, RuleStore.updateBook, RuleStore.book, List.getD_eq_getElem?_getD,
    List.getElem?_modify]
  cases store.books[index]? with
  | none =>
      exact Int.le_refl _
  | some book =>
      by_cases same : other = index
      · simpa [same] using rises book
      · simp [same]

theorem newId (index : Nat) (store : RuleStore F) : Advances index store (store.newId index).2 := by
  apply updateBook index store index
  intro book
  exact Int.le_add_one (Int.le_refl _)

theorem register (index : Nat) (store : RuleStore F) (rule : Nat) :
    Advances index store (store.register index rule).2 := by
  rw [register_eq]
  split
  · exact refl index store
  · apply trans _ (updateRule index _ rule _)
    apply updateBook index store index
    intro book
    exact Int.le_max_left _ _

theorem build (index : Nat) (store : RuleStore F) : Advances index store (store.build index).2 := by
  apply (newId index store).trans
  apply trans (of_books rfl)
  exact register index ((store.newId index).2.addRule (.new index (store.newId index).1)).2 _

theorem forgetName (book : RuleBook) (name : Option String) (rule : Nat) :
    (RuleStore.forgetName book name rule).nextId = book.nextId := by
  rcases forgetName_eq book name rule with ⟨names, forgotten, -⟩
  rw [forgotten]

theorem rename (index : Nat) (store : RuleStore F) (other rule : Nat) (name : String) :
    Advances index store (store.rename other rule name).2 := by
  have nameless : Advances index store (store.nameless other rule name) := by
    apply trans _ (updateRule index _ rule _)
    apply updateBook index store other
    intro book
    exact Int.le_of_eq (forgetName book _ rule).symm
  rw [rename_eq]
  split
  · exact refl index store
  · dsimp only
    split
    · apply nameless.trans
      apply updateBook index _ other
      intro book
      exact Int.le_refl _
    · exact nameless

theorem persist (index : Nat) (store : RuleStore F) (rule : Nat) (name : Option String) :
    Advances index store (store.persist rule name).2 := by
  unfold RuleStore.persist
  cases name with
  | none =>
      exact updateRule index store rule _
  | some name =>
      have renamed := rename index store (((store.rule? rule).map (·.book)).getD 0) rule name
      dsimp only [Option.elim_some]
      split
      · rename_i failed
        rw [failed] at renamed
        exact renamed
      · rename_i done
        rw [done] at renamed
        exact renamed.trans (updateRule index _ rule _)

theorem unregister (index : Nat) (store : RuleStore F) (other rule : Nat) :
    Advances index store (store.unregister other rule) := by
  rw [unregister_eq]
  apply updateBook index store other
  intro book
  rw [forgetName]
  split <;> exact Int.le_refl _

theorem destroy (index : Nat) (store : RuleStore F) (rule : Nat) :
    Advances index store (store.destroy rule).2.2 := by
  unfold RuleStore.destroy
  split
  · exact refl index store
  · rename_i found _
    split
    · exact refl index store
    · have stopped : Advances index store (store.disable rule).2.2 :=
        of_books (books_disable store rule)
      split
      · rename_i failed
        rw [failed] at stopped
        exact stopped
      · rename_i done
        rw [done] at stopped
        apply stopped.trans
        apply (updateRule index _ rule _).trans
        exact unregister index _ found.book rule

theorem adopt [Validator] (index : Nat) (store : RuleStore F) (data : Value) :
    Advances index store (store.adopt index data).2 := by
  unfold RuleStore.adopt
  rcases loadRule_cases store index data with ⟨_, after, failed, grows⟩ |
    ⟨middle, rule, loaded, grows⟩
  · rw [failed]
    exact of_books grows.books
  · have added : Advances index store (middle.addRule rule).2 := of_books grows.books
    have registered := added.trans (register index _ middle.rules.length)
    rw [loaded]
    dsimp only
    split
    · exact added
    · split
      · rename_i failed
        rw [failed] at registered
        exact registered
      · rename_i done
        rw [done] at registered
        exact registered

end Advances

theorem register_of_error {failure : Failure}
    (failed : (store.register index rule).1 = .error failure) :
    (store.register index rule).2 = store := by
  rw [register_eq] at failed ⊢
  split
  · rfl
  · rename_i allowed
    rw [allowed] at failed
    cases failed

theorem rename_of_error {failure : Failure} {name : String}
    (failed : (store.rename index rule name).1 = .error failure) :
    (store.rename index rule name).2 = store := by
  rw [rename_eq] at failed ⊢
  split
  · rfl
  · rename_i allowed
    simp only [allowed] at failed
    split at failed <;> cases failed

theorem persist_of_error {failure : Failure} {name : Option String}
    (failed : (store.persist rule name).1 = .error failure) :
    (store.persist rule name).2 = store := by
  unfold persist at failed ⊢
  cases name with
  | none =>
      cases failed
  | some name =>
      dsimp only [Option.elim_some] at failed ⊢
      split
      · rename_i reason kept refused
        have same := rename_of_error (congrArg Prod.fst refused)
        rw [refused] at same
        exact same
      · rename_i done
        rw [done] at failed
        cases failed

end RuleStore

/-! ## Calls -/

/-- What may be asked of a book. -/
inductive BookCall where
  | newId
  | build
  | register (rule : Nat)
  | rename (rule : Nat) (name : String)
  | persist (rule : Nat) (name : Option String)
  | create (rule : Nat)
  | destroy (rule : Nat)
  | remove (key : Value)
  | unregister (rule : Nat)
  | load

namespace BookCall

variable {F H : Type} {told : Told F H} {index : Nat} {world : World F H}

/-- A call on a book, with the failure that it may end with. -/
def run [Validator] (told : Told F H) (index : Nat) :
    BookCall → World F H → Except Failure Unit × World F H
  | .newId, world => (.ok (), (world.onRules (·.newId index)).2)
  | .build, world => (.ok (), (world.onRules (·.build index)).2)
  | .register rule, world => world.onRules (·.register index rule)
  | .rename rule name, world => world.onRules (·.rename index rule name)
  | .persist rule name, world => world.onRules (·.persist rule name)
  | .create rule, world => world.change told (·.create rule)
  | .destroy rule, world => world.change told (·.destroy rule)
  | .remove key, world =>
    world.change told fun store =>
      ((store.remove index key).1.map fun _ => (), (store.remove index key).2)
  | .unregister rule, world => (.ok (), { world with rules := world.rules.unregister index rule })
  | .load, world =>
    ((world.loadRules told index).1.map fun _ => (), (world.loadRules told index).2)

/-- A call is about a rule that there is; a rule is kept for good by its own book. -/
def IsOn (index : Nat) (store : RuleStore F) : BookCall → Prop
  | .register rule | .rename rule _ => ∃ found, store.rule? rule = some found
  | .persist rule _ => ∃ found, store.rule? rule = some found ∧ found.book = index
  | _ => True

/-- The id that a call hands out. -/
def handsOut (index : Nat) (store : RuleStore F) : BookCall → List Int
  | .newId | .build => [(store.newId index).1]
  | _ => []

end BookCall

namespace World

variable {F H : Type} {told : Told F H} {index : Nat}

/-- What adopting and finishing rules preserve holds after entries are loaded. -/
theorem loadEntries_preserves [Validator] (keeps : KeepsRules told) {holds : RuleStore F → Prop}
    (adopt : ∀ store data, holds store → holds (store.adopt index data).2)
    (create : ∀ store rule, holds store → holds (store.create rule).2.2) (entries : List Value)
    (count : Nat) {world : World F H} (start : holds world.rules) :
    holds (loadEntries told index entries count world).2.rules := by
  induction entries generalizing count world with
  | nil =>
      exact start
  | cons data rest ih =>
      have adopted := adopt world.rules data start
      rw [loadEntries]
      split
      · rename_i failure after failed
        apply ih
        rw [← show after.rules = (world.rules.adopt index data).2 from
          congrArg (World.rules ∘ Prod.snd) failed.symm] at adopted
        exact adopted
      · rename_i rule after done
        rw [← show after.rules = (world.rules.adopt index data).2 from
          congrArg (World.rules ∘ Prod.snd) done.symm] at adopted
        have created : holds (change told (·.create rule) after).2.rules := by
          rw [change, tellTriggers_rules keeps]
          exact create after.rules rule adopted
        split
        · rename_i failed
          rw [failed] at created
          exact created
        · rename_i finished
          rw [finished] at created
          exact ih _ created

/-- What is preserved by adopting and finishing rules holds after a book is loaded. -/
theorem loadRules_preserves [Validator] (keeps : KeepsRules told) {holds : RuleStore F → Prop}
    (adopt : ∀ store data, holds store → holds (store.adopt index data).2)
    (create : ∀ store rule, holds store → holds (store.create rule).2.2) {world : World F H}
    (start : holds world.rules) : holds (loadRules told index world).2.rules := by
  unfold loadRules
  split
  · exact start
  · rename_i entries _
    have loaded := loadEntries_preserves keeps adopt create entries 0 start
    split
    · rename_i failed
      rw [failed] at loaded
      exact loaded
    · rename_i done
      rw [done] at loaded
      exact loaded

theorem loadEntries_noDuplicate [Validator] (entries : List Value) (count : Nat) (world : World F H) :
    RuleStore.NoDuplicate (loadEntries told index entries count world).1 := by
  induction entries generalizing count world with
  | nil =>
      exact RuleStore.noDuplicate_ok
  | cons data rest ih =>
      rw [loadEntries]
      split
      · exact ih _ _
      · rename_i rule after _
        have created : RuleStore.NoDuplicate (change told (·.create rule) after).1 :=
          RuleStore.create_noDuplicate after.rules rule
        split
        · rename_i refused
          rw [refused] at created
          intro failure failed
          cases failed
          exact created _ rfl
        · exact ih _ _

/-- Loading can fail before the first entry, which changes nothing; from then on it
does not fail because a name is taken. -/
theorem loadRules_cases [Validator] (told : Told F H) (index : Nat) (world : World F H) :
    (loadRules told index world).2 = world ∨
      RuleStore.NoDuplicate (loadRules told index world).1 := by
  unfold loadRules
  split
  · exact .inl rfl
  · rename_i entries _
    have loaded : RuleStore.NoDuplicate (loadEntries told index entries 0 world).1 :=
      loadEntries_noDuplicate entries 0 world
    right
    split
    · rename_i refused
      rw [refused] at loaded
      intro failure failed
      cases failed
      exact loaded _ rfl
    · exact RuleStore.noDuplicate_ok

end World

namespace BookCall

variable {F H : Type} {told : Told F H} {index : Nat} {world : World F H}

theorem run_rules_change (keeps : World.KeepsRules told) (f : RuleStore F → RuleStore.Announced F)
    (world : World F H) : (world.change told f).2.rules = (f world.rules).2.2 := by
  exact World.tellTriggers_rules keeps _ _

/-- A book remains a registry through every call. -/
theorem run_isRegistry [Validator] (keeps : World.KeepsRules told) {call : BookCall}
    (isOn : call.IsOn index world.rules) (registry : world.rules.IsRegistry index) :
    (call.run told index world).2.rules.IsRegistry index := by
  cases call with
  | newId =>
      exact registry.newId
  | build =>
      exact registry.build
  | register rule =>
      rcases isOn with ⟨found, present⟩
      exact registry.register present
  | rename rule name =>
      rcases isOn with ⟨found, present⟩
      exact registry.rename present name
  | persist rule name =>
      rcases isOn with ⟨found, present, here⟩
      exact registry.persist present here name
  | create rule =>
      rw [run, run_rules_change keeps]
      exact registry.create rule
  | destroy rule =>
      rw [run, run_rules_change keeps]
      exact registry.destroy rule
  | remove key =>
      rw [run, run_rules_change keeps]
      rcases RuleStore.remove_cases world.rules index key with same | ⟨rule, removed⟩
      · exact same.symm ▸ registry
      · exact removed.symm ▸ registry.destroy rule
  | unregister rule =>
      exact registry.unregister rule
  | load =>
      have adopt : ∀ (store : RuleStore F) data, store.IsRegistry index →
          (store.adopt index data).2.IsRegistry index := fun _ data registry =>
        registry.adopt data
      have create : ∀ (store : RuleStore F) rule, store.IsRegistry index →
          (store.create rule).2.2.IsRegistry index := fun _ rule registry =>
        registry.create rule
      exact World.loadRules_preserves keeps adopt create registry

/-- No call takes an id back. -/
theorem run_advances [Validator] (keeps : World.KeepsRules told) (call : BookCall)
    (world : World F H) :
    RuleStore.Advances index world.rules (call.run told index world).2.rules := by
  cases call with
  | newId =>
      exact .newId index world.rules
  | build =>
      exact .build index world.rules
  | register rule =>
      exact .register index world.rules rule
  | rename rule name =>
      exact .rename index world.rules index rule name
  | persist rule name =>
      exact .persist index world.rules rule name
  | create rule =>
      rw [run, run_rules_change keeps]
      exact .of_books (RuleStore.books_create world.rules rule)
  | destroy rule =>
      rw [run, run_rules_change keeps]
      exact .destroy index world.rules rule
  | remove key =>
      rw [run, run_rules_change keeps]
      rcases RuleStore.remove_cases world.rules index key with same | ⟨rule, removed⟩
      · exact .of_books (congrArg RuleStore.books same)
      · exact removed.symm ▸ RuleStore.Advances.destroy index world.rules rule
  | unregister rule =>
      exact .unregister index world.rules index rule
  | load =>
      have adopt : ∀ store data, RuleStore.Advances index world.rules store →
          RuleStore.Advances index world.rules (store.adopt index data).2 :=
        fun store data advances => advances.trans (.adopt index store data)
      have create : ∀ store rule, RuleStore.Advances index world.rules store →
          RuleStore.Advances index world.rules (store.create rule).2.2 :=
        fun store rule advances => advances.trans (.of_books (RuleStore.books_create store rule))
      exact World.loadRules_preserves keeps adopt create (.refl index world.rules)

/-- What a call hands out was the next id, and is no longer. -/
theorem handsOut_lt [Validator] {call : BookCall} {id : Int}
    (handed : id ∈ call.handsOut index world.rules) (inside : index < world.rules.books.length) :
    id < ((call.run told index world).2.rules.book index).nextId := by
  have next : ((world.rules.newId index).2.book index).nextId =
      (world.rules.book index).nextId + 1 := by
    rw [RuleStore.newId, RuleStore.book_updateBook inside]
  have above :
      (world.rules.book index).nextId < ((world.rules.newId index).2.book index).nextId := by
    omega
  cases call with
  | newId =>
      rw [List.mem_singleton.1 handed]
      exact above
  | build =>
      rw [List.mem_singleton.1 handed]
      apply Int.lt_of_lt_of_le above
      exact RuleStore.Advances.register index
        ((world.rules.newId index).2.addRule (.new index (world.rules.newId index).1)).2 _
  | register | rename | persist | create | destroy | remove | unregister | load =>
      cases handed

/-- A call that fails because a name is taken changes nothing. -/
theorem run_of_isDuplicate [Validator] {call : BookCall} {failure : Failure}
    (failed : (call.run told index world).1 = .error failure) (taken : failure.IsDuplicate) :
    (call.run told index world).2 = world := by
  have keeps : ∀ {rules : RuleStore F}, rules = world.rules →
      ({ world with rules := rules } : World F H) = world := by
    rintro _ rfl
    rfl
  cases call with
  | newId | build | unregister =>
      cases failed
  | register rule =>
      exact keeps (RuleStore.register_of_error failed)
  | rename rule name =>
      exact keeps (RuleStore.rename_of_error failed)
  | persist rule name =>
      exact keeps (RuleStore.persist_of_error failed)
  | create rule =>
      exact (RuleStore.create_noDuplicate world.rules rule failure failed taken).elim
  | destroy rule =>
      exact (RuleStore.destroy_noDuplicate world.rules rule failure failed taken).elim
  | remove key =>
      have free := RuleStore.remove_noDuplicate world.rules index key
      exact (free.map _ failure failed taken).elim
  | load =>
      rcases World.loadRules_cases told index world with same | free
      · exact same
      · exact (free.map _ failure failed taken).elim

end BookCall

/-! ## Runs -/

/-- What happens around a book: it stays as it is, rules keep their ids and names, and
components their keys.  So do editing a rule, making rules that are not registered yet,
and calls on other books for rules of their own. -/
structure RuleStore.Leaves {F : Type} (index : Nat) (before after : RuleStore F) : Prop where
  books : before.books.length ≤ after.books.length
  book : after.book index = before.book index
  rules : ∀ rule found, before.rule? rule = some found →
    ∃ same, after.rule? rule = some same ∧ same.id = found.id ∧ same.name = found.name
  components : ∀ id found, before.component? id = some found →
    ∃ same, after.component? id = some same ∧ same.key = found.key

/-- The ids that were handed out or registered in a run of calls on a book, from its
opening to a world that is reached. -/
inductive Ledger [Validator] {F H : Type} (told : Told F H) (index : Nat) :
    List Int → World F H → Prop where
  | opened {world : World F H} (store : RuleStore F) (place : Option DataPlace)
      (next : store.books.length = index) (opens : world.rules = (store.openBook place).2) :
      Ledger told index [] world
  | called {ledger : List Int} {world : World F H} (run : Ledger told index ledger world)
      (call : BookCall) (isOn : call.IsOn index world.rules) :
      Ledger told index
        (ledger ++ call.handsOut index world.rules ++
          ((call.run told index world).2.rules.book index).rules.keys)
        (call.run told index world).2
  | meanwhile {ledger : List Int} {before after : World F H} (run : Ledger told index ledger before)
      (leaves : before.rules.Leaves index after.rules) : Ledger told index ledger after

namespace Ledger

variable {F H : Type} {told : Told F H} {index : Nat} {ledger : List Int} {world : World F H}

theorem isRegistry [Validator] (keeps : World.KeepsRules told)
    (run : Ledger told index ledger world) :
    world.rules.IsRegistry index := by
  induction run with
  | opened store place next opens =>
      rw [opens, ← next]
      exact RuleStore.isRegistry_openBook store place
  | called _ call isOn ih =>
      exact BookCall.run_isRegistry keeps isOn ih
  | meanwhile _ leaves ih =>
      exact ih.transfer (Nat.lt_of_lt_of_le ih.inside leaves.books) leaves.book leaves.rules
        leaves.components

/-- The next id is above the whole ledger. -/
theorem lt_nextId [Validator] (keeps : World.KeepsRules told)
    (run : Ledger told index ledger world) :
    ∀ id ∈ ledger, id < (world.rules.book index).nextId := by
  induction run with
  | opened =>
      intro id listed
      cases listed
  | @called ledger world run call isOn ih =>
      have registry := run.isRegistry keeps
      intro id listed
      rcases List.mem_append.1 listed with earlier | registered
      · rcases List.mem_append.1 earlier with earlier | handed
        · exact Int.lt_of_lt_of_le (ih id earlier) (BookCall.run_advances keeps call world)
        · exact BookCall.handsOut_lt handed registry.inside
      · have after := BookCall.run_isRegistry keeps isOn registry
        cases stands : ((call.run told index world).2.rules.book index).rules.get? id with
        | none =>
            exact (OrderedMap.get?_eq_none_iff.1 stands registered).elim
        | some rule =>
            exact after.nextId stands
  | meanwhile _ leaves ih =>
      rw [leaves.book]
      exact ih

/-- In every world that a run of calls reaches, the rules of the book stand under their
own ids; a name stands for the rule that has it and is registered; the id that is handed
out next is above all that were handed out or registered; and a call that fails because
a name is taken leaves everything as it is. -/
theorem consistent [Validator] (keeps : World.KeepsRules told)
    (run : Ledger told index ledger world) :
    (∀ id rule, (world.rules.book index).rules.get? id = some rule →
      ∃ found, world.rules.rule? rule = some found ∧ found.id = id) ∧
    (∀ name rule, (world.rules.book index).rulesByName.get? name = some rule ↔
      (world.rules.book index).rules.get? (world.rules.idOf rule) = some rule ∧
        world.rules.nameOf rule = some name) ∧
    (∀ id ∈ ledger, id < (world.rules.newId index).1) ∧
    ∀ (call : BookCall) failure, (call.run told index world).1 = .error failure →
      failure.IsDuplicate → (call.run told index world).2 = world := by
  have registry := run.isRegistry keeps
  refine ⟨?_, registry.names, run.lt_nextId keeps, ?_⟩
  · intro id rule registered
    exact registry.own registered
  · intro call failure failed taken
    exact BookCall.run_of_isDuplicate failed taken

end Ledger

/-! ## A gate

A rule that is called the gate is kept for good; a second rule can not have its name.
-/

namespace Gate

def told : Told String Unit := fun _ _ _ world => world

def opened : World String Unit :=
  { World.new () .standard [] with rules := (RuleStore.standard.openBook none).2 }

/-- The world after some calls. -/
def after (calls : List BookCall) : World String Unit :=
  calls.foldl (fun world call => (call.run told 0 world).2) opened

def calls : List BookCall := [.build, .persist 0 (some "gate"), .newId, .build]

theorem after_calls_ledger : Ledger told 0 [1, 1, 1, 2, 1, 3, 1, 3] (after calls) := by
  have start : Ledger told 0 [] opened := .opened .standard none rfl rfl
  have built := start.called .build trivial
  have kept := built.called (.persist 0 (some "gate")) ⟨_, rfl, rfl⟩
  exact (kept.called .newId trivial).called .build trivial

theorem gate_is_taken :
    ((BookCall.persist 1 (some "gate")).run told 0 (after calls)).1 =
        .error (.duplicateName "gate" 1 3) ∧
      ((BookCall.persist 1 (some "gate")).run told 0 (after calls)).2 = after calls ∧
      ((after calls).rules.newId 0).1 = 4 ∧ 3 < ((after calls).rules.newId 0).1 := by
  have keeps : World.KeepsRules told := fun _ _ _ _ => rfl
  have taken : ((BookCall.persist 1 (some "gate")).run told 0 (after calls)).1 =
      .error (.duplicateName "gate" 1 3) := rfl
  rcases after_calls_ledger.consistent keeps with ⟨-, -, above, unchanged⟩
  refine ⟨taken, unchanged _ _ taken trivial, rfl, ?_⟩
  exact above 3 (by decide)

end Gate

end Steward
