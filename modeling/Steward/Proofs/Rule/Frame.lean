import Steward.Rule.Listening
import Steward.Rule.Saved
import Steward.Event.Bus

/-!
# What the rules leave alone

Rebuilding saved rules adds components to the table, and a rule that begins or ends
to listen is written down in the triggers of events.  Apart from these attached
rules no component that is there changes, so the table grows.  Registering a rule
moves no book to another place, and nothing brings in a trigger that was not there
before: a table without triggers of callbacks stays without them, so nothing is
announced to anyone.
-/

namespace Steward

variable {F : Type}

namespace Component

/-- A component does nothing of its own when data is saved or a rule begins to
listen. -/
def IsQuiet : Component F → Prop
  | .customTrigger .. => False
  | .eventTrigger _ event _ _ => event ≠ saveDataEvent
  | _ => True

/-- A component without the rules that are attached to it. -/
def bare : Component F → Component F
  | .eventTrigger name event mapper _ => .eventTrigger name event mapper []
  | other => other

@[simp]
theorem bare_bare (component : Component F) :
    component.bare.bare = component.bare := by
  cases component <;> rfl

@[simp]
theorem key_bare (component : Component F) :
    component.bare.key = component.key := by
  cases component <;> rfl

theorem isQuiet_bare (component : Component F) :
    component.bare.IsQuiet ↔ component.IsQuiet := by
  cases component <;> rfl

end Component

namespace RuleStore

/-- All components of the table are quiet. -/
def IsQuiet (store : RuleStore F) : Prop :=
  ∀ id component, store.component? id = some component → component.IsQuiet

/-- The table has all components of another one, up to the rules attached to them;
what was added is quiet.  Rules and books are the same. -/
structure Grows (before after : RuleStore F) : Prop where
  components : ∃ added, after.components.map Component.bare =
      before.components.map Component.bare ++ added ∧
    ∀ component ∈ added, component.IsQuiet
  rules : after.rules = before.rules
  books : after.books = before.books

namespace Grows

variable {store before middle after : RuleStore F}

theorem refl (store : RuleStore F) : store.Grows store := by
  exact ⟨⟨[], by simp⟩, rfl, rfl⟩

theorem trans (first : before.Grows middle) (second : middle.Grows after) :
    before.Grows after where
  components := by
    rcases first.components with ⟨early, earlyAdded, earlyQuiet⟩
    rcases second.components with ⟨late, lateAdded, lateQuiet⟩
    refine ⟨early ++ late, by rw [lateAdded, earlyAdded, List.append_assoc], ?_⟩
    intro component added
    rcases List.mem_append.1 added with added | added
    · exact earlyQuiet component added
    · exact lateQuiet component added
  rules := second.rules.trans first.rules
  books := second.books.trans first.books

theorem addComponent (store : RuleStore F) {component : Component F}
    (quiet : component.IsQuiet) : store.Grows (store.addComponent component).2 where
  components := by
    refine ⟨[component.bare], by simp [RuleStore.addComponent], ?_⟩
    intro other added
    rw [List.mem_singleton.1 added, Component.isQuiet_bare]
    exact quiet
  rules := rfl
  books := rfl

theorem setComponent {id : Nat} {found component : Component F}
    (present : store.component? id = some found) (same : component.bare = found.bare) :
    store.Grows (store.setComponent id component) where
  components := by
    refine ⟨[], ?_, by simp⟩
    rw [List.append_nil]
    apply List.ext_getElem?
    intro other
    simp only [RuleStore.setComponent, List.getElem?_map, List.getElem?_set]
    split
    · rename_i here
      subst here
      rcases List.getElem?_eq_some_iff.1 present with ⟨inside, here⟩
      simp [inside, here, same]
    · rfl
  rules := rfl
  books := rfl

/-- A component that was there is still there, up to the rules attached to it. -/
theorem component? (grows : before.Grows after) {id : Nat} {found : Component F}
    (present : before.component? id = some found) :
    ∃ grown, after.component? id = some grown ∧ grown.bare = found.bare := by
  rcases grows.components with ⟨added, same, -⟩
  have inside : id < (before.components.map Component.bare).length := by
    rw [List.length_map]
    exact (List.getElem?_eq_some_iff.1 present).1
  have there : (after.components.map Component.bare)[id]? = some found.bare := by
    rw [same, List.getElem?_append_left inside, List.getElem?_map]
    exact congrArg (Option.map Component.bare) present
  rw [List.getElem?_map, Option.map_eq_some_iff] at there
  exact there

theorem isQuiet (grows : before.Grows after) (quiet : before.IsQuiet) : after.IsQuiet := by
  intro id component present
  rcases grows.components with ⟨added, same, addedQuiet⟩
  have there : component.bare ∈ after.components.map Component.bare :=
    List.mem_map_of_mem (List.mem_of_getElem? present)
  rw [← Component.isQuiet_bare]
  rw [same] at there
  rcases List.mem_append.1 there with old | new
  · rcases List.mem_map.1 old with ⟨other, isOther, sameBare⟩
    rcases List.getElem?_of_mem isOther with ⟨place, found⟩
    rw [← sameBare, Component.isQuiet_bare]
    exact quiet place other found
  · exact addedQuiet _ new

/-! ## Rebuilding components -/

theorem loadEach
    {loadOne : Value → RuleStore F → Except Failure Nat × RuleStore F}
    (one : ∀ data (store : RuleStore F), store.Grows (loadOne data store).2) (items : List Value)
    (store : RuleStore F) : store.Grows (RuleStore.loadEach loadOne items store).2 := by
  induction items generalizing store with
  | nil =>
      exact refl store
  | cons data rest ih =>
      have first := one data store
      rw [RuleStore.loadEach]
      split
      · rename_i failed
        rw [failed] at first
        exact first
      · rename_i loaded
        rw [loaded] at first
        exact first.trans (ih _)

theorem loadList
    {loadOne : Value → RuleStore F → Except Failure Nat × RuleStore F}
    (one : ∀ data (store : RuleStore F), store.Grows (loadOne data store).2) (data : Value)
    (store : RuleStore F) : store.Grows (RuleStore.loadList loadOne data store).2 := by
  unfold RuleStore.loadList
  split
  · exact refl store
  · exact loadEach one _ store

theorem createWith
    {loadOne : Value → RuleStore F → Except Failure Nat × RuleStore F}
    (one : ∀ data (store : RuleStore F), store.Grows (loadOne data store).2) (base : Component F)
    (data : Value) (store : RuleStore F) :
    store.Grows (RuleStore.createWith loadOne base data store).2 := by
  have items := loadList one data store
  unfold RuleStore.createWith
  cases base with
  | triggerList _ | anyOf _ =>
      dsimp only
      split
      · rename_i failed
        rw [failed] at items
        exact items
      · rename_i loaded
        rw [loaded] at items
        exact items.trans (addComponent _ trivial)
  | inverted _ =>
      dsimp only
      split
      · exact refl store
      · rename_i inner _
        have first := one inner store
        split
        · rename_i failed
          rw [failed] at first
          exact first
        · rename_i loaded
          rw [loaded] at first
          exact first.trans (addComponent _ trivial)
  | paramCondition name test _ | paramAction name deed _ =>
      exact addComponent store trivial
  | eventTrigger | customTrigger | condition | action =>
      exact refl store

theorem loadWithin (index depth : Nat) (data : Value) (store : RuleStore F) :
    store.Grows (RuleStore.loadWithin index depth data store).2 := by
  induction depth generalizing data store with
  | zero =>
      exact refl store
  | succ depth ih =>
      rw [RuleStore.loadWithin]
      split
      · exact refl store
      · split
        · split
          · exact createWith ih _ _ store
          · exact refl store
        · exact refl store

/-! ## Listening -/

theorem tellAll {tellOne : ComponentRef → RuleStore F → Announced F}
    (one : ∀ trigger (store : RuleStore F), store.Grows (tellOne trigger store).2.2)
    (triggers : List ComponentRef) (store : RuleStore F) :
    store.Grows (RuleStore.tellAll tellOne triggers store).2.2 := by
  induction triggers generalizing store with
  | nil =>
      exact refl store
  | cons trigger rest ih =>
      have first := one trigger store
      rw [RuleStore.tellAll]
      split
      · rename_i failed
        rw [failed] at first
        exact first
      · rename_i told
        rw [told] at first
        exact first.trans (ih _)

theorem tellWithin (begins : Bool) (rule depth : Nat) (trigger : ComponentRef)
    (store : RuleStore F) :
    store.Grows (RuleStore.tellWithin begins rule depth trigger store).2.2 := by
  induction depth generalizing trigger store with
  | zero =>
      exact refl store
  | succ depth ih =>
      cases trigger with
      | none =>
          exact refl store
      | some id =>
          rw [RuleStore.tellWithin]
          split
          · rename_i found
            exact setComponent found rfl
          · exact refl store
          · exact tellAll ih _ store
          · exact refl store

end Grows

/-- Rebuilding a rule makes components, and a rule at the end if nothing fails. -/
theorem loadRule_cases [Validator] (store : RuleStore F) (index : Nat) (data : Value) :
    (∃ failure after, store.loadRule index data = (.error failure, after) ∧ store.Grows after) ∨
      ∃ middle rule, store.loadRule index data =
        (.ok middle.rules.length, (middle.addRule rule).2) ∧ store.Grows middle := by
  have each : ∀ items store, RuleStore.Grows (F := F) store (loadEach (fun data store =>
      store.loadComponent index data) items store).2 :=
    Grows.loadEach fun data store => Grows.loadWithin index _ data store
  unfold loadRule
  split
  · exact .inl ⟨_, store, rfl, Grows.refl store⟩
  · rename_i saved _
    have trigger : store.Grows (store.loadComponent index saved.trigger).2 :=
      Grows.loadWithin index _ _ store
    dsimp only
    split
    · rename_i failed
      rw [failed] at trigger
      exact .inl ⟨_, _, rfl, trigger⟩
    · rename_i withTrigger loaded
      rw [loaded] at trigger
      have conditions := each saved.conditions withTrigger
      split
      · rename_i failed
        rw [failed] at conditions
        exact .inl ⟨_, _, rfl, trigger.trans conditions⟩
      · rename_i withConditions loaded
        rw [loaded] at conditions
        have actions := each saved.actions withConditions
        split
        · rename_i failed
          rw [failed] at actions
          exact .inl ⟨_, _, rfl, trigger.trans (conditions.trans actions)⟩
        · rename_i withActions loaded
          rw [loaded] at actions
          exact .inr ⟨withActions, _, rfl, trigger.trans (conditions.trans actions)⟩

/-- The table goes on from another one: it is quiet if that one was, and every book
has its place. -/
structure Continues (before after : RuleStore F) : Prop where
  quiet : before.IsQuiet → after.IsQuiet
  place : ∀ index, (after.book index).place = (before.book index).place

theorem Grows.continues {before after : RuleStore F} (grows : before.Grows after) :
    before.Continues after where
  quiet := grows.isQuiet
  place index := by
    rw [book, book, grows.books]

namespace Continues

variable {store before middle after : RuleStore F}

theorem refl (store : RuleStore F) : store.Continues store := by
  exact ⟨id, fun _ => rfl⟩

theorem trans (first : before.Continues middle) (second : middle.Continues after) :
    before.Continues after where
  quiet := second.quiet ∘ first.quiet
  place index := (second.place index).trans (first.place index)

theorem addRule (store : RuleStore F) (rule : Rule) :
    store.Continues (store.addRule rule).2 := by
  exact ⟨id, fun _ => rfl⟩

theorem updateRule (store : RuleStore F) (rule : Nat) (change : Rule → Rule) :
    store.Continues (store.updateRule rule change) := by
  exact ⟨id, fun _ => rfl⟩

theorem updateBook (store : RuleStore F) (index : Nat) {change : RuleBook → RuleBook}
    (stays : ∀ book, (change book).place = book.place) :
    store.Continues (store.updateBook index change) where
  quiet quiet := quiet
  place other := by
    simp only [RuleStore.updateBook, RuleStore.book, List.getD_eq_getElem?_getD,
      List.getElem?_modify]
    cases store.books[other]? with
    | none =>
        rfl
    | some book =>
        by_cases same : index = other
        · simp [same, stays]
        · simp [same]

/-! ## Rebuilding saved rules -/

theorem loadRule [Validator] (store : RuleStore F) (index : Nat) (data : Value) :
    store.Continues (store.loadRule index data).2 := by
  rcases loadRule_cases store index data with ⟨_, after, failed, grows⟩ |
    ⟨middle, rule, loaded, grows⟩
  · rw [failed]
    exact grows.continues
  · rw [loaded]
    exact grows.continues.trans (addRule middle rule)

theorem register (store : RuleStore F) (index rule : Nat) :
    store.Continues (store.register index rule).2 := by
  unfold RuleStore.register
  dsimp only
  split
  · exact refl store
  · apply trans _ (updateRule _ _ _)
    exact updateBook store index fun _ => rfl

theorem adopt [Validator] (store : RuleStore F) (index : Nat) (data : Value) :
    store.Continues (store.adopt index data).2 := by
  have loading := loadRule store index data
  unfold RuleStore.adopt
  split
  · rename_i failed
    rw [failed] at loading
    exact loading
  · rename_i rule loaded found
    rw [found] at loading
    dsimp only
    split
    · exact loading
    · have registering := register loaded index rule
      split
      · rename_i failed
        rw [failed] at registering
        exact loading.trans registering
      · rename_i registered
        rw [registered] at registering
        exact loading.trans registering

/-! ## Finishing a rule -/

theorem enable (store : RuleStore F) (rule : Nat) :
    store.Continues (store.enable rule).2.2 := by
  unfold RuleStore.enable
  split
  · exact refl store
  · rename_i found _
    split
    · exact refl store
    · have telling : store.Continues (store.tell true rule found.trigger).2.2 :=
        (Grows.tellWithin true rule _ _ store).continues
      split
      · rename_i failed
        rw [failed] at telling
        exact telling
      · rename_i told
        rw [told] at telling
        exact telling.trans (updateRule _ _ _)

theorem create (store : RuleStore F) (rule : Nat) :
    store.Continues (store.create rule).2.2 := by
  unfold RuleStore.create
  split
  · exact refl store
  · split
    · exact refl store
    · exact enable store rule

end Continues

/-! ## Announcements -/

variable {store : RuleStore F}

theorem tellAll_silent {tellOne : ComponentRef → RuleStore F → Announced F}
    (grows : ∀ trigger (store : RuleStore F), store.Grows (tellOne trigger store).2.2)
    (silent : ∀ trigger (store : RuleStore F), store.IsQuiet → (tellOne trigger store).2.1 = [])
    (triggers : List ComponentRef) (quiet : store.IsQuiet) :
    (tellAll tellOne triggers store).2.1 = [] := by
  induction triggers generalizing store with
  | nil =>
      rfl
  | cons trigger rest ih =>
      have first := grows trigger store
      have nothing := silent trigger store quiet
      rw [tellAll]
      split
      · rename_i failed
        rw [failed] at nothing
        exact nothing
      · rename_i told
        rw [told] at first nothing
        dsimp only at nothing ⊢
        rw [nothing, ih (first.isQuiet quiet), List.append_nil]

theorem tellWithin_silent (begins : Bool) (rule depth : Nat) (trigger : ComponentRef)
    (quiet : store.IsQuiet) : (tellWithin begins rule depth trigger store).2.1 = [] := by
  induction depth generalizing trigger store with
  | zero =>
      rfl
  | succ depth ih =>
      cases trigger with
      | none =>
          rfl
      | some id =>
          rw [tellWithin]
          split
          · rfl
          · rename_i found
            exact (quiet id _ found).elim
          · exact tellAll_silent (Grows.tellWithin begins rule depth)
              (fun trigger _ quiet => ih trigger quiet) _ quiet
          · rfl

/-- Nothing is announced when a rule is finished in a quiet table. -/
theorem create_silent (rule : Nat) (quiet : store.IsQuiet) :
    (store.create rule).2.1 = [] := by
  unfold RuleStore.create
  split
  · rfl
  · rename_i found _
    split
    · rfl
    · unfold RuleStore.enable
      split
      · rfl
      · rename_i found _
        split
        · rfl
        · have nothing : (store.tell true rule found.trigger).2.1 = [] :=
            tellWithin_silent true rule _ _ quiet
          split
          · rename_i failed
            rw [failed] at nothing
            exact nothing
          · rename_i told
            rw [told] at nothing
            exact nothing

end RuleStore

end Steward
