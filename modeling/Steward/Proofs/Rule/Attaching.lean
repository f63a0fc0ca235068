import Mathlib.Data.List.Induction
import Steward.Proofs.Event.Ranking
import Steward.Proofs.Rule.Registry
import Steward.Rule.Firing

/-!
# How triggers are attached

The event triggers of a book come to the bus in two ways: connecting attaches those that stand in
the base of the book, and a component that is registered after that is attached at once.  A trigger
stays attached when another component takes its key.

Whatever is registered, however often the book is connected, the triggers that are attached to an
event are those that stood in the base at some moment since the first connection, each once, in the
order in which they came.  The book has one subscription to each event of such a trigger, and no
others (`BaseCall.Stands`).
-/

namespace Steward

variable {F H : Type}

namespace RuleStore

/-- The event of an event trigger. -/
def eventOf? (store : RuleStore F) (id : Nat) : Option String :=
  match store.component? id with
  | some (.eventTrigger _ event _ _) => some event
  | _ => none

/-- The triggers of a book that are attached to an event, in the order of attachment. -/
def attachedTo (store : RuleStore F) (index : Nat) (event : String) : List Nat :=
  ((store.book index).attached.get? event).getD []

/-- The components that saved rules of a book are rebuilt from. -/
def baseIds (store : RuleStore F) (index : Nat) : List Nat := (store.book index).base.values

end RuleStore

/-- Whether a listener fires the triggers of a book. -/
def Target.isOf (index : Nat) : Target F → Bool
  | .fireRules book _ => book == index
  | _ => false

/-- The subscriptions of a book to an event. -/
def World.subscriptions (world : World F H) (index : Nat) (event : String) :
    List (Listener (Target F)) :=
  (world.bus.listenersOf event).filter (·.target.isOf index)

/-! ## Observers -/

/-- An observer that never fails, and that leaves the bus and the rules alone. -/
structure IsDiscreet (tell : Observe F H) (observer : F) : Prop where
  willing : IsWilling tell observer
  sparesBus : SparesBus tell observer
  sparesRules : ∀ (event : String) (world : World F H),
    (tell observer event world).2.rules = world.rules

namespace World

variable {tell : Observe F H} {world : World F H} {index : Nat}

theorem tellObservers_rules {observers : List F} (event : String)
    (discreet : ∀ observer ∈ observers, IsDiscreet tell observer) (world : World F H) :
    (tellObservers tell event observers world).2.rules = world.rules := by
  induction observers generalizing world with
  | nil =>
      rfl
  | cons observer rest ih =>
      have first := (discreet observer List.mem_cons_self).sparesRules event world
      rw [tellObservers]
      split
      · rename_i told
        rw [ih fun other member => discreet other (List.mem_cons_of_mem _ member)]
        rw [← first, told]
      · exact first

theorem subscribe_rules (listener : Listener (Target F))
    (discreet : ∀ observer ∈ world.bus.observers, IsDiscreet tell observer) :
    (subscribe tell listener world).2.rules = world.rules := by
  have told := tellObservers_rules listener.event discreet
    { world with bus := world.bus.declare listener.event }
  unfold subscribe
  dsimp only
  split
  · rfl
  · split
    · rename_i answer
      rw [answer] at told
      exact told
    · exact told

/-- Where observers are discreet a new subscription places its listener and does no more. -/
theorem subscribeNew_of_discreet (event : String) (target : Target F)
    (discreet : ∀ observer ∈ world.bus.observers, IsDiscreet tell observer) :
    ∃ after, subscribeNew tell event target 0 none world =
        (.ok (), ⟨world.bus.nextListener, event, target, 0, none⟩, after) ∧
      after.rules = world.rules ∧ after.bus.observers = world.bus.observers ∧
      ∀ other, after.bus.listenersOf other =
        if other = event then
          Bus.place ⟨world.bus.nextListener, event, target, 0, none⟩ (world.bus.listenersOf other)
        else world.bus.listenersOf other := by
  let numbered : World F H :=
    { world with bus := { world.bus with nextListener := world.bus.nextListener + 1 } }
  let listener : Listener (Target F) := ⟨world.bus.nextListener, event, target, 0, none⟩
  have isDone : (subscribe tell listener numbered).1 = .ok () :=
    subscribe_of_willing listener fun observer member => (discreet observer member).willing
  have kept : (subscribe tell listener numbered).2.rules = world.rules :=
    subscribe_rules listener discreet
  have spare : ∀ observer ∈ numbered.bus.observers, SparesBus tell observer :=
    fun observer member => (discreet observer member).sparesBus
  rcases subscribe_bus listener spare with ⟨told, observers, -, others, added | ⟨failure, failed⟩⟩
  · rw [added] at kept
    refine ⟨{ told with bus := told.bus.add listener }, ?_, kept, observers, fun other => ?_⟩
    · unfold subscribeNew Bus.newListener
      dsimp only
      rw [added]
    · rw [Bus.listenersOf_add, others]
      rfl
  · rw [failed] at isDone
    cases isDone

end World

/-! ## Attaching -/

/-- Each trigger is attached once, and the book has one subscription to each event to which some are
attached. -/
structure World.IsTied (index : Nat) (world : World F H) : Prop where
  distinct : ∀ event, (world.rules.attachedTo index event).Nodup
  notEmpty : ∀ event, (world.rules.book index).attached.get? event ≠ some []
  free : ∀ event, world.rules.attachedTo index event = [] → world.subscriptions index event = []
  once : ∀ event, world.rules.attachedTo index event ≠ [] →
    ∃ id, world.subscriptions index event = [⟨id, event, .fireRules index event, 0, none⟩]

/-- Of some components those that are event triggers become attached behind those that are, and
nothing else of the book changes. -/
structure World.Joins (index : Nat) (ids : List Nat) (before after : World F H) : Prop where
  components : after.rules.components = before.rules.components
  books : after.rules.books.length = before.rules.books.length
  base : after.rules.baseIds index = before.rules.baseIds index
  connected : (after.rules.book index).connected = (before.rules.book index).connected
  observers : after.bus.observers = before.bus.observers
  mem : ∀ event id, id ∈ after.rules.attachedTo index event ↔
    id ∈ before.rules.attachedTo index event ∨ id ∈ ids ∧ before.rules.eventOf? id = some event
  grows : ∀ event, before.rules.attachedTo index event <+: after.rules.attachedTo index event
  tied : before.IsTied index → after.IsTied index

namespace World

variable {tell : Observe F H} {world before middle after : World F H} {index : Nat}
  {ids further : List Nat} {event : String} {id : Nat}

theorem eventOf?_of_components {store other : RuleStore F}
    (same : other.components = store.components) (id : Nat) :
    other.eventOf? id = store.eventOf? id := by
  rw [RuleStore.eventOf?, RuleStore.eventOf?, RuleStore.component?, RuleStore.component?, same]

namespace Joins

/-- Nothing happens if the triggers among the components are attached already. -/
theorem of_attached (attached : ∀ id ∈ ids, ∀ event, world.rules.eventOf? id = some event →
    id ∈ world.rules.attachedTo index event) : Joins index ids world world where
  components := rfl
  books := rfl
  base := rfl
  connected := rfl
  observers := rfl
  mem event id := by
    constructor
    · exact .inl
    · rintro (isAttached | ⟨isOne, isTrigger⟩)
      · exact isAttached
      · exact attached id isOne event isTrigger
  grows event := List.prefix_rfl
  tied := id

theorem trans (first : Joins index ids before middle) (second : Joins index further middle after) :
    Joins index (ids ++ further) before after where
  components := second.components.trans first.components
  books := second.books.trans first.books
  base := second.base.trans first.base
  connected := second.connected.trans first.connected
  observers := second.observers.trans first.observers
  mem event id := by
    rw [second.mem, first.mem, eventOf?_of_components first.components, List.mem_append, or_assoc,
      or_and_right]
  grows event := (first.grows event).trans (second.grows event)
  tied := second.tied ∘ first.tied

end Joins

/-! ### One trigger -/

/-- A trigger joins those of its event, to which there is one subscription then. -/
theorem Joins.concat {attached : OrderedMap String (List Nat)}
    (isTrigger : before.rules.eventOf? id = some event)
    (isNew : id ∉ before.rules.attachedTo index event)
    (components : after.rules.components = before.rules.components)
    (books : after.rules.books.length = before.rules.books.length)
    (observers : after.bus.observers = before.bus.observers)
    (book : after.rules.book index = { before.rules.book index with attached := attached })
    (lookup : ∀ other, attached.get? other =
      if event = other then some (before.rules.attachedTo index event ++ [id])
      else (before.rules.book index).attached.get? other)
    (others : ∀ other, event ≠ other →
      after.subscriptions index other = before.subscriptions index other)
    (own : before.IsTied index →
      ∃ id, after.subscriptions index event = [⟨id, event, .fireRules index event, 0, none⟩]) :
    Joins index [id] before after := by
  have here : after.rules.attachedTo index event = before.rules.attachedTo index event ++ [id] := by
    rw [RuleStore.attachedTo, book]
    dsimp only
    rw [lookup, if_pos rfl]
    rfl
  have there (other : String) (differs : event ≠ other) :
      after.rules.attachedTo index other = before.rules.attachedTo index other := by
    rw [RuleStore.attachedTo, book]
    dsimp only
    rw [lookup, if_neg differs]
    rfl
  refine ⟨components, books, ?_, ?_, observers, fun other trigger => ?_, fun other => ?_,
    fun tied => ⟨fun other => ?_, fun other => ?_, fun other none => ?_, fun other some => ?_⟩⟩
  · rw [RuleStore.baseIds, book]
    rfl
  · rw [book]
  · by_cases same : event = other
    · subst same
      rw [here, List.mem_append, List.mem_singleton]
      refine or_congr_right ⟨?_, And.left⟩
      rintro rfl
      exact ⟨rfl, isTrigger⟩
    · rw [there other same]
      refine (or_iff_left ?_).symm
      rintro ⟨isOne, isOther⟩
      rw [List.mem_singleton.1 isOne, isTrigger] at isOther
      exact same (Option.some.inj isOther)
  · by_cases same : event = other
    · subst same
      rw [here]
      exact List.prefix_append _ [id]
    · exact (there other same).symm ▸ List.prefix_rfl
  · by_cases same : event = other
    · subst same
      rw [here]
      exact List.nodup_append.2 ⟨tied.distinct event, List.pairwise_singleton _ id,
        fun one isOne new isNewOne same => isNew (List.mem_singleton.1 isNewOne ▸ same ▸ isOne)⟩
    · rw [there other same]
      exact tied.distinct other
  · rw [book]
    dsimp only
    rw [lookup]
    split
    · simp
    · exact tied.notEmpty other
  · have differs : event ≠ other := by
      rintro rfl
      rw [here] at none
      exact List.append_ne_nil_of_right_ne_nil _ (List.cons_ne_nil id []) none
    rw [there other differs] at none
    rw [others other differs, tied.free other none]
  · by_cases same : event = other
    · subst same
      exact own tied
    · rw [there other same] at some
      rw [others other same]
      exact tied.once other some

theorem filter_place_of_none {listener : Listener (Target F)}
    {listeners : List (Listener (Target F))} {isOne : Listener (Target F) → Bool}
    (none : listeners.filter isOne = [])
    (one : isOne listener = true) : (Bus.place listener listeners).filter isOne = [listener] := by
  induction listeners with
  | nil =>
      rw [Bus.place, List.filter_cons_of_pos one]
      rfl
  | cons first rest ih =>
      rw [Bus.place]
      split
      · rw [List.filter_cons_of_pos one, none]
      · rw [List.filter_cons] at none ⊢
        split at none
        · cases none
        · rename_i isOther
          rw [if_neg isOther]
          exact ih none

/-- A trigger joins those of its event without a new subscription. -/
theorem Joins.of_known (inside : index < world.rules.books.length)
    (isTrigger : world.rules.eventOf? id = some event)
    (known : (world.rules.book index).attached.get? event = some ids) (isNew : id ∉ ids) :
    Joins index [id] world { world with rules := world.rules.updateBook index fun book =>
      { book with attached := book.attached.insert event (ids ++ [id]) } } := by
  have isAttached : world.rules.attachedTo index event = ids := by
    rw [RuleStore.attachedTo, known]
    rfl
  refine .concat isTrigger (isAttached ▸ isNew) rfl (List.length_modify _ _ _) rfl
    (RuleStore.book_updateBook inside _) (fun other => ?_) (fun _ _ => rfl) fun tied => ?_
  · rw [OrderedMap.get?_insert, isAttached]
  · refine tied.once event ?_
    rw [isAttached]
    rintro rfl
    exact tied.notEmpty event known

/-- The first trigger of an event joins with a new subscription. -/
theorem attach_of_unknown (inside : index < world.rules.books.length)
    (discreet : ∀ observer ∈ world.bus.observers, IsDiscreet tell observer)
    (isTrigger : world.rules.eventOf? id = some event)
    (unknown : (world.rules.book index).attached.get? event = none) :
    ∃ after, attach tell index id event world = (.ok (), after) ∧ Joins index [id] world after := by
  let declared : World F H := { world with rules := world.rules.updateBook index fun book =>
    { book with attached := book.attached.insert event [] } }
  have stillDiscreet : ∀ observer ∈ declared.bus.observers, IsDiscreet tell observer := discreet
  rcases subscribeNew_of_discreet event (.fireRules index event) stillDiscreet with
    ⟨after, subscribed, rules, observers, listeners⟩
  refine ⟨{ after with rules := after.rules.updateBook index fun book =>
    { book with attached := book.attached.insert event [id] } }, ?_, ?_⟩
  · unfold attach
    rw [unknown]
    dsimp only
    rw [subscribed]
  · have isFirst : world.rules.attachedTo index event = [] := by
      rw [RuleStore.attachedTo, unknown]
      rfl
    have inside' : index < after.rules.books.length := by
      rw [rules]
      exact (List.length_modify _ _ _).symm ▸ inside
    have book : (after.rules.updateBook index fun book =>
        { book with attached := book.attached.insert event [id] }).book index =
        { world.rules.book index with
          attached := ((world.rules.book index).attached.insert event []).insert event [id] } := by
      rw [RuleStore.book_updateBook inside', rules, RuleStore.book_updateBook inside]
    refine .concat isTrigger (isFirst ▸ List.not_mem_nil) ?_ ?_ observers book (fun other => ?_)
      (fun other differs => ?_) fun tied => ⟨world.bus.nextListener, ?_⟩
    · have same : after.rules.components = declared.rules.components :=
        congrArg RuleStore.components rules
      exact same
    · exact (List.length_modify _ _ _).trans
        ((congrArg (·.books.length) rules).trans (List.length_modify _ _ _))
    · rw [OrderedMap.get?_insert, OrderedMap.get?_insert, isFirst]
      split
      · rfl
      · rfl
    · rw [subscriptions, subscriptions, listeners, if_neg (Ne.symm differs)]
    · rw [subscriptions, listeners, if_pos rfl]
      exact filter_place_of_none (tied.free event isFirst) (beq_self_eq_true index)

/-- Where observers are discreet a trigger can always be attached. -/
theorem attach_joins (inside : index < world.rules.books.length)
    (discreet : ∀ observer ∈ world.bus.observers, IsDiscreet tell observer)
    (isTrigger : world.rules.eventOf? id = some event) :
    ∃ after, attach tell index id event world = (.ok (), after) ∧ Joins index [id] world after := by
  cases known : (world.rules.book index).attached.get? event with
  | none =>
      exact attach_of_unknown inside discreet isTrigger known
  | some triggers =>
      unfold attach
      rw [known]
      dsimp only
      by_cases isAttached : triggers.contains id = true
      · refine ⟨world, by rw [if_pos isAttached], .of_attached fun other isOne found isFound => ?_⟩
        rw [List.mem_singleton.1 isOne] at isFound ⊢
        rw [Option.some.inj (isFound.symm.trans isTrigger), RuleStore.attachedTo, known]
        exact List.contains_iff_mem.1 isAttached
      · refine ⟨_, by rw [if_neg isAttached], .of_known inside isTrigger known ?_⟩
        exact fun isOne => isAttached (List.contains_iff_mem.2 isOne)

/-! ### All of some components -/

theorem attachAll_joins (inside : index < world.rules.books.length)
    (discreet : ∀ observer ∈ world.bus.observers, IsDiscreet tell observer) (ids : List Nat) :
    ∃ after, attachAll tell index ids world = (.ok (), after) ∧ Joins index ids world after := by
  induction ids generalizing world with
  | nil =>
      exact ⟨world, rfl, .of_attached fun id none => absurd none List.not_mem_nil⟩
  | cons id rest ih =>
      rw [attachAll]
      split
      · rename_i event _ _ found
        have isTrigger : world.rules.eventOf? id = some event := by
          rw [RuleStore.eventOf?, found]
        rcases attach_joins inside discreet isTrigger with ⟨middle, attaches, joins⟩
        rcases ih (joins.books ▸ inside) (joins.observers ▸ discreet) with ⟨after, goesOn, others⟩
        exact ⟨after, by rw [attaches]; exact goesOn, joins.trans others⟩
      · rename_i isOther
        have skips : Joins index [id] world world := by
          refine .of_attached fun other isOne event isTrigger => ?_
          rw [List.mem_singleton.1 isOne, RuleStore.eventOf?] at isTrigger
          split at isTrigger
          · rename_i found
            exact absurd found (isOther _ _ _ _)
          · cases isTrigger
        rcases ih inside discreet with ⟨after, goesOn, joins⟩
        exact ⟨after, goesOn, skips.trans joins⟩

end World

/-! ## Calls -/

/-- What is called on a book to have its triggers attached. -/
inductive BaseCall where
  | register (component : ComponentRef)
  | connect

namespace BaseCall

variable {tell : Observe F H} {world before after : World F H} {index : Nat}
  {calls : List BaseCall} {event : String} {id : Nat}

def run (tell : Observe F H) (index : Nat) : BaseCall → World F H → Except Failure Unit × World F H
  | .register component, world => world.registerBase tell index component
  | .connect, world => world.connect tell index

/-- Calls one after the other, whether they succeed or not. -/
def runAll (tell : Observe F H) (index : Nat) (calls : List BaseCall) (world : World F H) :
    World F H :=
  calls.foldl (fun world call => (call.run tell index world).2) world

theorem runAll_append (earlier later : List BaseCall) :
    runAll tell index (earlier ++ later) world =
      runAll tell index later (runAll tell index earlier world) := by
  exact List.foldl_append

/-- A call attaches the triggers that stand in the base, if the book is connected then. -/
structure Step (index : Nat) (call : BaseCall) (before after : World F H) : Prop where
  components : after.rules.components = before.rules.components
  books : after.rules.books.length = before.rules.books.length
  observers : after.bus.observers = before.bus.observers
  connected : (after.rules.book index).connected = true ↔
    (before.rules.book index).connected = true ∨ call = .connect
  grows : ∀ event, before.rules.attachedTo index event <+: after.rules.attachedTo index event
  tied : before.IsTied index → after.IsTied index
  mem : ((before.rules.book index).connected = true → ∀ id ∈ before.rules.baseIds index, ∀ event,
      before.rules.eventOf? id = some event → id ∈ before.rules.attachedTo index event) →
    ∀ event id, id ∈ after.rules.attachedTo index event ↔
      id ∈ before.rules.attachedTo index event ∨
        (after.rules.book index).connected = true ∧ id ∈ after.rules.baseIds index ∧
          before.rules.eventOf? id = some event

/-- A call that changes nothing is no step forward, unless it connects. -/
theorem Step.refl (call : BaseCall) (registers : call ≠ .connect) :
    Step index call world world where
  components := rfl
  books := rfl
  observers := rfl
  connected := by
    rw [or_iff_left registers]
  grows event := List.prefix_rfl
  tied := id
  mem attached event id := by
    refine (or_iff_left_of_imp ?_).symm
    rintro ⟨isConnected, isBase, isTrigger⟩
    exact attached isConnected id isBase event isTrigger

/-- Marks on a book that leave what is attached leave its ties. -/
theorem tied_of_same (bus : after.bus = before.bus)
    (same : (after.rules.book index).attached = (before.rules.book index).attached)
    (tied : before.IsTied index) : after.IsTied index := by
  have attached : after.rules.attachedTo index = before.rules.attachedTo index := by
    funext event
    rw [RuleStore.attachedTo, same]
    rfl
  have subscriptions : after.subscriptions index = before.subscriptions index := by
    funext event
    rw [World.subscriptions, bus]
    rfl
  refine ⟨?_, ?_, ?_, ?_⟩
  · rw [attached]
    exact tied.distinct
  · rw [same]
    exact tied.notEmpty
  · rw [attached, subscriptions]
    exact tied.free
  · rw [attached, subscriptions]
    exact tied.once

/-- A call marks the book and then attaches some components, all of which stand in the base, or does
not attach any as the book is not connected. -/
theorem Step.of_joins {call : BaseCall} (marked : World F H) {ids : List Nat}
    (components : marked.rules.components = before.rules.components)
    (books : marked.rules.books.length = before.rules.books.length)
    (bus : marked.bus = before.bus)
    (same : (marked.rules.book index).attached = (before.rules.book index).attached)
    (connected : (marked.rules.book index).connected = true ↔
      (before.rules.book index).connected = true ∨ call = .connect)
    (joins : World.Joins index ids marked after)
    (covered : ∀ id ∈ ids,
      (marked.rules.book index).connected = true ∧ id ∈ marked.rules.baseIds index)
    (others : (marked.rules.book index).connected = true → ∀ id ∈ marked.rules.baseIds index,
      id ∈ ids ∨ (before.rules.book index).connected = true ∧ id ∈ before.rules.baseIds index) :
    Step index call before after := by
  have attached (event : String) :
      marked.rules.attachedTo index event = before.rules.attachedTo index event := by
    rw [RuleStore.attachedTo, same]
    rfl
  refine ⟨joins.components.trans components, joins.books.trans books,
    joins.observers.trans (congrArg (·.observers) bus), ?_, fun event => ?_, fun tied => ?_,
    fun all event id => ?_⟩
  · rw [joins.connected]
    exact connected
  · rw [← attached]
    exact joins.grows event
  · exact joins.tied (tied_of_same bus same tied)
  · rw [joins.mem, attached, World.eventOf?_of_components components, joins.connected, joins.base]
    constructor
    · rintro (isAttached | ⟨isOne, isTrigger⟩)
      · exact .inl isAttached
      · exact .inr ⟨(covered id isOne).1, (covered id isOne).2, isTrigger⟩
    · rintro (isAttached | ⟨isConnected, isBase, isTrigger⟩)
      · exact .inl isAttached
      · rcases others isConnected id isBase with isOne | ⟨wasConnected, wasBase⟩
        · exact .inr ⟨isOne, isTrigger⟩
        · exact .inl (all wasConnected id wasBase event isTrigger)

theorem run_connect (inside : index < world.rules.books.length)
    (discreet : ∀ observer ∈ world.bus.observers, IsDiscreet tell observer) :
    Step index .connect world (run tell index .connect world).2 := by
  let marked : World F H := { world with
    rules := world.rules.updateBook index fun book => { book with connected := true } }
  have book := RuleStore.book_updateBook inside fun book => { book with connected := true }
  have books : marked.rules.books.length = world.rules.books.length := List.length_modify _ _ _
  have stillInside : index < marked.rules.books.length := books.symm ▸ inside
  have stillDiscreet : ∀ observer ∈ marked.bus.observers, IsDiscreet tell observer := discreet
  rcases World.attachAll_joins stillInside stillDiscreet (marked.rules.baseIds index) with
    ⟨after, attaches, joins⟩
  have result : (run tell index .connect world).2 = after := congrArg Prod.snd attaches
  have isConnected : (marked.rules.book index).connected = true := congrArg (·.connected) book
  rw [result]
  exact .of_joins marked rfl books rfl (congrArg (·.attached) book)
    (iff_of_true isConnected (.inr rfl)) joins (fun id isBase => ⟨isConnected, isBase⟩)
    fun _ id isBase => .inl isBase

theorem run_register (inside : index < world.rules.books.length)
    (discreet : ∀ observer ∈ world.bus.observers, IsDiscreet tell observer)
    (component : ComponentRef) :
    Step index (.register component) world (run tell index (.register component) world).2 := by
  rw [run]
  unfold World.registerBase
  split
  · exact .refl _ (by simp)
  · rename_i id
    split
    · exact .refl _ (by simp)
    · rename_i found isFound
      split
      · exact .refl _ (by simp)
      · let marked : World F H := { world with rules := world.rules.updateBook index fun book =>
          { book with base := book.base.insert found.key id } }
        have book := RuleStore.book_updateBook inside fun book =>
          { book with base := book.base.insert found.key id }
        have books : marked.rules.books.length = world.rules.books.length :=
          List.length_modify _ _ _
        have base : marked.rules.baseIds index =
            ((world.rules.book index).base.insert found.key id).values :=
          congrArg (·.base.values) book
        have same : (marked.rules.book index).connected = (world.rules.book index).connected :=
          congrArg (·.connected) book
        have connected : (marked.rules.book index).connected = true ↔
            (world.rules.book index).connected = true ∨ BaseCall.register (some id) = .connect := by
          rw [same, or_iff_left (by simp)]
        dsimp only
        split
        · rename_i isConnected
          have stillInside : index < marked.rules.books.length := books.symm ▸ inside
          have stillDiscreet : ∀ observer ∈ marked.bus.observers, IsDiscreet tell observer :=
            discreet
          rcases World.attachAll_joins stillInside stillDiscreet [id] with ⟨after, attaches, joins⟩
          have result := congrArg Prod.snd attaches
          refine result ▸ .of_joins marked rfl books rfl (congrArg (·.attached) book) connected
            joins (fun one isOne => ⟨isConnected, ?_⟩) fun _ one isBase => ?_
          · rw [List.mem_singleton.1 isOne, base]
            exact OrderedMap.mem_values_insert_self _ _ _
          · rw [base] at isBase
            refine (OrderedMap.of_mem_values_insert isBase).imp ?_
              fun wasBase => ⟨same ▸ isConnected, wasBase⟩
            exact List.mem_singleton.2
        · rename_i notConnected
          exact .of_joins marked rfl books rfl (congrArg (·.attached) book) connected
            (.of_attached fun one none => absurd none List.not_mem_nil)
            (fun one none => absurd none List.not_mem_nil)
            fun isConnected => absurd isConnected notConnected

theorem run_step (inside : index < world.rules.books.length)
    (discreet : ∀ observer ∈ world.bus.observers, IsDiscreet tell observer) (call : BaseCall) :
    Step index call world (call.run tell index world).2 := by
  cases call with
  | register component =>
      exact run_register inside discreet component
  | connect =>
      exact run_connect inside discreet

/-! ### All calls -/

/-- A trigger of an event stood in the base of the book at some moment since the first connection.
-/
def HasStood (tell : Observe F H) (index : Nat) (world : World F H) (calls : List BaseCall)
    (event : String) (id : Nat) : Prop :=
  world.rules.eventOf? id = some event ∧ ∃ earlier later, calls = earlier ++ later ∧
    .connect ∈ earlier ∧ id ∈ (runAll tell index earlier world).rules.baseIds index

theorem hasStood_concat {call : BaseCall} :
    HasStood tell index world (calls ++ [call]) event id ↔
      HasStood tell index world calls event id ∨
        .connect ∈ calls ++ [call] ∧
          id ∈ (runAll tell index (calls ++ [call]) world).rules.baseIds index ∧
          world.rules.eventOf? id = some event := by
  constructor
  · rintro ⟨isTrigger, earlier, later, isAll, connects, stands⟩
    rcases List.eq_nil_or_concat later with rfl | ⟨later, last, rfl⟩
    · rw [List.append_nil] at isAll
      exact .inr ⟨isAll ▸ connects, isAll ▸ stands, isTrigger⟩
    · rw [List.concat_eq_append, ← List.append_assoc] at isAll
      exact .inl ⟨isTrigger, earlier, later, (List.append_inj' isAll rfl).1, connects, stands⟩
  · rintro (⟨isTrigger, earlier, later, rfl, connects, stands⟩ | ⟨connects, stands, isTrigger⟩)
    · exact ⟨isTrigger, earlier, later ++ [call], List.append_assoc .., connects, stands⟩
    · exact ⟨isTrigger, calls ++ [call], [], (List.append_nil _).symm, connects, stands⟩

/-- What calls have made of a book that had nothing to do with the bus. -/
structure Stands (tell : Observe F H) (index : Nat) (world : World F H) (calls : List BaseCall)
    (after : World F H) : Prop where
  components : after.rules.components = world.rules.components
  inside : index < after.rules.books.length
  observers : after.bus.observers = world.bus.observers
  connected : (after.rules.book index).connected = true ↔ .connect ∈ calls
  stood : ∀ event id, id ∈ after.rules.attachedTo index event ↔
    HasStood tell index world calls event id
  tied : after.IsTied index

end BaseCall

/-- A book that is not connected has no triggers attached and no subscriptions. -/
structure World.IsApart (index : Nat) (world : World F H) : Prop where
  inside : index < world.rules.books.length
  unconnected : (world.rules.book index).connected = false
  unattached : (world.rules.book index).attached = .empty
  free : ∀ event, world.subscriptions index event = []

namespace BaseCall

variable {tell : Observe F H} {world after : World F H} {index : Nat} {calls : List BaseCall}
  {event : String} {id : Nat}

theorem Stands.begin (apart : world.IsApart index) : Stands tell index world [] world := by
  have none (event : String) : world.rules.attachedTo index event = [] := by
    rw [RuleStore.attachedTo, apart.unattached]
    rfl
  refine ⟨rfl, apart.inside, rfl, ?_, fun event id => ?_, fun event => ?_, fun event => ?_,
    fun event _ => apart.free event, fun event some => absurd (none event) some⟩
  · rw [apart.unconnected]
    simp
  · rw [none]
    refine iff_of_false List.not_mem_nil ?_
    rintro ⟨-, earlier, later, isAll, connects, -⟩
    rw [(List.append_eq_nil_iff.1 isAll.symm).1] at connects
    cases connects
  · rw [none]
    exact List.nodup_nil
  · rw [apart.unattached, OrderedMap.get?_empty]
    simp

/-- Each call keeps what was so before it. -/
theorem Stands.run (discreet : ∀ observer ∈ world.bus.observers, IsDiscreet tell observer)
    (stands : Stands tell index world calls (runAll tell index calls world)) (call : BaseCall) :
    Stands tell index world (calls ++ [call]) (runAll tell index (calls ++ [call]) world) := by
  have step := run_step stands.inside (stands.observers ▸ discreet) call
  have isNext : (call.run tell index (runAll tell index calls world)).2 =
      runAll tell index (calls ++ [call]) world := (runAll_append calls [call]).symm
  rw [isNext] at step
  have connected : ((runAll tell index (calls ++ [call]) world).rules.book index).connected = true ↔
      .connect ∈ calls ++ [call] := by
    rw [step.connected, stands.connected, List.mem_append, List.mem_singleton]
    exact or_congr_right eq_comm
  refine ⟨step.components.trans stands.components, step.books.symm ▸ stands.inside,
    step.observers.trans stands.observers, connected, fun event id => ?_, step.tied stands.tied⟩
  have same (id : Nat) :
      (runAll tell index calls world).rules.eventOf? id = world.rules.eventOf? id :=
    World.eventOf?_of_components stands.components id
  rw [step.mem, stands.stood, hasStood_concat, connected, same]
  intro isConnected id isBase event isTrigger
  exact (stands.stood event id).2 ⟨same id ▸ isTrigger, calls, [], (List.append_nil _).symm,
    stands.connected.1 isConnected, isBase⟩

theorem runAll_stands (apart : world.IsApart index)
    (discreet : ∀ observer ∈ world.bus.observers, IsDiscreet tell observer)
    (calls : List BaseCall) :
    Stands tell index world calls (runAll tell index calls world) := by
  induction calls using List.reverseRecOn with
  | nil =>
      exact .begin apart
  | append_singleton calls call ih =>
      exact ih.run discreet call

/-- The triggers of an event stay attached, in their order, and others come behind them. -/
theorem runAll_grows (apart : world.IsApart index)
    (discreet : ∀ observer ∈ world.bus.observers, IsDiscreet tell observer)
    (earlier later : List BaseCall) (event : String) :
    (runAll tell index earlier world).rules.attachedTo index event <+:
      (runAll tell index (earlier ++ later) world).rules.attachedTo index event := by
  induction later using List.reverseRecOn with
  | nil =>
      exact (List.append_nil earlier).symm ▸ List.prefix_rfl
  | append_singleton later call ih =>
      have stands := runAll_stands apart discreet (earlier ++ later)
      have step := run_step stands.inside (stands.observers ▸ discreet) call
      rw [← List.append_assoc, runAll_append (earlier ++ later)]
      exact ih.trans (step.grows event)

end BaseCall

end Steward
