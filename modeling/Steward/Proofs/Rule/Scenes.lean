import Mathlib.Logic.Relation
import Steward.Proofs.Rule.Firings
import Steward.Proofs.Rule.Keeping
import Steward.Proofs.Rule.Retiring

/-!
# Firings and calls together

Firings run in pieces, among other firings that wait and among calls that build, finish, enable,
disable and destroy rules; their actions make such calls themselves.  A `Scene` is the firing that
runs, those that wait, and the world.  In every scene that is reached, at every instruction of a
firing, the rules attached to event triggers are those that are enabled and whose triggers they occur
in, and a rule that was destroyed takes part in nothing any more.

A trigger is only given to a rule that does not listen, a rule that is finished or enabled has a
trigger of events, and no list is extended in a trigger that a rule listens to.  Nothing else is asked
of calls, firings and callbacks, but that no rule is put into a book or taken out of it by hand.
-/

namespace Steward

variable {F H : Type}

namespace RuleStore

variable {store before after : RuleStore F}

/-! ## One step -/

/-- Components and books are added to a table or changed.  A list of triggers is extended while no
rule listens to it. -/
inductive Furthers : RuleStore F → RuleStore F → Prop where
  | made {store : RuleStore F} {component : Component F} (silent : component.listeners = []) :
      Furthers store (store.addComponent component).2
  | extended {store : RuleStore F} {id : Nat} {triggers : List ComponentRef}
      (present : store.component? id = some (.triggerList triggers)) (more : List ComponentRef)
      (unheard : ∀ rule reference, store.listensTo? rule = some reference →
        ¬ store.OccursIn id reference) :
      Furthers store (store.setComponent id (.triggerList (triggers ++ more)))
  | widened {store : RuleStore F} {id : Nat} {conditions : List ComponentRef}
      (present : store.component? id = some (.anyOf conditions)) (more : List ComponentRef) :
      Furthers store (store.setComponent id (.anyOf (conditions ++ more)))
  | opened {store : RuleStore F} (place : Option DataPlace) :
      Furthers store (store.openBook place).2
  | registered {store : RuleStore F} {id : Nat} {found : Component F} (index : Nat)
      (present : store.component? id = some found) :
      Furthers store (store.updateBook index fun book =>
        { book with base := book.base.insert found.key id })
  | attached {store : RuleStore F} (index : Nat) (connected : Bool)
      (attached : OrderedMap String (List Nat)) :
      Furthers store (store.updateBook index fun book =>
        { book with connected := connected, attached := attached })

/-- What is attached to the triggers of a table is exact, and its books are tidy. -/
structure InOrder (store : RuleStore F) : Prop where
  exact : store.IsExact
  tidy : store.IsTidy

namespace InOrder

theorem furthers (inOrder : before.InOrder) (furthers : before.Furthers after) :
    after.InOrder ∧ before.Upholds after := by
  cases furthers with
  | made silent =>
      exact ⟨⟨inOrder.exact.append rfl (by simpa using silent) rfl, inOrder.tidy.addComponent _⟩,
        .of_rules rfl⟩
  | extended present more unheard =>
      refine ⟨⟨?_, inOrder.tidy.setComponent present rfl⟩, .of_rules rfl⟩
      apply inOrder.exact.setComponent present
      · rintro ⟨name, event, mapper, rules, isEvent⟩
        cases present.symm.trans isEvent
      · intro name event mapper rules same
        cases same
      · exact unheard
  | widened present more =>
      refine ⟨⟨?_, inOrder.tidy.setComponent present rfl⟩, .of_rules rfl⟩
      apply inOrder.exact.setComponent present
      · rintro ⟨name, event, mapper, rules, isEvent⟩
        cases present.symm.trans isEvent
      · intro name event mapper rules same
        cases same
      · intro rule reference listens occurs
        rcases (inOrder.exact.eventful listens).exists_of_occursIn occurs with
          ⟨found, presentToo, isTrigger⟩
        cases present.symm.trans presentToo
        cases isTrigger
  | opened place =>
      exact ⟨⟨inOrder.exact.openBook place, inOrder.tidy.openBook place⟩, .of_rules rfl⟩
  | registered index present =>
      refine ⟨⟨inOrder.exact.retouched (.updateBook _ index _), ?_⟩, .of_rules rfl⟩
      apply inOrder.tidy.updateBook
      · intro inside
        exact (inOrder.tidy.registry index inside).addBase present
      · exact id
  | attached index connected attached =>
      refine ⟨⟨inOrder.exact.retouched (.updateBook _ index _), ?_⟩, .of_rules rfl⟩
      apply inOrder.tidy.updateBook
      · intro inside
        exact (inOrder.tidy.registry index inside).updateBook (fun _ => rfl) (fun _ => rfl)
          (fun _ => rfl) fun _ => Int.le_refl _
      · exact id

end InOrder

end RuleStore

/-- A call that leaves a book in order: none that registers a rule of another book, that takes a rule
off the tables without destroying it, or that loads a document. -/
def RuleCall.Fits (index : Nat) (store : RuleStore F) : RuleCall → Prop
  | .onBook (.register _) | .onBook (.unregister _) | .onBook .load => False
  | .onBook .build => index < store.books.length
  | .onBook (.rename rule _) | .onBook (.persist rule _) =>
    ∃ found, store.rule? rule = some found ∧ found.book = index
  | .onBook (.create rule) | .enable rule => store.CanListen rule
  | .setTrigger rule _ => ∀ found, store.rule? rule = some found → found.enabled = false
  | _ => True

namespace World

open RuleStore

variable {told : Told F H} {world before middle after : World F H}

/-- A step of the world that is in order: a call, the end of a rule that has fired, work on components
and books, or something that is none of the rules' concern. -/
inductive Moves (told : Told F H) : World F H → World F H → Prop where
  | called {world : World F H} {index : Nat} {call : RuleCall}
      (fits : call.Fits index world.rules) : Moves told world (call.run told index world).2
  | settled {world : World F H} (rule : Nat) :
      Moves told world (world.change told (·.settleLifetime rule)).2
  | furthered {before after : World F H} (furthers : before.rules.Furthers after.rules) :
      Moves told before after
  | apart {before after : World F H} (same : after.rules = before.rules) : Moves told before after

/-- Any number of steps. -/
abbrev MovesOn (told : Told F H) : World F H → World F H → Prop :=
  Relation.ReflTransGen (Moves told)

/-- Where nothing is announced, a change of the rules is no more than that. -/
theorem change_of_silent {f : RuleStore F → Announced F} (silent : (f world.rules).2.1 = []) :
    (world.change told f).2.rules = (f world.rules).2.2 := by
  rw [change]
  generalize f world.rules = result at silent ⊢
  rcases result with ⟨outcome, announced, rules⟩
  cases silent
  rfl

theorem change_inOrder {f : RuleStore F → Announced F} (exact : StaysExact (f world.rules))
    (tidy : (f world.rules).2.2.IsTidy) (upholds : world.rules.Upholds (f world.rules).2.2) :
    (world.change told f).2.rules.InOrder ∧ world.rules.Upholds (world.change told f).2.rules := by
  rw [change_of_silent exact.silent]
  exact ⟨⟨exact.exact, tidy⟩, upholds⟩

/-- A call leaves the rules in order, and what is destroyed destroyed. -/
theorem called_inOrder {index : Nat} (inOrder : world.rules.InOrder) {call : RuleCall}
    (fits : call.Fits index world.rules) :
    (call.run told index world).2.rules.InOrder ∧
      world.rules.Upholds (call.run told index world).2.rules := by
  have exact := inOrder.exact
  have tidy := inOrder.tidy
  have retouched : ∀ {after : World F H}, world.rules.Retouches after.rules →
      after.rules.IsTidy → after.rules.InOrder ∧ world.rules.Upholds after.rules :=
    fun retouches tidy => ⟨⟨exact.retouched retouches, tidy⟩, retouches.upholds⟩
  cases call with
  | onBook call =>
      cases call with
      | register | unregister | load =>
          exact fits.elim
      | newId =>
          exact retouched (.newId _ index) (tidy.newId index)
      | build =>
          exact retouched (.build _ index) (tidy.build fits)
      | rename rule name =>
          rcases fits with ⟨found, present, home⟩
          exact retouched (.rename _ index rule name) (tidy.rename present home name)
      | persist rule name =>
          rcases fits with ⟨found, present, -⟩
          exact retouched (.persist _ rule name) (tidy.persist present name)
      | create rule =>
          exact change_inOrder (exact.create fits) (tidy.create rule) (.create _ rule)
      | destroy rule =>
          exact change_inOrder (exact.destroy rule) (tidy.destroy rule) (.destroy _ rule)
      | remove key =>
          have removed := exact.remove index key
          exact change_inOrder ⟨removed.1, removed.2⟩ (tidy.remove index key) (.remove _ index key)
  | setLifetime rule lifetime =>
      exact retouched (.setLifetime _ rule lifetime)
        (tidy.edit rule (fun _ => rfl) (fun _ => rfl) (fun _ => rfl) (fun _ => rfl) fun _ => rfl)
  | setTrigger rule trigger =>
      exact ⟨⟨exact.setTrigger trigger fits, tidy.setTrigger rule trigger⟩,
        .setTrigger _ rule trigger⟩
  | addCondition rule condition =>
      exact retouched (.addCondition _ rule condition) (tidy.addCondition rule condition)
  | addAction rule action =>
      exact retouched (.addAction _ rule action) (tidy.addAction rule action)
  | enable rule =>
      exact change_inOrder (exact.enable fits) (tidy.enable rule) (.enable _ rule)
  | disable rule =>
      exact change_inOrder (exact.disable rule) (tidy.disable rule) (.disable _ rule)

theorem Moves.inOrder (moves : Moves told before after) (inOrder : before.rules.InOrder) :
    after.rules.InOrder ∧ before.rules.Upholds after.rules := by
  cases moves with
  | called fits =>
      exact called_inOrder inOrder fits
  | settled rule =>
      exact change_inOrder (inOrder.exact.settleLifetime rule) (inOrder.tidy.settleLifetime rule)
        (.settleLifetime _ rule)
  | furthered furthers =>
      exact inOrder.furthers furthers
  | apart same =>
      rw [same]
      exact ⟨inOrder, .refl _⟩

theorem MovesOn.inOrder (moves : MovesOn told before after) (inOrder : before.rules.InOrder) :
    after.rules.InOrder ∧ before.rules.Upholds after.rules := by
  induction moves with
  | refl =>
      exact ⟨inOrder, .refl _⟩
  | tail _ last ih =>
      rcases last.inOrder ih.1 with ⟨inOrderToo, upholds⟩
      exact ⟨inOrderToo, ih.2.trans upholds⟩

end World

/-! ## Firings -/

/-- The callbacks of conditions and actions change the world by such steps only. -/
structure Callbacks.Abide (callbacks : Callbacks F H) (reach : Reach F H) : Prop where
  test : ∀ name arguments parameters (world : World F H),
    World.MovesOn callbacks.told world (callbacks.test name arguments parameters world).2
  act : ∀ name arguments parameters (world : World F H),
    (callbacks.act reach name arguments parameters).run.ChangesBy (World.MovesOn callbacks.told)
      world

theorem Course.changes_seq {σ J α β : Type} {allowed : σ → σ → Prop} {first : Course σ J α}
    {next : α → Course σ J β} {now : σ} (changes : first.run.ChangesBy allowed now)
    (goesOn : ∀ value now, (next value).run.ChangesBy allowed now) :
    (first >>= next).run.ChangesBy allowed now := by
  apply Activity.ChangesBy.bind changes
  rintro (interrupt | value) now
  · trivial
  · exact goesOn value now

theorem Course.changes_ofExcept {σ J α β : Type} {allowed : σ → σ → Prop}
    {outcome : Except Failure α} {next : α → Course σ J β} {now : σ}
    (goesOn : ∀ value, (next value).run.ChangesBy allowed now) :
    (Course.ofExcept outcome >>= next).run.ChangesBy allowed now := by
  cases outcome with
  | error failure =>
      trivial
  | ok value =>
      exact goesOn value

namespace World

variable {callbacks : Callbacks F H} {reach : Reach F H} {arguments : Value}

theorem begin_moves (abide : callbacks.Abide reach) (id : Nat) (world : World F H) :
    MovesOn callbacks.told world (begin callbacks id arguments world).2 := by
  unfold begin
  split
  · exact .refl
  · rename_i rule _
    split
    · exact .refl
    · have tested : MovesOn callbacks.told world
          (allHold callbacks arguments rule.conditions world).2 :=
        allHold_along (fun _ => .refl) .trans abide.test rule.conditions world
      split
      · rename_i held
        rw [held] at tested
        exact tested.tail (.settled id)
      · exact tested

end World

namespace Firing

open RuleStore

variable {callbacks : Callbacks F H} {reach : Reach F H} {arguments : Value}

theorem keepPromise_changes (promise : TaskId) (arguments : Value) (world : World F H) :
    (keepPromise promise arguments : WorldCourse F H Unit).run.ChangesBy
      (World.MovesOn callbacks.told) world := by
  rintro (_ | kept)
  · cases arguments with
    | occasion =>
        apply Course.changes_ofExcept
        intro emoji
        trivial
    | _ =>
        trivial
  · trivial

theorem request_changes (outcome : Except Failure Request) (world : World F H) :
    (do
      let request ← Course.ofExcept outcome
      Course.modify (enter (.request request)) : WorldCourse F H Unit).run.ChangesBy
        (World.MovesOn callbacks.told) world := by
  apply Course.changes_ofExcept
  intro request
  exact ⟨.single (.apart rfl), trivial⟩

theorem runDeed_changes (abide : callbacks.Abide reach) (deed : Deed F) (parameters : Parameters)
    (world : World F H) : (runDeed callbacks reach deed arguments parameters).run.ChangesBy
      (World.MovesOn callbacks.told) world := by
  cases deed with
  | custom name =>
      apply Course.changes_seq (abide.act name arguments parameters world)
      intro answer now
      trivial
  | answer promise =>
      exact keepPromise_changes promise arguments world
  | giveRole | removeRole | react =>
      exact request_changes _ world

theorem runAction_changes (abide : callbacks.Abide reach) (action : ComponentRef)
    (world : World F H) : (runAction callbacks reach action arguments).run.ChangesBy
      (World.MovesOn callbacks.told) world := by
  rw [runAction]
  apply Course.changes_seq
  · trivial
  · intro found now
    split
    · exact runDeed_changes abide _ _ now
    · exact runDeed_changes abide _ _ now
    · trivial

theorem runActionsFrom_changes (abide : callbacks.Abide reach) (id fuel place : Nat)
    (world : World F H) : (runActionsFrom callbacks reach id arguments fuel place).run.ChangesBy
      (World.MovesOn callbacks.told) world := by
  induction fuel generalizing place world with
  | zero =>
      rw [runActionsFrom]
      apply Course.changes_seq
      · trivial
      · intro next now
        split <;> trivial
  | succ fuel ih =>
      rw [runActionsFrom]
      apply Course.changes_seq
      · trivial
      · intro next now
        split
        · trivial
        · apply Course.changes_seq (runAction_changes abide _ now)
          intro done later
          exact ih (place + 1) later

theorem fireRule_changes (abide : callbacks.Abide reach) (id : Nat) (arguments : Value)
    (world : World F H) : (fireRule callbacks reach id arguments).run.ChangesBy
      (World.MovesOn callbacks.told) world := by
  rw [fireRule]
  apply Course.changes_seq
  · exact ⟨World.begin_moves abide id world, trivial⟩
  · intro fires now
    split
    · apply Course.changes_seq
      · trivial
      · intro count later
        apply Course.changes_seq (runActionsFrom_changes abide id _ 0 later)
        intro done last
        trivial
    · trivial

theorem forEach_changes {α : Type} {allowed : World F H → World F H → Prop}
    {f : α → WorldCourse F H Unit} (each : ∀ item world, (f item).run.ChangesBy allowed world)
    (items : List α) (world : World F H) : (Course.forEach items f).run.ChangesBy allowed world := by
  induction items generalizing world with
  | nil =>
      trivial
  | cons item rest ih =>
      apply Course.changes_seq (each item world)
      intro done now
      exact ih now

theorem fireTrigger_changes (abide : callbacks.Abide reach) (trigger : ComponentRef)
    (arguments : List Value) (world : World F H) :
    (fireTrigger callbacks reach trigger arguments).run.ChangesBy (World.MovesOn callbacks.told)
      world := by
  rw [fireTrigger]
  apply Course.changes_seq
  · trivial
  · intro found now
    split
    · apply Course.changes_ofExcept
      intro mapped
      apply forEach_changes
      intro rule later
      apply Course.changes_seq (fireRule_changes abide rule mapped later)
      intro fired last
      trivial
    · trivial

theorem fireAttached_changes (abide : callbacks.Abide reach) (book : Nat) (event : String)
    (arguments : List Value) (world : World F H) :
    (fireAttached callbacks reach book event arguments).run.ChangesBy
      (World.MovesOn callbacks.told) world := by
  rw [fireAttached]
  apply Course.changes_seq
  · trivial
  · intro triggers now
    apply forEach_changes
    intro trigger later
    exact fireTrigger_changes abide (some trigger) arguments later

/-! ## Scenes -/

/-- What fires rules: somebody who fires one, a trigger, or an event. -/
inductive Shot where
  | ofRule (id : Nat) (arguments : Value)
  | ofTrigger (trigger : ComponentRef) (arguments : List Value)
  | ofEvent (book : Nat) (event : String) (arguments : List Value)

def Shot.course (callbacks : Callbacks F H) (reach : Reach F H) : Shot → WorldCourse F H Unit
  | .ofRule id arguments => do
    let _ ← fireRule callbacks reach id arguments
  | .ofTrigger trigger arguments => fireTrigger callbacks reach trigger arguments
  | .ofEvent book event arguments => fireAttached callbacks reach book event arguments

theorem Shot.changes (abide : callbacks.Abide reach) (shot : Shot) (world : World F H) :
    (shot.course callbacks reach).run.ChangesBy (World.MovesOn callbacks.told) world := by
  cases shot with
  | ofRule id arguments =>
      apply Course.changes_seq (fireRule_changes abide id arguments world)
      intro fired now
      trivial
  | ofTrigger trigger arguments =>
      exact fireTrigger_changes abide trigger arguments world
  | ofEvent book event arguments =>
      exact fireAttached_changes abide book event arguments world

/-- The firing that runs, those that wait, and the world. -/
structure Scene (F H : Type) where
  running : Activity (World F H) (Job F) (Exit Unit)
  waiting : List (Activity (World F H) (Job F) (Exit Unit))
  world : World F H

/-- What happens next: the firing that runs goes on by one instruction; or, where it waits or has
ended, another firing begins or one that waits goes on, or a step is made outside of all firings.
Whatever a firing waits for, it may be answered at any time. -/
inductive Scene.Goes (callbacks : Callbacks F H) (reach : Reach F H) :
    Scene F H → Scene F H → Prop where
  | acts {running next : Activity (World F H) (Job F) (Exit Unit)}
      {waiting : List (Activity (World F H) (Job F) (Exit Unit))} {before after : World F H}
      {happening : Happening (World F H) (Job F)} (yields : running.Yields happening next)
      (passes : Happening.Passes [happening] before after) :
      Goes callbacks reach ⟨running, waiting, before⟩ ⟨next, waiting, after⟩
  | fires {running : Activity (World F H) (Job F) (Exit Unit)}
      {waiting : List (Activity (World F H) (Job F) (Exit Unit))} {world : World F H}
      (rests : running.Rests) (shot : Shot) :
      Goes callbacks reach ⟨running, waiting, world⟩
        ⟨(shot.course callbacks reach).run, running :: waiting, world⟩
  | turns {running next : Activity (World F H) (Job F) (Exit Unit)}
      {waiting : List (Activity (World F H) (Job F) (Exit Unit))} {world : World F H}
      {place : Nat} (rests : running.Rests) (found : waiting[place]? = some next) :
      Goes callbacks reach ⟨running, waiting, world⟩ ⟨next, waiting.set place running, world⟩
  | meanwhile {running : Activity (World F H) (Job F) (Exit Unit)}
      {waiting : List (Activity (World F H) (Job F) (Exit Unit))} {before after : World F H}
      (rests : running.Rests) (moves : World.Moves callbacks.told before after) :
      Goes callbacks reach ⟨running, waiting, before⟩ ⟨running, waiting, after⟩

/-- Nothing is fired yet, there are no rules and books, and no rules are attached to components. -/
structure Scene.IsFresh (scene : Scene F H) : Prop where
  running : scene.running = .done (.ok ())
  waiting : scene.waiting = []
  rules : scene.world.rules.rules = []
  books : scene.world.rules.books = []
  components : ∀ component ∈ scene.world.rules.components, component.listeners = []

/-- A scene whose rules are in order, and whose firings leave them so. -/
structure Scene.InOrder (callbacks : Callbacks F H) (scene : Scene F H) : Prop where
  rules : scene.world.rules.InOrder
  running : scene.running.ChangesBy (World.MovesOn callbacks.told) scene.world
  waiting : ∀ activity ∈ scene.waiting, ∀ world,
    activity.ChangesBy (World.MovesOn callbacks.told) world

variable {scene later : Scene F H}

theorem Scene.IsFresh.inOrder (fresh : scene.IsFresh) : scene.InOrder callbacks := by
  have unlisted : ∀ rule, scene.world.rules.rule? rule = none := by
    intro rule
    rw [rule?, fresh.rules]
    rfl
  have unheard : ∀ id, scene.world.rules.listenersAt id = [] := by
    intro id
    rw [listenersAt]
    cases present : scene.world.rules.component? id with
    | none =>
        rfl
    | some found =>
        exact fresh.components found (List.mem_of_getElem? present)
  have empty : ∀ index, scene.world.rules.book index = emptyBook none := by
    intro index
    rw [book, fresh.books]
    rfl
  constructor
  · constructor
    · constructor
      · intro id
        rw [unheard]
        exact List.nodup_nil
      · intro id _ rule
        rw [unheard, listensTo?, unlisted]
        simp
      · intro rule reference listens
        rw [listensTo?, unlisted] at listens
        cases listens
    · constructor
      · intro index inside
        rw [fresh.books] at inside
        cases inside
      · intro rule found present
        cases (unlisted rule).symm.trans present
      · intro index id rule registered
        rw [empty] at registered
        cases registered
      · intro rule found present
        cases (unlisted rule).symm.trans present
  · rw [fresh.running]
    trivial
  · rw [fresh.waiting]
    intro activity absent
    cases absent

/-- Every step leaves a scene in order, and what is destroyed destroyed. -/
theorem Scene.Goes.inOrder (abide : callbacks.Abide reach)
    (goes : Scene.Goes callbacks reach scene later) (inOrder : scene.InOrder callbacks) :
    later.InOrder callbacks ∧ scene.world.rules.Upholds later.world.rules := by
  rcases inOrder with ⟨rules, running, waiting⟩
  cases goes with
  | acts yields passes =>
      rcases running.yields (fun _ => .refl) yields passes with ⟨moves, goesOn⟩
      rcases World.MovesOn.inOrder moves rules with ⟨rulesToo, upholds⟩
      exact ⟨⟨rulesToo, goesOn, waiting⟩, upholds⟩
  | fires rests shot =>
      refine ⟨⟨rules, shot.changes abide _, ?_⟩, .refl _⟩
      intro activity isWaiting world
      rcases List.mem_cons.1 isWaiting with rfl | isWaiting
      · exact running.of_rests rests world
      · exact waiting activity isWaiting world
  | turns rests found =>
      refine ⟨⟨rules, waiting _ (List.mem_of_getElem? found) _, ?_⟩, .refl _⟩
      intro activity isWaiting world
      rcases List.mem_or_eq_of_mem_set isWaiting with isWaiting | rfl
      · exact waiting activity isWaiting world
      · exact running.of_rests rests world
  | meanwhile rests moves =>
      rcases moves.inOrder rules with ⟨rulesToo, upholds⟩
      exact ⟨⟨rulesToo, running.of_rests rests _, waiting⟩, upholds⟩

/-- What a scene leads to. -/
abbrev Scene.GoesOn (callbacks : Callbacks F H) (reach : Reach F H) :
    Scene F H → Scene F H → Prop :=
  Relation.ReflTransGen (Scene.Goes callbacks reach)

theorem Scene.GoesOn.inOrder (abide : callbacks.Abide reach)
    (goesOn : Scene.GoesOn callbacks reach scene later) (inOrder : scene.InOrder callbacks) :
    later.InOrder callbacks ∧ scene.world.rules.Upholds later.world.rules := by
  induction goesOn with
  | refl =>
      exact ⟨inOrder, .refl _⟩
  | tail _ last ih =>
      rcases last.inOrder abide ih.1 with ⟨inOrderToo, upholds⟩
      exact ⟨inOrderToo, ih.2.trans upholds⟩

/-- A rule has been destroyed: it does not listen, no table of its book holds it, it can neither be
enabled nor destroyed again, and whoever fires it is told that no action ran, and nothing has
happened. -/
structure IsGone (callbacks : Callbacks F H) (reach : Reach F H) (rule : Nat) (world : World F H) :
    Prop where
  destroyed : ∃ found, world.rules.rule? rule = some found ∧ found.destroyed = true ∧
    found.enabled = false ∧
    (∀ id, (world.rules.book found.book).rules.get? id ≠ some rule) ∧
    ∀ name, (world.rules.book found.book).rulesByName.get? name ≠ some rule
  enable : world.rules.enable rule = (.ok (), [], world.rules)
  destroy : world.rules.destroy rule = (.ok (), [], world.rules)
  fires : ∀ arguments history left after,
    (fireRule callbacks reach rule arguments).run.Piece world history left after →
      history = [.saw world, .left world] ∧ left = .done (.ok false) ∧ after = world

theorem isGone_of_destroyed {world : World F H} (tidy : world.rules.IsTidy) {rule : Nat}
    {found : Rule} (present : world.rules.rule? rule = some found)
    (destroyed : found.destroyed = true) : IsGone callbacks reach rule world := by
  have refuses : ∀ {other index : Nat}, (∃ same, world.rules.rule? other = some same ∧
      same.book = index ∧ same.destroyed = false) → other ≠ rule := by
    rintro other index ⟨same, presentToo, -, lives⟩ rfl
    cases present.symm.trans presentToo
    rw [destroyed] at lives
    cases lives
  constructor
  · refine ⟨found, present, destroyed, tidy.retired present destroyed, ?_, ?_⟩
    · intro id registered
      exact refuses (tidy.registered registered) rfl
    · intro name named
      exact refuses (tidy.named named) rfl
  · simp [RuleStore.enable, present, destroyed]
  · simp [RuleStore.destroy, present, destroyed]
  · intro arguments history left after piece
    have begins : World.begin callbacks rule arguments world = (.ok false, world) := by
      simp [World.begin, present, destroyed]
    rw [fireRule_eq] at piece
    rcases piece.of_get with ⟨history, rfl, putting⟩
    rw [begins] at putting
    rcases putting.of_put with ⟨rest, rfl, ensuing⟩
    rcases ensuing.of_done with ⟨rfl, rfl, rfl⟩
    exact ⟨rfl, rfl, rfl⟩

/-- What is attached to triggers is exact, and what is destroyed is out of everything, whatever
calls and firings come together.  In every scene that is reached an event trigger holds no rule twice,
and just those rules that are enabled and in whose trigger it occurs.  A rule that is destroyed in it
is gone, then and in every later scene. -/
theorem Scene.GoesOn.listening_is_exact {start scene : Scene F H} (abide : callbacks.Abide reach)
    (fresh : start.IsFresh) (reached : Scene.GoesOn callbacks reach start scene) :
    (∀ id name event mapper rules,
      scene.world.rules.component? id = some (.eventTrigger name event mapper rules) →
        rules.Nodup ∧ ∀ rule, rule ∈ rules ↔
          ∃ found, scene.world.rules.rule? rule = some found ∧ found.enabled = true ∧
            scene.world.rules.OccursIn id found.trigger) ∧
    ∀ rule found, scene.world.rules.rule? rule = some found → found.destroyed = true →
      ∀ later, Scene.GoesOn callbacks reach scene later → IsGone callbacks reach rule later.world := by
  have inOrder := (reached.inOrder abide fresh.inOrder).1
  constructor
  · intro id name event mapper rules present
    have exact := inOrder.rules.exact
    have listeners : scene.world.rules.listenersAt id = rules := listenersAt_eq present
    constructor
    · exact listeners ▸ exact.once id
    · intro rule
      rw [← listeners, exact.attached ⟨name, event, mapper, rules, present⟩]
      constructor
      · rintro ⟨reference, listens, occurs⟩
        rcases listensTo?_eq_some_iff.1 listens with ⟨found, presentRule, enabled, rfl⟩
        exact ⟨found, presentRule, enabled, occurs⟩
      · rintro ⟨found, presentRule, enabled, occurs⟩
        exact ⟨_, listensTo?_eq_some_iff.2 ⟨found, presentRule, enabled, rfl⟩, occurs⟩
  · intro rule found present destroyed later goesOn
    rcases goesOn.inOrder abide inOrder with ⟨laterInOrder, upholds⟩
    rcases upholds rule found present with ⟨same, presentLater, -, remains⟩
    exact isGone_of_destroyed laterInOrder.rules.tidy presentLater (remains destroyed)

/-- A firing that is not interrupted goes on as far as it reaches. -/
theorem Scene.GoesOn.along {running left : Activity (World F H) (Job F) (Exit Unit)}
    {waiting : List (Activity (World F H) (Job F) (Exit Unit))} {before after : World F H}
    {history : List (Happening (World F H) (Job F))} (reaches : running.Reaches history left)
    (passes : Happening.Passes history before after) :
    Scene.GoesOn callbacks reach ⟨running, waiting, before⟩ ⟨left, waiting, after⟩ := by
  induction reaches generalizing before with
  | here =>
      cases passes
      exact .refl
  | @step running next left happening history first rest ih =>
      rw [← List.singleton_append, Happening.passes_append] at passes
      rcases passes with ⟨middle, passesFirst, passesRest⟩
      exact .head (.acts first passesFirst) (ih passesRest)

end Firing

namespace Watch

open Firing RuleStore

/-- Whoever is relieved has nothing more to do. -/
def callbacks : Callbacks String Unit :=
  { Doorbell.callbacks with
    act := fun _ _ _ _ => do
      Course.modify fun world => ((RuleCall.onBook (.destroy 1)).run Doorbell.callbacks.told 0 world).2
      return .null }

def start : Scene String Unit where
  running := .done (.ok ())
  waiting := []
  world := { World.new () .standard [] with
    rules := {
      components := [.eventTrigger "door" "visit" none [], .triggerList [some 0, some 0],
        .action none (.custom "relieve")]
      rules := []
      books := [] } }

theorem start_isFresh : start.IsFresh := by
  refine ⟨rfl, rfl, rfl, rfl, ?_⟩
  decide

theorem abide : callbacks.Abide Doorbell.reach where
  test _ _ _ _ := .refl
  act _ _ _ _ := ⟨.single (.called trivial), trivial⟩

/-- The rules are built and finished: the first one runs once and relieves the second, and the third
one stays. -/
def calls : List RuleCall :=
  [.onBook .build, .onBook .build, .onBook .build, .setLifetime 2 .forever, .setTrigger 0 (some 1),
    .setTrigger 1 (some 0), .setTrigger 2 (some 1), .addAction 0 (some 2), .onBook (.create 0),
    .onBook (.create 1), .onBook (.create 2)]

def call (world : World String Unit) (call : RuleCall) : World String Unit :=
  (call.run callbacks.told 0 world).2

def opened : World String Unit :=
  { start.world with rules := (start.world.rules.openBook none).2 }

/-- Each of some calls fits the world that it finds. -/
def Suit : World String Unit → List RuleCall → Prop
  | _, [] => True
  | world, next :: rest => next.Fits 0 world.rules ∧ Suit (call world next) rest

theorem Suit.goesOn {world : World String Unit} {calls : List RuleCall} (suit : Suit world calls) :
    Scene.GoesOn callbacks Doorbell.reach { start with world := world }
      { start with world := calls.foldl call world } := by
  induction calls generalizing world with
  | nil =>
      exact .refl
  | cons next rest ih =>
      exact .head (.meanwhile trivial (.called suit.1)) (ih suit.2)

theorem eventful_of_list {store : RuleStore String} {list : Nat} {name event : String}
    {rules : List Nat} (present : store.component? list = some (.triggerList [some 0, some 0]))
    (door : store.component? 0 = some (.eventTrigger name event none rules)) :
    store.Eventful (some list) := by
  apply Eventful.list present
  intro trigger isMember
  have same : trigger = some 0 := by simpa using isMember
  exact same ▸ .single door

theorem calls_suit : Suit opened calls := by
  refine ⟨Nat.one_pos, Nat.one_pos, Nat.one_pos, trivial, ?_, ?_, ?_, trivial, ?_, ?_, ?_, trivial⟩
  · rintro found ⟨⟩
    rfl
  · rintro found ⟨⟩
    rfl
  · rintro found ⟨⟩
    rfl
  · rintro found ⟨⟩
    exact .inr (eventful_of_list rfl rfl)
  · rintro found ⟨⟩
    exact .inr (.single rfl)
  · rintro found ⟨⟩
    exact .inr (eventful_of_list rfl rfl)

/-- The world with some rules, of which some watch the door and some are registered. -/
def watching (rules : List Rule) (listeners : List Nat) (registered : List (Int × Nat)) :
    World String Unit :=
  { start.world with
    rules := {
      components := [.eventTrigger "door" "visit" none listeners, .triggerList [some 0, some 0],
        .action none (.custom "relieve"), .triggerList [], .anyOf [], .inverted none]
      rules := rules
      books := [{ opened.rules.book 0 with rules := ⟨registered⟩, nextId := 4 }] } }

/-- A rule that watches the door. -/
def rule (id : Int) (trigger : Nat) : Rule :=
  { Rule.new 0 id with trigger := some trigger, enabled := true }

def lasting : Rule := { rule 3 1 with lifetime := some .forever }

def relieving : Rule := { rule 1 1 with actions := [some 2] }

def retired (rule : Rule) : Rule := { rule with enabled := false, destroyed := true }

/-- The world when all rules watch the door. -/
def ready : World String Unit :=
  watching [relieving, rule 2 0, lasting] [0, 1, 2] [(1, 0), (2, 1), (3, 2)]

/-- The world when the first rule has fired, before its action. -/
def begun : World String Unit :=
  watching [retired relieving, rule 2 0, lasting] [1, 2] [(2, 1), (3, 2)]

/-- The world when the first rule has relieved the second one. -/
def relieved : World String Unit :=
  watching [retired relieving, retired (rule 2 0), lasting] [2] [(3, 2)]

theorem ready_eq : calls.foldl call opened = ready := by
  rfl

/-- The door was visited when all rules watched it. -/
def ended : Scene String Unit where
  running := .done (.ok ())
  waiting := [.done (.ok ())]
  world := relieved

/-- The first rule fires and relieves the second one, which then does nothing; the third one fires. -/
theorem visit_reaches :
    ((Shot.ofTrigger (some 0) []).course callbacks Doorbell.reach).run.Reaches
      [.saw ready, .saw ready, .left begun, .saw begun, .saw begun, .saw begun, .saw begun,
        .left relieved, .saw relieved, .saw relieved, .left relieved, .saw relieved,
        .left relieved, .saw relieved, .saw relieved] (.done (.ok ())) := by
  apply Activity.Reaches.step (.get ready)
  apply Activity.Reaches.step (.get ready)
  apply Activity.Reaches.step .put
  apply Activity.Reaches.step (.get begun)
  apply Activity.Reaches.step (.get begun)
  apply Activity.Reaches.step (.get begun)
  apply Activity.Reaches.step (.get begun)
  apply Activity.Reaches.step .put
  apply Activity.Reaches.step (.get relieved)
  apply Activity.Reaches.step (.get relieved)
  apply Activity.Reaches.step .put
  apply Activity.Reaches.step (.get relieved)
  apply Activity.Reaches.step .put
  apply Activity.Reaches.step (.get relieved)
  apply Activity.Reaches.step (.get relieved)
  exact .here

theorem left_reached : Scene.GoesOn callbacks Doorbell.reach start ended := by
  have opens : Scene.GoesOn callbacks Doorbell.reach start { start with world := opened } :=
    .single (.meanwhile trivial (.furthered (.opened none)))
  have watched : Scene.GoesOn callbacks Doorbell.reach start { start with world := ready } :=
    opens.trans (ready_eq ▸ calls_suit.goesOn)
  have rests : start.running.Rests := trivial
  have visit := watched.tail (.fires rests (.ofTrigger (some 0) []))
  exact visit.trans (Scene.GoesOn.along visit_reaches
    ⟨rfl, rfl, rfl, rfl, rfl, rfl, rfl, rfl, rfl, rfl, rfl, rfl⟩)

/-- After the visit the door holds the third rule only, which is enabled; and the second one is gone,
though the visit would have fired it. -/
theorem door_holds_who_watches :
    Scene.GoesOn callbacks Doorbell.reach start ended ∧
      ended.world.rules.component? 0 = some (.eventTrigger "door" "visit" none [2]) ∧
      (∃ found, ended.world.rules.rule? 2 = some found ∧ found.enabled = true ∧
        ended.world.rules.OccursIn 0 found.trigger) ∧
      IsGone callbacks Doorbell.reach 1 ended.world := by
  have present : ended.world.rules.component? 0 = some (.eventTrigger "door" "visit" none [2]) := rfl
  rcases Scene.GoesOn.listening_is_exact abide start_isFresh left_reached with ⟨exact, gone⟩
  have listeners := (exact 0 _ _ _ _ present).2 2
  exact ⟨left_reached, present, listeners.1 (List.mem_singleton_self 2),
    gone 1 (retired (rule 2 0)) rfl rfl ended .refl⟩

end Watch

end Steward
