import Steward.App.Stages

/-!
# What extensions do of their own

An extension's own part of a stage is a course: it looks at the world, changes it, and
looks up and requires what it depends on.  The core services follow such courses, and
so do the callbacks of other extensions when they are given by courses.

Whatever can be seen of an application apart from what the core services keep in it
stays as it is while they are loaded, as long as the callbacks keep it.  The lemmas
follow the loads of the core services through the bus and the rules, where callbacks
are told what happens.  Above all, nothing that an extension does of its own marks an
extension as loaded.
-/

namespace Steward

variable {F H : Type}

/-- Which extensions are loaded, by number. -/
def World.marks (world : World F H) : List Bool := world.app.extensions.map (·.loaded)

/-- An extension's own part of a stage. -/
inductive HookCourse (F H : Type) where
  | done (outcome : Except Failure Unit)
  | look (next : World F H → HookCourse F H)
  | change (f : World F H → World F H) (next : HookCourse F H)
  | resolve (kind : DependencyKind) (name : String)
      (next : Option Dependency → HookCourse F H)
  | require (kind : DependencyKind) (name : String)
      (next : Except Failure Dependency → HookCourse F H)

namespace HookCourse

/-- Follow a course. -/
def run (dependencies : Dependencies F H) :
    HookCourse F H → World F H → Except Failure Unit × World F H
  | .done outcome, world => (outcome, world)
  | .look next, world => run dependencies (next world) world
  | .change f next, world => run dependencies next (f world)
  | .resolve kind name next, world =>
    match dependencies.resolve kind name world with
    | (found, world) => run dependencies (next found) world
  | .require kind name next, world =>
    match dependencies.require kind name world with
    | (answer, world) => run dependencies (next answer) world

/-- A course does not itself mark extensions as loaded. -/
def Spares : HookCourse F H → Prop
  | .done _ => True
  | .look next => ∀ world, (next world).Spares
  | .change f next => (∀ world, (f world).marks = world.marks) ∧ next.Spares
  | .resolve _ _ next => ∀ found, (next found).Spares
  | .require _ _ next => ∀ answer, (next answer).Spares

/-- A course does not itself change what is in view. -/
def Keeps {α : Type} (view : World F H → α) : HookCourse F H → Prop
  | .done _ => True
  | .look next => ∀ world, (next world).Keeps view
  | .change f next => (∀ world, view (f world) = view world) ∧ next.Keeps view
  | .resolve _ _ next => ∀ found, (next found).Keeps view
  | .require _ _ next => ∀ answer, (next answer).Keeps view

theorem keeps_marks_iff {course : HookCourse F H} : course.Keeps World.marks ↔ course.Spares := by
  induction course with
  | done outcome => rfl
  | look next ih => exact forall_congr' ih
  | change f next ih => exact and_congr_right fun _ => ih
  | resolve kind name next ih => exact forall_congr' ih
  | require kind name next ih => exact forall_congr' ih

/-- What keeps a view keeps all that can be told from it. -/
theorem Keeps.map {α β : Type} {view : World F H → α} {course : HookCourse F H}
    (keeps : course.Keeps view) (f : α → β) : course.Keeps fun world => f (view world) := by
  induction course with
  | done outcome => trivial
  | look next ih => exact fun world => ih world (keeps world)
  | change g next ih => exact ⟨fun world => congrArg f (keeps.1 world), ih keeps.2⟩
  | resolve kind name next ih => exact fun found => ih found (keeps found)
  | require kind name next ih => exact fun answer => ih answer (keeps answer)

/-- A course that does one thing. -/
def acting (f : World F H → Except Failure Unit × World F H) : HookCourse F H :=
  .look fun world => .change (fun now => (f now).2) (.done (f world).1)

theorem acting_keeps {α : Type} {view : World F H → α}
    {f : World F H → Except Failure Unit × World F H}
    (keeps : ∀ world, view (f world).2 = view world) : (acting f).Keeps view := by
  exact fun _ => ⟨keeps, trivial⟩

/-- The command service makes its registry, requires the permission service and registers the
commands that waited. -/
def ofCommands : HookCourse F H :=
  .change
    (fun world => world.onApp fun app =>
      { app with desk := { app.desk with
        registry := some (.new world.app.settings.lead world.app.settings.logsCommands) } })
    (.require .service "PermissionService" fun
      | .error failure => .done (.error failure)
      | .ok _ =>
        .change
          (fun world => World.registerWaiting
            (world.onApp fun app => { app with desk := { app.desk with linked := true } }))
          (.done (.ok ())))

/-- The course of an extension in a stage; the core services only have one for loading. -/
def ofRole (callbacks : Callbacks F H) (courses : F → Stage → Nat → HookCourse F H) (stage : Stage)
    (number : Nat) (role : Role F) : HookCourse F H :=
  match role, stage with
  | .custom name, stage => courses name stage number
  | .permissions, .load => acting World.loadPermissions
  | .rules, .load => acting (World.loadRuleBook callbacks)
  | .commands, .load => ofCommands
  | _, _ => .done (.ok ())

theorem run_ofCommands (dependencies : Dependencies F H) (world : World F H) :
    ofCommands.run dependencies world = World.loadCommands dependencies world := by
  rcases dependencies with ⟨resolve, require⟩
  unfold World.loadCommands ofCommands
  dsimp only [run]
  generalize require .service "PermissionService" _ = required
  rcases required with ⟨failure | found, after⟩ <;> rfl

end HookCourse

/-- Callbacks by which extensions follow given courses. -/
def Callbacks.following (callbacks : Callbacks F H) (courses : F → Stage → Nat → HookCourse F H) :
    Callbacks F H :=
  { callbacks with
    hook := fun dependencies name stage number => (courses name stage number).run dependencies }

/-- An extension's own part of a stage is to follow its course. -/
theorem World.ownPart_following (callbacks : Callbacks F H)
    (courses : F → Stage → Nat → HookCourse F H) (dependencies : Dependencies F H) (stage : Stage)
    (number : Nat) (role : Role F) (world : World F H) :
    World.ownPart (callbacks.following courses) dependencies stage number role world =
      (HookCourse.ofRole callbacks courses stage number role).run dependencies world := by
  cases role with
  | custom name => cases stage <;> rfl
  | permissions => cases stage <;> rfl
  | rules => cases stage <;> rfl
  | commands =>
      cases stage with
      | load => exact (HookCourse.run_ofCommands dependencies world).symm
      | postLoad => rfl
      | ready => rfl

/-! ## What is out of the way of the core services -/

/-- An application without what the core services keep in it. -/
def App.bare (app : App F) : App F :=
  { app with desk := ⟨none, [], false, none⟩, ruleBook := none, hasPermissions := false }

/-- Nothing that the core services work on is in view. -/
def World.IsClear {α : Type} (view : World F H → α) : Prop :=
  ∀ world other : World F H, other.app.bare = world.app.bare → view other = view world

theorem World.isClear_marks : IsClear (World.marks : World F H → List Bool) := by
  intro world other same
  have extensions := congrArg App.extensions same
  exact congrArg (List.map (·.loaded)) extensions

/-- Callbacks that are told of events and rules do not change what is in view. -/
structure Callbacks.Keep {α : Type} (callbacks : Callbacks F H) (view : World F H → α) : Prop where
  observe : ∀ name event world, view (callbacks.observe name event world).2 = view world
  told : ∀ name begins id world, view (callbacks.told name begins id world) = view world

/-- What the hooks are does not matter to it. -/
theorem Callbacks.Keep.following {α : Type} {view : World F H → α} {callbacks : Callbacks F H}
    (keep : callbacks.Keep view) (courses : F → Stage → Nat → HookCourse F H) :
    (callbacks.following courses).Keep view := by
  exact ⟨keep.observe, keep.told⟩

theorem Callbacks.Keep.map {α β : Type} {view : World F H → α} {callbacks : Callbacks F H}
    (keep : callbacks.Keep view) (f : α → β) : callbacks.Keep fun world => f (view world) := by
  exact ⟨fun name event world => congrArg f (keep.observe name event world),
    fun name begins id world => congrArg f (keep.told name begins id world)⟩

/-- Callbacks that are told of events and rules do not mark extensions as loaded. -/
structure Callbacks.SpareMarks (callbacks : Callbacks F H) : Prop where
  observe : ∀ name event world, (callbacks.observe name event world).2.marks = world.marks
  told : ∀ name begins id world, (callbacks.told name begins id world).marks = world.marks

theorem Callbacks.SpareMarks.keep {callbacks : Callbacks F H} (spare : callbacks.SpareMarks) :
    callbacks.Keep World.marks := by
  exact ⟨spare.observe, spare.told⟩

namespace World

variable {α : Type} {view : World F H → α} (clear : IsClear view)
include clear

theorem view_enterAll (entries : List Entry) (world : World F H) :
    view (world.enterAll entries) = view world := by
  induction entries generalizing world with
  | nil => rfl
  | cons entry rest ih => exact (ih (enter entry world)).trans (clear _ _ rfl)

section Bus

variable {observe : Observe F H}
  (observes : ∀ name event world, view (observe name event world).2 = view world)
include observes

omit clear in
theorem view_tellObservers (event : String) (observers : List F) (world : World F H) :
    view (tellObservers observe event observers world).2 = view world := by
  induction observers generalizing world with
  | nil => rfl
  | cons observer rest ih =>
      have told := observes observer event world
      rw [tellObservers]
      generalize observe observer event world = answer at told ⊢
      rcases answer with ⟨failure | _, after⟩
      · exact told
      · exact (ih after).trans told

theorem view_subscribe (listener : Listener (Target F)) (world : World F H) :
    view (subscribe observe listener world).2 = view world := by
  unfold subscribe
  dsimp only
  split
  · exact clear _ _ rfl
  · have told := view_tellObservers observes listener.event world.bus.observers
      { world with bus := world.bus.declare listener.event }
    have declared := told.trans (clear world _ rfl)
    generalize tellObservers observe listener.event world.bus.observers _ = answer at declared ⊢
    rcases answer with ⟨failure | _, after⟩
    · exact declared
    · exact Eq.trans (clear after _ rfl) declared

theorem view_subscribeNew (event : String) (target : Target F) (priority : Int)
    (delay : Option Binary64) (world : World F H) :
    view (subscribeNew observe event target priority delay world).2.2 = view world := by
  exact (view_subscribe clear observes _ _).trans (clear world _ rfl)

theorem view_attach (index trigger : Nat) (event : String) (world : World F H) :
    view (attach observe index trigger event world).2 = view world := by
  unfold attach
  dsimp only
  split
  · split <;> exact clear _ _ rfl
  · have subscribed := (view_subscribeNew clear observes event (.fireRules index event) 0 none
      { world with
        rules := world.rules.updateBook index fun book =>
          { book with attached := book.attached.insert event [] } }).trans (clear world _ rfl)
    generalize subscribeNew observe event (.fireRules index event) 0 none _ = answer
      at subscribed ⊢
    rcases answer with ⟨failure | _, listener, after⟩
    · exact subscribed
    · exact Eq.trans (clear after _ rfl) subscribed

theorem view_attachAll (index : Nat) (components : List Nat) (world : World F H) :
    view (attachAll observe index components world).2 = view world := by
  induction components generalizing world with
  | nil => rfl
  | cons id rest ih =>
      rw [attachAll]
      split
      · rename_i event _ _ _
        have attached := view_attach clear observes index id event world
        generalize attach observe index id event world = answer at attached ⊢
        rcases answer with ⟨failure | _, after⟩
        · exact attached
        · exact (ih after).trans attached
      · exact ih world

theorem view_connect (index : Nat) (world : World F H) :
    view (connect observe index world).2 = view world := by
  exact (view_attachAll clear observes index _ _).trans (clear world _ rfl)

theorem view_registerBase (index : Nat) (component : ComponentRef) (world : World F H) :
    view (registerBase observe index component world).2 = view world := by
  unfold registerBase
  split
  · rfl
  · split
    · rfl
    · split
      · rfl
      · dsimp only
        split
        · exact (view_attachAll clear observes index _ _).trans (clear world _ rfl)
        · exact clear _ _ rfl

theorem view_registerAll (index : Nat) (components : List Nat) (world : World F H) :
    view (registerAll observe index components world).2 = view world := by
  induction components generalizing world with
  | nil => rfl
  | cons id rest ih =>
      have registered := view_registerBase clear observes index (some id) world
      rw [registerAll]
      generalize registerBase observe index (some id) world = answer at registered ⊢
      rcases answer with ⟨failure | _, after⟩
      · exact registered
      · exact (ih after).trans registered

end Bus

section Rules

variable {told : Told F H}
  (tells : ∀ name begins id world, view (told name begins id world) = view world)
include tells

omit clear in
theorem view_tellTriggers (announced : List (Announcement F)) (world : World F H) :
    view (tellTriggers told announced world) = view world := by
  induction announced generalizing world with
  | nil => rfl
  | cons first rest ih => exact (ih _).trans (tells _ _ _ _)

theorem view_loadEntries (index : Nat) (entries : List Value) (count : Nat) (world : World F H) :
    view (loadEntries told index entries count world).2 = view world := by
  induction entries generalizing world count with
  | nil => rfl
  | cons data rest ih =>
      rw [loadEntries]
      have adopted : view (world.onRules (·.adopt index data)).2 = view world := clear _ _ rfl
      generalize world.onRules (·.adopt index data) = answer at adopted ⊢
      rcases answer with ⟨failure | rule, after⟩
      · exact (ih _ _).trans (Eq.trans (clear after _ rfl) adopted)
      · have created : view (change told (·.create rule) after).2 = view after :=
          (view_tellTriggers tells _ _).trans (clear after _ rfl)
        dsimp only
        generalize change told (·.create rule) after = answer at created ⊢
        rcases answer with ⟨failure | _, last⟩
        · exact created.trans adopted
        · exact (ih _ _).trans (created.trans adopted)

theorem view_loadRules (index : Nat) (world : World F H) :
    view (loadRules told index world).2 = view world := by
  unfold loadRules
  split
  · rfl
  · rename_i entries _
    have loaded := view_loadEntries clear tells index entries 0 world
    generalize loadEntries told index entries 0 world = answer at loaded ⊢
    rcases answer with ⟨failure | count, after⟩
    · exact loaded
    · exact Eq.trans (clear after _ rfl) loaded

end Rules

variable {callbacks : Callbacks F H}

theorem view_subscribeEach (keep : callbacks.Keep view)
    (subscriptions : List (String × Target F)) (world : World F H) :
    view (subscribeEach callbacks subscriptions world).2 = view world := by
  induction subscriptions generalizing world with
  | nil => rfl
  | cons first rest ih =>
      have subscribed := view_subscribeNew clear keep.observe first.1 first.2 0 none world
      rw [subscribeEach]
      generalize subscribeNew callbacks.observe first.1 first.2 0 none world = answer
        at subscribed ⊢
      rcases answer with ⟨failure | _, listener, after⟩
      · exact subscribed
      · exact (ih after).trans subscribed

theorem view_loadPermissions (world : World F H) :
    view (loadPermissions world).2 = view world := by
  unfold loadPermissions
  dsimp only
  split <;> exact clear _ _ rfl

theorem view_loadRuleBook (keep : callbacks.Keep view) (world : World F H) :
    view (loadRuleBook callbacks world).2 = view world := by
  unfold loadRuleBook
  dsimp only
  have opened : view ((world.onRules (·.openBook (some world.rulePlace))).2.onApp fun app =>
      { app with ruleBook := some (world.onRules (·.openBook (some world.rulePlace))).1 }) =
        view world := clear _ _ rfl
  generalize (world.onRules (·.openBook (some world.rulePlace))).1 = book at opened ⊢
  generalize World.onApp _ (world.onRules (·.openBook (some world.rulePlace))).2 = start at opened ⊢
  have registered : view (registerStandard callbacks.observe book start).2 = view start :=
    view_registerAll clear keep.observe book _ start
  generalize registerStandard callbacks.observe book start = answer at registered ⊢
  rcases answer with ⟨failure | _, middle⟩
  · exact registered.trans opened
  · have connected := view_connect clear keep.observe book middle
    dsimp only
    generalize connect callbacks.observe book middle = answer at connected ⊢
    rcases answer with ⟨failure | _, after⟩
    · exact connected.trans (registered.trans opened)
    · exact (view_loadRules clear keep.told book after).trans
        (connected.trans (registered.trans opened))

theorem view_registerCommand (command : Node F) (world : World F H) :
    view (registerCommand command world) = view world := by
  unfold registerCommand
  split
  · exact clear _ _ rfl
  · exact (view_enterAll clear _ _).trans (clear _ _ rfl)

theorem view_registerCommands (commands : List (Node F)) (world : World F H) :
    view (commands.foldl (fun world command => registerCommand command world) world) =
      view world := by
  induction commands generalizing world with
  | nil => rfl
  | cons command rest ih => exact (ih _).trans (view_registerCommand clear command world)

theorem view_registerWaiting (world : World F H) :
    view (registerWaiting world) = view world := by
  exact (view_registerCommands clear _ _).trans (clear _ _ rfl)

end World

/-- The courses of all extensions keep what is in view if those of the callbacks do. -/
theorem HookCourse.ofRole_keeps {α : Type} {view : World F H → α} (clear : World.IsClear view)
    {callbacks : Callbacks F H} {courses : F → Stage → Nat → HookCourse F H}
    (keep : callbacks.Keep view)
    (keeps : ∀ name stage number, (courses name stage number).Keeps view) (stage : Stage)
    (number : Nat) (role : Role F) : (ofRole callbacks courses stage number role).Keeps view := by
  have commands : (ofCommands : HookCourse F H).Keeps view := by
    refine ⟨fun _ => clear _ _ rfl, ?_⟩
    rintro (failure | found)
    · trivial
    · exact ⟨fun world => (World.view_registerWaiting clear _).trans (clear _ _ rfl), trivial⟩
  cases role with
  | custom name => cases stage <;> exact keeps name _ number
  | permissions =>
      cases stage with
      | load => exact acting_keeps (World.view_loadPermissions clear)
      | postLoad => trivial
      | ready => trivial
  | rules =>
      cases stage with
      | load => exact acting_keeps (World.view_loadRuleBook clear keep)
      | postLoad => trivial
      | ready => trivial
  | commands =>
      cases stage with
      | load => exact commands
      | postLoad => trivial
      | ready => trivial

/-- The courses of all extensions spare the marks if those of the callbacks do. -/
theorem HookCourse.ofRole_spares {callbacks : Callbacks F H}
    {courses : F → Stage → Nat → HookCourse F H} (spare : callbacks.SpareMarks)
    (spares : ∀ name stage number, (courses name stage number).Spares) (stage : Stage)
    (number : Nat) (role : Role F) : (ofRole callbacks courses stage number role).Spares := by
  exact keeps_marks_iff.1 <| ofRole_keeps World.isClear_marks spare.keep
    (fun name stage number => keeps_marks_iff.2 (spares name stage number)) stage number role

end Steward
