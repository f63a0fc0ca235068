import Steward.App.Running
import Steward.Script.Rule
import Steward.Script.Session.Events

/-!
# Sessions with rules

A session builds rules from the components of a script and fires them.  Rules and components are known
by names; what a session answers shows rules, components and what is saved of them.
-/

namespace Steward.Scripting

open RuleStore (saveComponents)

/-- The book that a session works with. -/
def bookOf (world : Scene) : Nat := world.host.book

/-! ## What is shown -/

/-- How a component is shown. -/
def componentValue (component : ComponentRef) (world : Scene) : Except Failure Value :=
  match component.bind world.rules.component? with
  | none => .error lacking
  | some found => do
    let serializable ← world.rules.isSerializable component
    .ok <| .map [("repr", .text found.label), ("key", .text found.key),
      ("type", .text found.type.word), ("serializable", .bool serializable),
      ("parameterized", .bool found.isParameterized)]

def labelOf (world : Scene) (component : ComponentRef) : Value :=
  (component.bind world.rules.component?).elim .null fun found => .text found.label

/-- The kind of a lifetime, and how many uses it leaves. -/
def lifetimeValue : Lifetime → Value
  | .forever => .list [.text "PersistentLifetime", .null]
  | .once => .list [.text "OnceLifetime", .null]
  | .uses remaining => .list [.text "UsesLifetime", .int remaining]

/-- How a rule is shown. -/
def ruleValue (rule : Nat) (world : Scene) : Value :=
  (world.rules.rule? rule).elim .null fun found =>
    .map [("repr", .text found.label), ("id", .int found.id),
      ("name", RuleStore.nameValue found.name), ("persistent", .bool found.persistent),
      ("enabled", .bool found.enabled), ("destroyed", .bool found.destroyed),
      ("lifetime", found.lifetime.elim .null lifetimeValue),
      ("trigger", labelOf world found.trigger),
      ("conditions", .list (found.conditions.map (labelOf world))),
      ("actions", .list (found.actions.map (labelOf world)))]

/-- The ids and names that are registered. -/
def registeredRules (world : Scene) : Value :=
  let book := world.rules.book (bookOf world)
  .map [("ids", .list (book.rules.keys.map .int)),
    ("names", .list (book.rulesByName.entries.map fun (name, rule) =>
      .list [.text name, .int (world.rules.idOf rule)]))]

/-! ## Parts of steps -/

/-- A part of a step in one piece, with an answer of its own. -/
abbrev Part (α : Type) := Scene → Except Failure α × Scene

/-- Give a rule a variable; null stands for a rule that there is not. -/
def bindRule (name : String) (rule : Option Nat) (world : Scene) : Scene :=
  { world with host := { world.host with rules := world.host.rules.insert name rule } }

/-- Use the rule of a variable. -/
def withRule {α : Type} (name : String) (f : Nat → Part α) : Part α := fun world =>
  match ruleNamed name world with
  | .error failure => (.error failure, world)
  | .ok rule => f rule world

/-- Use the component of an expression. -/
def withComponent {α : Type} (expression : Value) (f : ComponentRef → Part α) : Part α :=
  fun world =>
    match evaluate expression world with
    | (.error failure, world) => (.error failure, world)
    | (.ok component, world) => f component world

/-- Change the rules where no trigger is told. -/
def onStore {α : Type} (f : Nat → RuleStore Script → Except Failure α × RuleStore Script) : Part α :=
  fun world => world.onRules (f (bookOf world))

/-- A change of rules, its answer left aside. -/
def silently (part : Part Unit) : Part Value := fun world =>
  let (outcome, world) := part world
  (outcome.map fun _ => .null, world)

/-- Change a rule itself. -/
def editRule (name : String) (f : Rule → Rule) : Part Value :=
  withRule name fun rule world => (.ok .null, { world with rules := world.rules.updateRule rule f })

/-- Change a rule where triggers are told. -/
def switchRule (name : String) (f : Nat → RuleStore Script → RuleStore.Announced Script) :
    Part Value :=
  silently (changeRule name f)

/-- Show a component. -/
def shown (component : ComponentRef) : Part Value := fun world => (componentValue component world, world)

/-- Give a rule a component of an expression. -/
def furnish (name : String) (expression : Value)
    (f : RuleStore Script → Nat → ComponentRef → Except Failure Unit × RuleStore Script) : Part Value :=
  withRule name fun rule => withComponent expression fun component =>
    silently (onStore fun _ store => f store rule component)

/-- The lifetime that a word or a number stands for. -/
def lifetimeOf : Value → Option Lifetime
  | .int count => some (.uses count)
  | .text "once" => some .once
  | _ => none

/-- The parameters of a component, as they would be saved. -/
def savedParameters (component : ComponentRef) : Part Value := fun world =>
  let single (key : String) (form : List Value → Value) (items : List ComponentRef) :
      Except Failure Value × Scene :=
    World.saving
      (fun store =>
        let (forms, omitted) := store.saveComponents items
        (forms.map fun forms => .map [(key, form forms)], omitted))
      world
  match component.bind world.rules.component? with
  | none => (.error lacking, world)
  | some (.triggerList items) | some (.anyOf items) => single "list" .list items
  | some (.inverted base) => single "base" (·.headD .null) [base]
  | some (.paramCondition _ _ parameters) | some (.paramAction _ _ parameters) =>
    (.ok (.map parameters), world)
  | some _ => (.ok (.map []), world)

/-- Save a component, and answer its saved form. -/
def savedForm (component : ComponentRef) : Part Value :=
  World.saving fun store =>
    match store.saveComponent component with
    | .error failure => (.error failure, [])
    | .ok (form, omitted) => (.ok form, omitted)

/-- Load a component and save it again. -/
def loadedForm (data : Value) : Part Value := fun world =>
  match onStore (fun book store => store.loadComponent book data) world with
  | (.error failure, world) => (.error failure, world)
  | (.ok id, world) =>
    match componentValue (some id) world with
    | .error failure => (.error failure, world)
    | .ok info =>
      let (form, world) := savedForm (some id) world
      (form.map fun form => .list [info, form], world)

/-- Save the rules of the book, and answer the document. -/
def saveBook : Part Value := fun world =>
  match World.saveRules (bookOf world) world with
  | (.error failure, world) => (.error failure, world)
  | (.ok _, world) => (world.stored (world.rules.book (bookOf world)).place, world)

/-- Load the saved rules of a book. -/
def loadBook (book : Nat) : Part Value := fun world =>
  let (count, world) := World.loadRules told book world
  (count.map fun count => .int count, world)

/-- Open another book over the same place, with the same components to rebuild rules from; its rules
are loaded before it takes the place of the old one. -/
def reopen : Part Value := fun world =>
  let old := world.rules.book (bookOf world)
  let (book, world) := world.onRules (·.openBook old.place)
  match World.registerAll observe book old.base.values world with
  | (.error failure, world) => (.error failure, world)
  | (.ok _, world) =>
    match loadBook book world with
    | (.error failure, world) => (.error failure, world)
    | (.ok count, world) => (.ok count, { world with host := { world.host with book := book } })

/-- How many listeners each event has. -/
def listenerCounts (world : Scene) : Value :=
  .list (world.bus.listeners.entries.map fun (event, listeners) =>
    .list [.text event, .int listeners.length])

/-- Make the components of a script, each under its name. -/
def makeComponents : List (String × Value) → Scene → Scene
  | [], world => world
  | (name, document) :: rest, world =>
    let (id, world) := world.onRules (·.addComponent (componentOf name document))
    let names := { world.host with components := world.host.components.insert name id }
    makeComponents rest { world with host := names }

/-- Register the components of some names. -/
def registerNamed : List String → Part Unit
  | [], world => (.ok (), world)
  | name :: rest, world =>
    match withComponent (.text name) (World.registerBase observe (bookOf world)) world with
    | (.ok _, world) => registerNamed rest world
    | failed => failed

/-- Begin a session: make the components of the document, and register those it names. -/
def openRules (document : Value) : Part Unit := fun world =>
  let memory := ((document.get? "store").map fun saved =>
    MemoryCell.mk (if saved.isNull then none else some saved) 0).toList
  let world := { world with storage := { world.storage with memory := memory } }
  let place := if memory.isEmpty then none else some (DataPlace.memory 0)
  let (book, world) := world.onRules (·.openBook place)
  let world := { world with host := { world.host with book := book } }
  let world := makeComponents (mapEntries (document.getD "components")) world
  let base := textsOf (listAt document "base")
  if holds document "standard" then
    match World.registerStandard observe book world with
    | (.ok _, world) => registerNamed base world
    | failed => failed
  else registerNamed base world

/-! ## Steps -/

/-- A part that is a whole step. -/
def wholly (part : Part Value) : SceneCourse Value := Course.atomically part

/-- Fire a rule. -/
def fire (callbacks : Callbacks Script Names) (name : String) (arguments : Value) :
    SceneCourse Value := do
  let rule ← Course.ofExcept (← Course.read (ruleNamed name))
  return .bool (← (Running.reach callbacks).trigger rule (argumentOf arguments))

/-- Fire two rules at once and wait for both; a failure ends the waiting. -/
def fireBoth (first second : String × Value) : SceneCourse Value := do
  let rule ← Course.ofExcept (← Course.read (ruleNamed first.1))
  let other ← Course.ofExcept (← Course.read (ruleNamed second.1))
  let task ← Course.begin (.errand (.trigger rule (argumentOf first.2)))
  let next ← Course.begin (.errand (.trigger other (argumentOf second.2)))
  let promise ← Course.promise
  let _ ← Course.begin (.errand (.report task [next] promise))
  let _ ← Course.begin (.errand (.report next [task] promise))
  let _ ← Course.wait (.task promise)
  return .list [← Course.wait (.task task), ← Course.wait (.task next)]

/-- A step about the rule of a variable. -/
def ruleStep (callbacks : Callbacks Script Names) (word name : String) :
    List Value → SceneCourse Value
  | [] =>
    match word with
    | "build" => wholly fun world =>
      let (rule, world) := world.onRules (·.build (bookOf world))
      (.ok .null, bindRule name (some rule) world)
    | "persist" => wholly (withRule name fun rule =>
        silently (onStore fun _ store => store.persist rule none))
    | "once" => wholly (editRule name ({ · with lifetime := some .once }))
    | "create" => wholly (switchRule name fun rule store => store.create rule)
    | "enable" => wholly (switchRule name fun rule store => store.enable rule)
    | "disable" => wholly (switchRule name fun rule store => store.disable rule)
    | "destroy" => wholly (switchRule name fun rule store => store.destroy rule)
    | "register" => wholly (withRule name fun rule =>
        silently (onStore fun book store => store.register book rule))
    | "unregister" => wholly (withRule name fun rule =>
        onStore fun book store => (.ok .null, store.unregister book rule))
    | "show" => wholly (withRule name fun rule world => (.ok (ruleValue rule world), world))
    | "serialize" => wholly (withRule name fun rule => World.saving fun store =>
        (store.rule? rule).elim (.error lacking, []) store.saveRule)
    | _ => unknownStep
  | [argument] =>
    match word with
    | "named" => wholly (withRule name fun rule => silently (onStore fun _ store =>
        store.rename (((store.rule? rule).map (·.book)).getD 0) rule argument.shown))
    | "persist" => wholly (withRule name fun rule =>
        silently (onStore fun _ store => store.persist rule argument.text?))
    | "uses" => wholly (editRule name ({ · with lifetime := some (.uses (argument.int?.getD 0)) }))
    | "lifetime" => wholly (editRule name ({ · with lifetime := lifetimeOf argument }))
    | "when" => wholly (furnish name argument RuleStore.setTrigger)
    | "only_if" => wholly (furnish name argument RuleStore.addCondition)
    | "then" => wholly (furnish name argument RuleStore.addAction)
    | "trigger" => fire callbacks name argument
    | "rename" => wholly (withRule name fun rule =>
        silently (onStore fun book store => store.rename book rule argument.shown))
    | "bind" => wholly fun world =>
      match world.rules.get? (bookOf world) argument with
      | .error failure => (.error failure, world)
      | .ok rule => (.ok .null, bindRule name rule world)
    | _ => unknownStep
  | [first, second] =>
    match word with
    | "new" => wholly fun world =>
      let (rule, world) := world.onRules (·.addRule
        { Rule.new (bookOf world) (first.int?.getD 0) with name := second.text? })
      (.ok .null, bindRule name (some rule) world)
    | "trigger_ctx" => do
      let _ ← Course.ofExcept (← Course.read (ruleNamed name))
      let _ ← Course.ofExcept (← Course.read (ruleNamed first.shown))
      fire callbacks name second
    | _ => unknownStep
  | _ => unknownStep

/-- Run a step of a session. -/
def rulesStep (callbacks : Callbacks Script Names) : List Value → SceneCourse Value
  | [.text "trigger_both", .list [.text first, firstArguments], .list [.text second, secondArguments]] =>
    fireBoth (first, firstArguments) (second, secondArguments)
  | .text "fire" :: expression :: arguments => do
    let trigger ← Course.atomically (evaluate expression)
    Firing.fireTrigger callbacks (Running.reach callbacks) trigger (arguments.map argumentOf)
    return .null
  | .text "emit" :: .text event :: arguments => emit callbacks event arguments
  | [.text "connect"] => change fun world => World.connect observe (bookOf world) world
  | [.text "listeners"] => ask listenerCounts
  | [.text "register_base", expression] => wholly (withComponent expression fun component =>
      silently fun world => World.registerBase observe (bookOf world) component world)
  | [.text "base_keys"] => ask fun world =>
      .list ((world.rules.book (bookOf world)).base.keys.map .text)
  | [.text "get_base", key] => wholly (withComponent (.map [("base", key)]) shown)
  | [.text "get", key] => wholly fun world =>
      ((world.rules.get? (bookOf world) key).map fun rule =>
        rule.elim .null fun rule => ruleValue rule world, world)
  | [.text "remove", key] => wholly fun world =>
      let (found, announced, rules) := world.rules.remove (bookOf world) key
      (found.map .bool, World.tellTriggers told announced { world with rules := rules })
  | [.text "new_id"] => wholly (onStore fun book store =>
      let (id, store) := store.newId book
      (.ok (.int id), store))
  | [.text "comp", expression] => wholly (withComponent expression shown)
  | [.text "check", expression, arguments] => wholly (withComponent expression fun component =>
      World.check callbacks (argumentOf arguments) component)
  | [.text "save_component", expression] => wholly (withComponent expression savedForm)
  | [.text "load_component", data] => wholly (loadedForm data)
  | [.text "create_with", expression, data] => wholly (withComponent expression fun base world =>
      match base with
      | none => (.error lacking, world)
      | some base =>
        match onStore (fun book store => store.createComponent book base data) world with
        | (.error failure, world) => (.error failure, world)
        | (.ok id, world) => shown (some id) world)
  | [.text "save_params", expression] => wholly (withComponent expression savedParameters)
  | [.text "deserialize", data, .text name] => wholly fun world =>
      match onStore (fun book store => store.loadRule book data) world with
      | (.error failure, world) => (.error failure, world)
      | (.ok rule, world) => (.ok (ruleValue rule world), bindRule name (some rule) world)
  | [.text "save"] => wholly saveBook
  | [.text "load"] => wholly fun world => loadBook (bookOf world) world
  | [.text "reload"] => wholly reopen
  | [.text "sleep", seconds] => do
    Course.sleep (binaryOf seconds)
    return .null
  | .text word :: .text name :: arguments => ruleStep callbacks word name arguments
  | _ => unknownStep

end Steward.Scripting
