import Steward.Rule.Firing
import Steward.Script.Document
import Steward.Script.Basic

/-!
# Scripts of rules

Triggers, conditions and actions described by documents, and expressions that put components
together.
-/

namespace Steward.Scripting

def lacking : Failure := .fault .missingAttribute "no such attribute"

/-- Note that a trigger is told of the rule of an id. -/
def told : Told Script Names := fun script begins id world =>
  match script with
  | .component name _ =>
    note [.text (if begins then "register" else "unregister"), .text name, .int id] world
  | _ => world

/-- The sum of some numbers. -/
def sumOf (arguments : List Value) : Except Failure Value :=
  arguments.foldlM
    (fun sum value => (sum.plus? value).elim (.error (.fault .wrongType "not a number")) .ok)
    (.int 0)

/-- Turn the arguments of an event into the arguments of rules. -/
def mapArguments (script : Script) (arguments : List Value) : Except Failure Value :=
  match script, arguments with
  | .mapper "first", first :: _ => .ok first
  | .mapper "first", [] => .error (.fault .outOfRange "no arguments")
  | .mapper "sum", arguments => sumOf arguments
  | .mapper "count", arguments => .ok (.int arguments.length)
  | .mapper "member", [member] => Standard.idOf member
  | _, _ => .error (.fault .wrongType "wrong number of arguments")

def componentKind (document : Value) : String := textAt document "t" ""

/-- What a callback of a component notes: the parameters come last if it takes any. -/
def noteUse (verb name : String) (document arguments : Value) (parameters : Parameters)
    (world : Scene) : Scene :=
  let kind := componentKind document
  let last := if kind == "pcond" || kind == "paction" then [Value.map parameters] else []
  note ([.text verb, .text name, arguments] ++ last) world

/-- Answer a condition. -/
def answer (predicate arguments : Value) (parameters : Parameters) : Except Failure Value :=
  match predicate with
  | .map [("raise", text)] => .error (.unexpected text.shown)
  | .map [("eq", value)] => .ok (.bool (arguments.same value))
  | .map [("eq_param", key)] => .ok (.bool (arguments.same ((Value.map parameters).getD key.shown)))
  | .map [("need_param", key)] =>
    ((Value.map parameters).get? key.shown).elim (.error (.fault .missingKey key.shown)) .ok
  | .map [("self", _)] => .ok arguments
  | predicate => .ok (predicate.getD "const")

/-- Test a condition. -/
def test (script : Script) (arguments : Value) (parameters : Parameters) (world : Scene) :
    Except Failure Value × Scene :=
  match script with
  | .component name document =>
    (answer (document.getD "pred") arguments parameters,
      noteUse "check" name document arguments parameters world)
  | _ => (.ok .null, world)

/-- The rule of a name. -/
def ruleNamed (name : String) (world : Scene) : Except Failure Nat :=
  match world.host.rules.get? name with
  | none => .error (missingVariable name)
  | some none => .error lacking
  | some (some rule) => .ok rule

def componentNamed (name : String) (world : Scene) : Except Failure Nat :=
  (world.host.components.get? name).elim (.error (missingVariable name)) .ok

/-- Do something to the rule of a name. -/
def changeRule (name : String) (f : Nat → RuleStore Script → RuleStore.Announced Script)
    (world : Scene) : Except Failure Unit × Scene :=
  match ruleNamed name world with
  | .error failure => (.error failure, world)
  | .ok rule => World.change told (f rule) world

/-- A change of the rules that no trigger is told of. -/
def quietly (f : RuleStore Script → Except Failure Unit × RuleStore Script)
    (store : RuleStore Script) : RuleStore.Announced Script :=
  let (outcome, store) := f store
  (outcome, [], store)

/-- Note whether the rule of an id or a name is registered. -/
def noteAlive (key : Value) (world : Scene) : Except Failure Unit × Scene :=
  match world.rules.get? world.host.book key with
  | .error failure => (.error failure, world)
  | .ok found => (.ok (), note [.text "alive", key, .bool found.isSome] world)

/-- Run one step of an action. -/
def actStep (reach : Reach Script Names) (name : String) (step : Value) : SceneCourse Unit := do
  match step with
  | .list [.text "log", value] => Course.modify (note [.text "act", .text name, value])
  | .list [.text "raise", text] => Course.fail (.unexpected text.shown)
  | .list [.text "alive", key] => Course.atomically (noteAlive key)
  | .list [.text "add_action", .text rule, .text component] =>
    let action ← Course.ofExcept (← Course.read (componentNamed component))
    Course.atomically
      (changeRule rule fun rule => quietly fun store => store.addAction rule (some action))
  | .list [.text "destroy", .text rule] =>
    Course.atomically (changeRule rule fun rule store => store.destroy rule)
  | .list [.text "disable", .text rule] =>
    Course.atomically (changeRule rule fun rule store => store.disable rule)
  | .list [.text "enable", .text rule] =>
    Course.atomically (changeRule rule fun rule store => store.enable rule)
  | .list [.text "sleep", seconds] => Course.sleep (binaryOf seconds)
  | .list [.text "trigger", .text rule, arguments] =>
    let rule ← Course.ofExcept (← Course.read (ruleNamed rule))
    let ran ← reach.trigger rule (argumentOf arguments)
    Course.modify (note [.text "inner", .bool ran])
  | _ => return ()

/-- Run an action. -/
def act (reach : Reach Script Names) (script : Script) (arguments : Value) (parameters : Parameters) :
    SceneCourse Value := do
  match script with
  | .component name document =>
    Course.modify (noteUse "run" name document arguments parameters)
    Course.forEach (listAt document "do") (actStep reach name)
    if holds document "async" then Course.modify (note [.text "done", .text name])
    return document.getD "ret"
  | _ => return .null

/-- The component of a description, with the callback of its name. -/
def componentOf (name : String) (document : Value) : Component Script :=
  let callback := Script.component name document
  let own := (document.get? "name").bind (·.text?)
  let mapper : Option (Mapper Script) :=
    ((document.get? "mapper").bind (·.text?)).map fun word => .custom (.mapper word)
  let event := textAt document "event" ""
  match componentKind document with
  | "event" =>
    .eventTrigger (match own with
      | some own => if own.isEmpty then "discord." ++ event else own
      | none => "discord." ++ event) (platformEvent event) mapper []
  | "bus" => .eventTrigger (own.getD "") event mapper []
  | "manual" => .customTrigger own callback
  | "cond" => .condition own (.custom callback)
  | "pcond" => .paramCondition (own.getD "") (.custom callback) []
  | "paction" => .paramAction (own.getD "") (.custom callback) []
  | _ => .action own (.custom callback)

/-- The names of the standard components, in their order. -/
def standardNames : List String :=
  ["member_join", "message_create", "reaction_add", "user_is_bot", "is_message", "is_reaction_emoji",
    "is_user", "give_role", "remove_role", "react_with_emoji"]

/-- The component that a name refers to: one of the script's, or a standard one. -/
def referredTo (name : String) (world : Scene) : Except Failure ComponentRef :=
  match world.host.components.get? name with
  | some id => .ok (some id)
  | none =>
    match standardNames.idxOf? name with
    | some id => .ok (some id)
    | none => .error (missingVariable name)

/-- A component with others in it, as a new component. -/
def added (component : Component Script) (world : Scene) : Except Failure ComponentRef × Scene :=
  let (id, world) := world.onRules (·.addComponent component)
  (.ok (some id), world)

/-- Either of two components: a list is extended in its place. -/
def either (left right : ComponentRef) (world : Scene) : Except Failure ComponentRef × Scene :=
  let extend (id : Nat) (component : Component Script) : Except Failure ComponentRef × Scene :=
    (.ok (some id), { world with rules := world.rules.setComponent id component })
  match left with
  | none => (.error lacking, world)
  | some id =>
    match world.rules.component? id with
    | some (.triggerList items) => extend id (.triggerList (items ++ [right]))
    | some (.anyOf items) => extend id (.anyOf (items ++ [right]))
    | some component =>
      match component.type with
      | .trigger => added (.triggerList [left, right]) world
      | .condition => added (.anyOf [left, right]) world
      | .action => (.error lacking, world)
    | none => (.error lacking, world)

/-- The opposite of a condition: an inverted condition gives back its base. -/
def opposite (component : ComponentRef) (world : Scene) : Except Failure ComponentRef × Scene :=
  match component.bind world.rules.component? with
  | some (.inverted base) => (.ok base, world)
  | some found =>
    if found.type = .condition then added (.inverted component) world else (.error lacking, world)
  | none => (.error lacking, world)

/-- A component with other parameters. -/
def withParameters (component : ComponentRef) (parameters : Parameters) (world : Scene) :
    Except Failure ComponentRef × Scene :=
  match component.bind world.rules.component? with
  | some (.paramCondition name test _) => added (.paramCondition name test parameters) world
  | some (.paramAction name deed _) => added (.paramAction name deed parameters) world
  | _ => (.error lacking, world)

def mapEntries : Value → List (String × Value)
  | .map entries => entries
  | _ => []

/-- Evaluate expressions in order, up to the first fault. -/
def evaluateEach (evaluate : Value → Scene → Except Failure ComponentRef × Scene) :
    List Value → Scene → Except Failure (List ComponentRef) × Scene
  | [], world => (.ok [], world)
  | expression :: rest, world =>
    match evaluate expression world with
    | (.error failure, world) => (.error failure, world)
    | (.ok component, world) =>
      let (components, world) := evaluateEach evaluate rest world
      (components.map (component :: ·), world)

/-- Chain alternatives onto a component. -/
def eitherOfAll : ComponentRef → List ComponentRef → Scene → Except Failure ComponentRef × Scene
  | component, [], world => (.ok component, world)
  | component, next :: rest, world =>
    match either component next world with
    | (.ok component, world) => eitherOfAll component rest world
    | failed => failed

/-- Use the components of some expressions. -/
def usingAll (components : Except Failure (List ComponentRef) × Scene)
    (f : List ComponentRef → Scene → Except Failure ComponentRef × Scene) :
    Except Failure ComponentRef × Scene :=
  match components with
  | (.error failure, world) => (.error failure, world)
  | (.ok components, world) => f components world

/-- Use the component of an expression. -/
def using1 (component : Except Failure ComponentRef × Scene)
    (f : ComponentRef → Scene → Except Failure ComponentRef × Scene) :
    Except Failure ComponentRef × Scene :=
  match component with
  | (.ok component, world) => f component world
  | failed => failed

/-- Evaluate an expression for a component.  `depth` bounds how deep expressions lie in each
other. -/
def evaluateWithin : Nat → Value → Scene → Except Failure ComponentRef × Scene
  | 0, _, world => (.error RuleStore.endless, world)
  | depth + 1, expression, world =>
    let evaluate := evaluateWithin depth
    let parameters := mapEntries (expression.getD "params") ++ mapEntries (expression.getD "kw")
    match expression with
    | .null => (.ok none, world)
    | .text name => (referredTo name world, world)
    | .map (("or", .list items) :: _) =>
      usingAll (evaluateEach evaluate items world) fun components world =>
        match components with
        | [] => (.ok none, world)
        | first :: rest => eitherOfAll first rest world
    | .map [("not", inner)] => using1 (evaluate inner world) opposite
    | .map [("inverted", inner)] =>
      using1 (evaluate inner world) fun base world => added (.inverted base) world
    | .map [("orlist", .list items)] =>
      usingAll (evaluateEach evaluate items world) fun components world =>
        added (.anyOf components) world
    | .map [("triggers", .list items)] =>
      usingAll (evaluateEach evaluate items world) fun components world =>
        added (.triggerList components) world
    | .map [("load", data)] =>
      let (loaded, world) := world.onRules (·.loadComponent world.host.book data)
      (loaded.map some, world)
    | .map [("base", key)] => ((world.rules.baseComponent world.host.book key.shown).map some, world)
    | expression =>
      match expression.get? "with" with
      | some inner =>
        using1 (evaluate inner world) fun component world =>
          withParameters component (OrderedMap.ofList parameters).entries world
      | none => (.error (.fault .wrongValue "not an expression"), world)

/-- Evaluate an expression for a component. -/
def evaluate (expression : Value) (world : Scene) : Except Failure ComponentRef × Scene :=
  evaluateWithin (expression.depth + 1) expression world

end Steward.Scripting
