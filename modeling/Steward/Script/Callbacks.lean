import Steward.App.Running
import Steward.Script.Command
import Steward.Script.Listening
import Steward.Script.Rule

/-!
# Scripts as callbacks

What scripts do wherever the library asks for a callback: the parts of extensions and the handling of
results, and all kinds of scripts in one record.
-/

namespace Steward.Scripting

def dependencyKind? : String → Option DependencyKind
  | "services" => some .service
  | "modules" => some .module
  | "singletons" => some .singleton
  | _ => none

/-- How an extension is shown: its label and whether it has seen its application. -/
def showExtension (number : Nat) (world : Scene) : Value :=
  match world.extension? number with
  | some extension => .list [.text extension.label, .bool extension.attached]
  | none => .null

def showDependency (dependency : Option Dependency) (world : Scene) : Value :=
  match dependency with
  | some (.extension number) => showExtension number world
  | some (.value value) => value
  | none => .null

/-- Resolve or require a dependency. -/
def find (dependencies : Dependencies Script Names) (required : Bool) (kind name : String)
    (world : Scene) : Except Failure (Option Dependency) × Scene :=
  match dependencyKind? kind with
  | none => (.error (.fault .wrongValue "not a kind of dependency"), world)
  | some kind =>
    if required then
      let (outcome, world) := dependencies.require kind name world
      (outcome.map some, world)
    else
      let (found, world) := dependencies.resolve kind name world
      (.ok found, world)

/-- Run the steps of an extension's part of a stage, up to the first fault. -/
def runHookSteps (dependencies : Dependencies Script Names) :
    List Value → Scene → Except Failure Unit × Scene
  | [], world => (.ok (), world)
  | .list [.text "raise", text] :: _, world => (.error (.unexpected text.shown), world)
  | .list [.text verb, .text kind, .text name] :: rest, world =>
    match find dependencies (verb == "require") kind name world with
    | (.error failure, world) => (.error failure, world)
    | (.ok found, world) =>
      runHookSteps dependencies rest (note [.text verb, showDependency found world] world)
  | _ :: rest, world => runHookSteps dependencies rest world

/-- Run an extension's part of a stage; an extension without a description does nothing. -/
def runHook (dependencies : Dependencies Script Names) (script : Script) (stage : Stage) (_ : Nat)
    (world : Scene) : Except Failure Unit × Scene :=
  match script with
  | .extension _ .null => (.ok (), world)
  | .extension name document =>
    runHookSteps dependencies (listAt document stage.word) (note [.text stage.word, .text name] world)
  | _ => (.ok (), world)

/-- The events that an extension listens to. -/
def subscriptions : Script → List (String × Script)
  | .extension name document =>
    (textsOf (listAt document "listen")).map fun event => (event, .hearing name event)
  | _ => []

/-- Handle the result of a command; `form` is how the result is noted. -/
def handle (form : CommandResult → Value) (script : Script) (result : CommandResult)
    (message : Message) : SceneCourse Unit := do
  match script with
  | .handler word =>
    if word == "async" then Course.sleep (Binary64.ofDecimal false 5 (-1))
    Course.modify (note [.text "handled", form result, .int message.id])
    if word == "raise" then Course.fail (.unexpected "handler failed")
  | _ => return ()

/-- All kinds of scripts. -/
def callbacks (form : CommandResult → Value) : Callbacks Script Names where
  parser := read
  lookup := resolve
  written := written
  assertion := assert
  execute := execute
  goesOn
    | .listener _ document => waits document
    | _ => false
  listen := listen
  observe := observe
  mapper := mapArguments
  test := test
  act := act
  told := told
  subscriptions := subscriptions
  hook := runHook
  handle := handle form
  patience := 10000

end Steward.Scripting
