import Steward.App.Running
import Steward.Script.Callbacks
import Steward.Script.Session.Events

/-!
# Sessions with an application

A session adds services, modules and singletons to an application, takes it through the stages of
starting up, and asks what depends on what.
-/

namespace Steward.Scripting

def stageOf? : String → Option Stage
  | "load" => some .load
  | "post_load" => some .postLoad
  | "ready" => some .ready
  | _ => none

/-- The policies that a document gives for stages. -/
def policiesOf (document : Value) : List (Stage × StagePolicy) :=
  (mapEntries document).filterMap fun (word, policy) =>
    (stageOf? word).map fun stage =>
      (stage, if policy.same (.text "abort") then .abort else .proceed)

/-- The extension of a description. -/
def extensionOf (word : String) (kind : ExtensionKind) (hasOwnParts : Bool) (document : Value) :
    Extension Script :=
  let name := (document.get? "name").bind (·.text?)
  let plain : Extension Script := .new word name kind .permissions
  .new word name kind
    (.custom (.extension plain.name (if hasOwnParts then document else .null)))

/-- The results of a stage; `form` is how a failure is shown. -/
def stageResults (form : Failure → Value) (results : List StageResult) : Value :=
  .list (results.map fun result =>
    .list [.text result.extension, .text result.stage.word, .bool result.failure.isNone,
      result.failure.elim .null form])

/-- A change of the world in one piece that answers a value. -/
def answering (f : Scene → Value × Scene) : SceneCourse Value := Course.ofActivity (.atomically f)

/-- Run a stage by its word. -/
def runStageNamed (callbacks : Callbacks Script Names) (form : Failure → Value) (word : String) :
    SceneCourse Value :=
  match stageOf? word with
  | none => Course.fail (.fault .wrongValue "not a stage")
  | some stage => answering fun world =>
    let (results, world) := World.runStage callbacks stage world
    (stageResults form results, world)

/-- Load everything. -/
def loadEverything (callbacks : Callbacks Script Names) (form : Failure → Value) : SceneCourse Value :=
  answering fun world =>
    let (results, world) := World.loadAll callbacks world
    (stageResults form results, world)

/-- Resolve or require a dependency. -/
def findStep (callbacks : Callbacks Script Names) (required : Bool) (kind name : String) :
    SceneCourse Value :=
  Course.atomically fun world =>
    let dependencies := Dependencies.mk World.resolve (World.require callbacks)
    let (found, world) := find dependencies required kind name world
    (found.map (showDependency · world), world)

/-- Load the service of a name, if there is one; the name itself stands for anything else. -/
def loadNamed (callbacks : Callbacks Script Names) (name : Value) : SceneCourse Value :=
  answering fun world =>
    match name.text?.bind world.app.services.get? with
    | none => (name, world)
    | some number =>
      let world := World.loadRequired callbacks number world
      (showExtension number world, world)

/-- Ask everyone to save. -/
def saveEverything (callbacks : Callbacks Script Names) (reason : Value) : SceneCourse Value := do
  Running.save callbacks reason
  return .null

def addExtension (extension : Extension Script) : SceneCourse Value :=
  change fun world => (.ok (), World.addExtension extension world)

/-- Run a step of a session; `form` is how a failure is shown. -/
def appStep (callbacks : Callbacks Script Names) (form : Failure → Value) :
    List Value → SceneCourse Value
  | [.text "service", document] => addExtension (extensionOf "Service" .service true document)
  | [.text "module", document] => addExtension (extensionOf "Module" .module true document)
  | [.text "bare", document] => addExtension (extensionOf "BotService" .service false document)
  | [.text "singleton", .text name, value] =>
    change fun world => (.ok (), World.addSingleton name value world)
  | [.text "load_all"] => loadEverything callbacks form
  | [.text "ready_all"] => runStageNamed callbacks form "ready"
  | [.text "run_stage", .text word] => runStageNamed callbacks form word
  | [.text "resolve", .text kind, .text name] => findStep callbacks false kind name
  | [.text "require", .text kind, .text name] => findStep callbacks true kind name
  | [.text "load_if_loadable", name] => loadNamed callbacks name
  | [.text "components"] => ask fun world =>
      .list (world.extensions.map (showExtension · world))
  | [.text "save_data", reason] => saveEverything callbacks reason
  | .text "call" :: .text event :: arguments => emit callbacks event arguments
  | _ => unknownStep

end Steward.Scripting
