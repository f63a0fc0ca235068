import Steward.App.Services

/-!
# Starting up

A stage runs on every service and then on every module, in the order of registration, and gives one
result for each.  Loading happens once: an extension that is loaded already has nothing to do, and one
that requires another gets it loaded first.
-/

namespace Steward

namespace World

variable {F H : Type}

/-- Add an extension under its name, in the place of an earlier one of that name. -/
def addExtension (extension : Extension F) (world : World F H) : World F H :=
  world.onApp fun app =>
    let number := app.extensions.length
    let app := { app with extensions := app.extensions ++ [extension] }
    match extension.kind with
    | .service => { app with services := app.services.insert extension.name number }
    | .module => { app with modules := app.modules.insert extension.name number }

def addSingleton (name : String) (value : Value) (world : World F H) : World F H :=
  world.onApp fun app => { app with singletons := app.singletons.insert name value }

def extension? (world : World F H) (number : Nat) : Option (Extension F) :=
  world.app.extensions[number]?

def updateExtension (number : Nat) (f : Extension F → Extension F) (world : World F H) : World F H :=
  world.onApp fun app => { app with extensions := app.extensions.modify number f }

def note (entry : StartNote) (world : World F H) : World F H :=
  world.onApp fun app => { app with notes := app.notes ++ [entry] }

/-- The extensions in the order of the stages. -/
def extensions (world : World F H) : List Nat :=
  world.app.services.values ++ world.app.modules.values

/-- Look up a dependency; null is no value. -/
def find? (kind : DependencyKind) (name : String) (world : World F H) : Option Dependency :=
  match kind with
  | .service => (world.app.services.get? name).map .extension
  | .module => (world.app.modules.get? name).map .extension
  | .singleton =>
    match world.app.singletons.get? name with
    | none | some .null => none
    | some value => some (.value value)

/-- Look up a dependency, with a record if it is not there. -/
def resolve (kind : DependencyKind) (name : String) (world : World F H) :
    Option Dependency × World F H :=
  match world.find? kind name with
  | some found => (some found, world)
  | none =>
    (none, enter (.log .warning .application (Failure.missingDependency kind.word name).message) world)

/-- Subscribe a listener for each of some events. -/
def subscribeEach (callbacks : Callbacks F H) :
    List (String × Target F) → World F H → Except Failure Unit × World F H
  | [], world => (.ok (), world)
  | (event, target) :: rest, world =>
    match subscribeNew callbacks.observe event target 0 none world with
    | (.error failure, _, world) => (.error failure, world)
    | (.ok _, _, world) => subscribeEach callbacks rest world

/-- The events that an extension listens to. -/
def subscriptionsOf (callbacks : Callbacks F H) : Role F → List (String × Target F)
  | .custom name => (callbacks.subscriptions name).map fun (event, listener) => (event, .callback listener)
  | .permissions =>
    [(saveDataEvent, .savePermissions), (platformEvent "member_update", .followMember)]
  | .rules => [(saveDataEvent, .saveRules)]
  | .commands => [(platformEvent "message", .runCommand)]

/-- Load the command service, which needs the permission service, and register the commands that
waited for it. -/
def loadCommands (dependencies : Dependencies F H) (world : World F H) :
    Except Failure Unit × World F H :=
  let settings := world.app.settings
  let registry := CommandRegistry.new settings.lead settings.logsCommands
  let world := world.onApp fun app => { app with desk := { app.desk with registry := some registry } }
  match dependencies.require .service "PermissionService" world with
  | (.error failure, world) => (.error failure, world)
  | (.ok _, world) =>
    let world := world.onApp fun app => { app with desk := { app.desk with linked := true } }
    (.ok (), registerWaiting world)

/-- An extension's own part of a stage. -/
def ownPart (callbacks : Callbacks F H) (dependencies : Dependencies F H) (stage : Stage) (number : Nat)
    (role : Role F) (world : World F H) : Except Failure Unit × World F H :=
  match role, stage with
  | .custom name, stage => callbacks.hook dependencies name stage number world
  | .permissions, .load => loadPermissions world
  | .rules, .load => loadRuleBook callbacks world
  | .commands, .load => loadCommands dependencies world
  | _, _ => (.ok (), world)

def failureOf : Except Failure Unit → Option Failure
  | .ok _ => none
  | .error failure => some failure

/-- Run an extension's own part of a stage. -/
def runHook (callbacks : Callbacks F H) (dependencies : Dependencies F H) (stage : Stage) (number : Nat)
    (role : Role F) (world : World F H) : Except Failure Unit × World F H :=
  let (outcome, world) :=
    ownPart callbacks dependencies stage number role (world.note (.runs number stage))
  (outcome, world.note (.ran number stage (failureOf outcome)))

/-- Load an extension: it sees its application, its listeners are subscribed, and its own part
runs. -/
def runLoading (callbacks : Callbacks F H) (dependencies : Dependencies F H) (number : Nat)
    (extension : Extension F) (world : World F H) : Except Failure Unit × World F H :=
  let world := (world.note (.begins number)).updateExtension number fun e =>
    { e with attached := true }
  match subscribeEach callbacks (subscriptionsOf callbacks extension.role) world with
  | (.error failure, world) => (.error failure, world)
  | (.ok _, world) =>
    match runHook callbacks dependencies .load number extension.role world with
    | (.error failure, world) => (.error failure, world)
    | (.ok _, world) => (.ok (), world.updateExtension number fun e => { e with loaded := true })

/-- The result of a stage for an extension, with a record of its failure. -/
def conclude (extension : Extension F) (stage : Stage) :
    Except Failure Unit × World F H → StageResult × World F H
  | (.ok _, world) => (⟨extension.name, stage, none⟩, world)
  | (.error failure, world) =>
    let text := "Error in " ++ extension.name ++ "." ++ stage.word ++ "()"
    (⟨extension.name, stage, some failure⟩,
      enter (.logAttached .error .application text failure) world)

/-- Look up a dependency; `load` loads an extension that is not loaded. -/
def requireWith (load : Nat → World F H → World F H) (kind : DependencyKind) (name : String)
    (world : World F H) : Except Failure Dependency × World F H :=
  match world.find? kind name with
  | none => (.error (.missingDependency kind.word name), world)
  | some (.extension number) =>
    let world := load number world
    let noted := match world.extension? number with
      | some extension => world.note (.handed number extension.loaded)
      | none => world
    (.ok (.extension number), noted)
  | some found => (.ok found, world)

/-- Load an extension unless it is loaded.  `depth` bounds how long chains of requirements are. -/
def loadWithin (callbacks : Callbacks F H) : Nat → Nat → Extension F → World F H →
    StageResult × World F H
  | depth, number, extension, world =>
    if extension.loaded then (⟨extension.name, .load, none⟩, world)
    else
      match depth with
      | 0 =>
        conclude extension .load (.error (.fault .tooDeep "requirements go in a circle"), world)
      | depth + 1 =>
        let load (number : Nat) (world : World F H) : World F H :=
          match world.extension? number with
          | some required => (loadWithin callbacks depth number required world).2
          | none => world
        let dependencies : Dependencies F H := ⟨resolve, requireWith load⟩
        let (outcome, world) := runLoading callbacks dependencies number extension world
        conclude extension .load (outcome, world.note (.ends number (failureOf outcome)))

/-- Load an extension.  Requirements that do not go in a circle form chains that are at most as long
as there are extensions. -/
def loadExtension (callbacks : Callbacks F H) (number : Nat) (extension : Extension F)
    (world : World F H) : StageResult × World F H :=
  loadWithin callbacks (world.app.extensions.length + 1) number extension world

/-- Load what is required, if it is an extension. -/
def loadRequired (callbacks : Callbacks F H) (number : Nat) (world : World F H) : World F H :=
  match world.extension? number with
  | some extension => (loadExtension callbacks number extension world).2
  | none => world

/-- Look up a dependency and load it. -/
def require (callbacks : Callbacks F H) (kind : DependencyKind) (name : String) (world : World F H) :
    Except Failure Dependency × World F H :=
  requireWith (loadRequired callbacks) kind name world

/-- Run a stage on one extension. -/
def runOn (callbacks : Callbacks F H) (stage : Stage) (number : Nat) (extension : Extension F)
    (world : World F H) : StageResult × World F H :=
  match stage with
  | .load => loadExtension callbacks number extension world
  | stage =>
    let dependencies : Dependencies F H := ⟨resolve, require callbacks⟩
    conclude extension stage (runHook callbacks dependencies stage number extension.role world)

/-- What becomes of a stage when an extension fails in it: loading is given up, other stages go on,
unless the application decides otherwise. -/
def policy (world : World F H) (stage : Stage) : StagePolicy :=
  match world.app.policies.find? (·.1 == stage) with
  | some (_, policy) => policy
  | none => if stage = .load then .abort else .proceed

/-- Run a stage on some extensions, up to the failure that ends it. -/
def runEach (callbacks : Callbacks F H) (stage : Stage) (policy : StagePolicy) :
    List Nat → World F H → List StageResult × World F H
  | [], world => ([], world)
  | number :: rest, world =>
    match world.extension? number with
    | none => runEach callbacks stage policy rest world
    | some extension =>
      let (result, world) := runOn callbacks stage number extension world
      if result.failure.isSome && policy == .abort then
        let text := "Stage " ++ stage.word ++ " aborted after " ++ extension.name ++ " failed"
        ([result], enter (.log .error .application text) world)
      else
        let (results, world) := runEach callbacks stage policy rest world
        (result :: results, world)

/-- Run a stage on every service, then on every module. -/
def runStage (callbacks : Callbacks F H) (stage : Stage) (world : World F H) :
    List StageResult × World F H :=
  runEach callbacks stage (world.policy stage) world.extensions world

/-- Load everything and tell everyone that it is loaded, unless loading was given up. -/
def loadAll (callbacks : Callbacks F H) (world : World F H) : List StageResult × World F H :=
  let (results, world) := runStage callbacks .load world
  if world.policy .load == .abort && results.any (·.failure.isSome) then (results, world)
  else
    let (further, world) := runStage callbacks .postLoad world
    (results ++ further, world)

/-- The bot's connection as a singleton. -/
def clientName : String := "client"

/-- Make a bot of the application: its connection becomes a singleton, and the command service
delivers its results unless it has a handler. -/
def makeBot (world : World F H) : World F H :=
  let world := world.addSingleton clientName (.other "BotClient")
  let (found, world) := resolve .service "CommandService" world
  match found with
  | some (.extension number) =>
    match world.extension? number with
    | some ⟨_, _, _, .commands, _, _⟩ =>
      world.onApp fun app =>
        { app with desk := { app.desk with handler := some (app.desk.handler.getD .deliver) } }
    | _ => world
  | _ => world

end World

end Steward
