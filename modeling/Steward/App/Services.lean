import Steward.Command.Delivery
import Steward.Rule.Prompt

/-!
# The core services

The permission service and the rule service keep their data in files and save it when asked to; the
command service runs the commands in messages and hands the results to its handler.
-/

namespace Steward

/-- The reason of the saves that happen from time to time, which are not logged. -/
def autosaveReason : String := "autosave-interval"

namespace World

variable {F H : Type}

def noAttribute : Failure := .fault .missingAttribute "no such attribute"

/-- A file below the data directory. -/
def dataFile (settings : Settings) (segments : FilePath) : DataPlace :=
  .file ((settings.dataDirectory.splitOn "/").filter (fun s => !s.isEmpty && s != ".") ++ segments)

def permissionPlace (world : World F H) : DataPlace :=
  dataFile world.app.settings ["permission-service", "data.json"]

def rulePlace (world : World F H) : DataPlace :=
  dataFile world.app.settings ["interaction-service", "persistent-interactions.json"]

/-- Begin with no permissions, then load the saved ones. -/
def loadPermissions (world : World F H) : Except Failure Unit × World F H :=
  let world := { world with permissions := .empty }.onApp fun app => { app with hasPermissions := true }
  match world.stored (some world.permissionPlace) with
  | .error failure => (.error failure, world)
  | .ok document => world.onPermissions (·.loadAll document)

/-- Open a book with the standard components, connect it to the bus and load the saved rules. -/
def loadRuleBook (callbacks : Callbacks F H) (world : World F H) : Except Failure Unit × World F H :=
  let place := world.rulePlace
  let (book, world) := world.onRules (·.openBook (some place))
  let world := world.onApp fun app => { app with ruleBook := some book }
  match registerStandard callbacks.observe book world with
  | (.error failure, world) => (.error failure, world)
  | (.ok _, world) =>
    match connect callbacks.observe book world with
    | (.error failure, world) => (.error failure, world)
    | (.ok _, world) =>
      let (outcome, world) := loadRules callbacks.told book world
      (outcome.map fun _ => (), world)

/-- The record of a registration that takes the place of another. -/
def replacement (key : String) : Entry :=
  .log .warning .dispatcher ("Command " ++ key ++ " replaces an existing registration")

/-- Register a command; it waits until there is a registry. -/
def registerCommand (command : Node F) (world : World F H) : World F H :=
  match world.app.desk.registry with
  | none =>
    world.onApp fun app =>
      { app with desk := { app.desk with waiting := app.desk.waiting ++ [command] } }
  | some registry =>
    let (taken, registry) := registry.register command
    (world.onApp fun app => { app with desk := { app.desk with registry := some registry } }).enterAll
      (taken.map replacement)

/-- Register the commands that waited for the registry. -/
def registerWaiting (world : World F H) : World F H :=
  let waiting := world.app.desk.waiting
  let world := world.onApp fun app => { app with desk := { app.desk with waiting := [] } }
  waiting.foldl (fun world command => registerCommand command world) world

/-- The record of a save, unless it is one of those that happen from time to time. -/
def noteSave (service text : String) (data : Value) (world : World F H) :
    Except Failure Unit × World F H :=
  match data with
  | .map _ =>
    if (data.getD "reason").same (.text autosaveReason) then (.ok (), world)
    else (.ok (), enter (.log .info (.service service) text) world)
  | _ => (.error noAttribute, world)

/-- Save the permissions because of an event. -/
def savePermissions (data : Value) (world : World F H) : Except Failure Unit × World F H :=
  if !world.app.hasPermissions then (.error noAttribute, world)
  else
    match store (some world.permissionPlace) world.permissions.save world with
    | (.ok _, world) => noteSave "PermissionService" "Saved permission data" data world
    | failed => failed

/-- Save the rules because of an event. -/
def saveRuleBook (data : Value) (world : World F H) : Except Failure Unit × World F H :=
  match world.app.ruleBook with
  | none => (.error noAttribute, world)
  | some book =>
    match saveRules book world with
    | (.ok _, world) => noteSave "InteractionService" "Saved persistent interactions" data world
    | failed => failed

/-- Look at a member anew, as it is after an update. -/
def followMember (after : Value) (world : World F H) : Except Failure Unit × World F H :=
  match after with
  | .account account =>
    if world.app.hasPermissions then world.onPermissions (·.invalidateMember account)
    else (.error noAttribute, world)
  | _ => (.error noAttribute, world)

/-- What dispatching commands depends on; members are checked against the permissions if they are at
hand. -/
def dispatchEnv (callbacks : Callbacks F H) (checksPermissions : Bool) :
    DispatchEnv F (World F H) (Job F) where
  parser := callbacks.parser
  assertion := callbacks.assertion
  lacking :=
    if checksPermissions then
      some fun account paths world => world.onPermissions (·.lacking account paths)
    else none
  execute := callbacks.execute
  begin := .lookup
  patience := callbacks.patience

/-- The client that commands look up users with. -/
def client (world : World F H) : Option Client :=
  (world.app.singletons.get? "client").map fun _ => ⟨[], []⟩

end World

namespace CommandDesk

variable {F H : Type}

/-- Hand the result of a command to the handler. -/
def handle (callbacks : Callbacks F H) (handler : Option (ResultHandler F)) (result : CommandResult)
    (message : Message) : WorldCourse F H Unit :=
  match handler with
  | none => return ()
  | some .deliver => do
    let _ ← Course.atomically (Delivery.deliver result message)
  | some (.custom name) => callbacks.handle name result message

/-- Run the command in a message, unless its author is a bot. -/
def receive (callbacks : Callbacks F H) (message : Message) : WorldCourse F H Unit := do
  if message.author.isBot then return ()
  else
    let desk ← Course.read (·.app.desk)
    match desk.registry with
    | none => Course.fail World.noAttribute
    | some registry =>
      if !desk.linked then Course.fail World.noAttribute
      else
        let client ← Course.read World.client
        let env := World.dispatchEnv callbacks true
        let (outcome, _) ← Course.ofActivity (Dispatch.handleMessage env registry message client)
        match ← Course.ofExit outcome with
        | none => return ()
        | some result =>
          let handler ← Course.read (·.app.desk.handler)
          handle callbacks handler result message

end CommandDesk

end Steward
