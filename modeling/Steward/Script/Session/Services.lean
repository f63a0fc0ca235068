import Steward.Script.Session.App
import Steward.Script.Session.Permissions
import Steward.Script.Session.Rules

/-!
# Sessions with a bot

A session runs the core services of a bot over a disk of its own: events arrive, commands are run,
permissions and rules are kept in files, and prompts wait for answers.
-/

namespace Steward.Scripting

/-- The words for the core services. -/
def coreServices : List (String × Extension Script) :=
  [("permission", Extension.permissionService), ("interaction", Extension.ruleService),
    ("command", Extension.commandService)]

/-- The segments of a path.  A point by itself leads nowhere. -/
def segmentsOf (path : String) : FilePath :=
  (path.splitOn "/").filter fun segment => !segment.isEmpty && segment != "."

/-- Put the files of a description on a disk: a text, a document, or null for a directory. -/
def putFiles : List (String × Value) → Disk → Disk
  | [], disk => disk
  | (path, content) :: rest, disk =>
    let segments := segmentsOf path
    let next : Except Failure Disk :=
      match content with
      | .null => disk.makeDirectories [] segments
      | .text text =>
        let (outcome, disk) := disk.write segments text
        outcome.map fun _ => disk
      | document =>
        let (outcome, disk) := disk.write segments (Json.write .compact document)
        outcome.map fun _ => disk
    match next with
    | .ok disk => putFiles rest disk
    | .error _ => putFiles rest disk

/-- The texts of all files by their paths. -/
def fileTexts (disk : Disk) : Value :=
  .map (disk.files.map fun (path, text) => ("/".intercalate path, .text text))

/-- The handler of a description. -/
def handlerOf (document : Value) : Option (ResultHandler Script) :=
  (document.get? "handler").bind fun word => word.text?.map fun word => .custom (.handler word)

/-- The world that a session begins with. -/
def openServices (document : Value) : Except Failure Scene :=
  match Settings.ofValue ((document.get? "config").getD (.map [])) with
  | .error _ => .error (.fault .invalidDocument "not settings")
  | .ok settings =>
    let world : Scene := .new .empty { settings with dataDirectory := "" } []
    let disk := putFiles (mapEntries (document.getD "files")) .empty
    let world := { world with storage := { world.storage with disk := disk } }
    let words := (document.get? "services").elim (coreServices.map Prod.fst) fun services =>
      textsOf (services.list?.getD [])
    let world := words.foldl
      (fun world word => ((coreServices.find? (·.1 == word)).map Prod.snd).elim world
        (World.addExtension · world))
      world
    let world := (listAt document "commands").foldl
      (fun world command => World.registerCommand (nodeOf command) world) world
    let world := world.onApp fun app =>
      { app with desk := { app.desk with handler := handlerOf document } }
    .ok (if holds document "bot" then World.makeBot world else world)

/-- The failure of asking for a service that there is not. -/
def absent (service : String) : Failure := .fault .missingKey service

/-- Whether the application has a service. -/
def hasService (service : String) (world : Scene) : Bool := world.app.services.contains service

/-- Use the permissions, which are there once they were loaded. -/
def withPermissions (f : PermissionStore → Except Failure Value × PermissionStore) : Part Value :=
  fun world =>
    if !hasService "PermissionService" world then (.error (absent "PermissionService"), world)
    else if !world.app.hasPermissions then (.error lacking, world)
    else world.onPermissions f

/-- Use the book of the rules, which is there once they were loaded. -/
def withBook {α : Type} (f : Nat → Part α) : Part α := fun world =>
  if !hasService "InteractionService" world then (.error (absent "InteractionService"), world)
  else
    match world.app.ruleBook with
    | none => (.error lacking, world)
    | some book => f book { world with host := { world.host with book := book } }

/-- Make a group with some permits and register it. -/
def addGroup (document : Value) (store : PermissionStore) : Except Failure Value × PermissionStore :=
  let name := textAt document "name" ""
  let (id, store) := (document.get? "role").elim (store.addGroup name) (store.addRoleGroup name)
  let store := (listAt document "set").foldl
    (fun store entry =>
      match entry with
      | .list [path, number] => store.setPermit id (pathOf path) ((Permit.ofValue? number).getD .none)
      | _ => store)
    store
  let (outcome, store) := store.register id
  (outcome.map fun _ => .null, store)

/-- Look up a member's permissions under a name. -/
def bindMember (name : String) (member : Value) : Part Value := fun world =>
  match withPermissions (fun store =>
      let (id, store) := store.forMember (memberOf member)
      (id.map fun id => .int id, store)) world with
  | (.ok (.int id), world) =>
    let members := world.host.members.insert name id.toNat
    (.ok .null, { world with host := { world.host with members := members } })
  | other => other

/-- Check a path for the member of a name. -/
def checkMember (name : String) (path : Value) : Part Value := fun world =>
  match world.host.members.get? name with
  | none => (.error (missingVariable name), world)
  | some id => withPermissions (fun store =>
      let (permit, store) := store.check id (pathOf path) .deny
      (permit.map fun permit => .text permit.name, store)) world

/-- The keys of the commands; null before there are any. -/
def commandKeys (world : Scene) : Except Failure Value :=
  if !hasService "CommandService" world then .error (absent "CommandService")
  else .ok (world.app.desk.registry.elim .null fun registry =>
    .list (registry.table.keys.map .text))

/-- Register a command, and answer the keys. -/
def registerNode (document : Value) : Part Value := fun world =>
  let world := World.registerCommand (nodeOf document) world
  (commandKeys world, world)

/-- The expressions of a field, which may hold one or a list of them. -/
def expressionsAt (document : Value) (key : String) : List Value :=
  match document.get? key with
  | none => []
  | some (.list items) => items
  | some expression => [expression]

/-- Run parts one after the other, up to the first fault. -/
def inTurn : List (Part Value) → Part Value
  | [], world => (.ok .null, world)
  | part :: rest, world =>
    match part world with
    | (.ok _, world) => inTurn rest world
    | failed => failed

/-- Build a rule from the standard components, and answer how it is shown. -/
def addRule (document : Value) : Part Value :=
  withBook fun book world =>
    let (rule, world) := world.onRules (·.build book)
    let use (f : RuleStore Script → Nat → ComponentRef → Except Failure Unit × RuleStore Script)
        (expression : Value) : Part Value :=
      withComponent expression fun component => silently (onStore fun _ store => f store rule component)
    let named : List (Part Value) := ((document.get? "persist").map fun name =>
      silently (onStore fun _ store => store.persist rule name.text?)).toList
    let parts := named ++ (expressionsAt document "when").map (use RuleStore.setTrigger) ++
      (expressionsAt document "if").map (use RuleStore.addCondition) ++
      (expressionsAt document "then").map (use RuleStore.addAction) ++
      [silently fun world => World.change told (·.create rule) world]
    match inTurn parts world with
    | (.ok _, world) => (.ok (.text (((world.rules.rule? rule).map Rule.label).getD "")), world)
    | failed => failed

/-- How the rules are shown. -/
def ruleLabels : Part Value :=
  withBook fun book world =>
    let labels := (world.rules.book book).rules.values.filterMap fun rule =>
      (world.rules.rule? rule).map fun rule => Value.text rule.label
    (.ok (.list labels), world)

/-- Begin a prompt in the channel of a message, under a name. -/
def beginConfirmation (name : String) (message member warning : Value) : SceneCourse Value := do
  let world ← Course.read id
  if !hasService "InteractionService" world then Course.fail (absent "InteractionService")
  else
    let task ← match world.app.ruleBook with
      | some book =>
        Course.begin (.errand (.confirm book (channelOf message) (memberOf member) warning.shown
          world.app.settings.confirmTimeout.toBinary64))
      | none => do
        let promise ← Course.promise
        Course.settle promise (.error (.failed lacking))
        pure promise
    Course.modify fun world =>
      { world with host := { world.host with tasks := world.host.tasks.insert name task } }
    return .null

/-- Wait for the answer to the prompt of a name. -/
def confirmation (name : String) : SceneCourse Value := do
  match ← Course.read (·.host.tasks.get? name) with
  | none => Course.fail (missingVariable name)
  | some task => Course.wait (.task task)

/-- Whether there is a bot. -/
def isBot (world : Scene) : Bool := world.app.singletons.contains World.clientName

/-- What is known of the bot: its connection is the singleton and is told of messages and members, and
whether the results of commands are handled. -/
def botInfo (world : Scene) : Value :=
  .list [.bool (isBot world), .bool true, .bool true,
    .bool (hasService "CommandService" world && world.app.desk.handler.isSome)]

/-- A step of the bot. -/
def botStep (callbacks : Callbacks Script Names) (word : String) (arguments : List Value) :
    SceneCourse Value := do
  let act : SceneCourse Unit :=
    match word, arguments with
    | "bot_setup", _ | "bot_setup_hook", _ => Running.setUp callbacks
    | "bot_dispatch", .text event :: arguments => Running.pass event (arguments.map argumentOf)
    | "bot_ready", _ => do
      let _ ← Running.ready callbacks
    | "bot_shutdown", _ | "bot_close", _ => Running.shutDown callbacks
    | _, _ => do
      let _ ← unknownStep
  if ← Course.read isBot then act else Course.fail lacking
  return .null

/-- Run a step of a session; `form` is how a failure is shown. -/
def serviceStep (callbacks : Callbacks Script Names) (form : Failure → Value) :
    List Value → SceneCourse Value
  | [.text "load_all"] => loadEverything callbacks form
  | .text "call" :: .text event :: arguments => emit callbacks event arguments
  | [.text "register", document] => wholly (registerNode document)
  | [.text "commands"] => wholly fun world => (commandKeys world, world)
  | [.text "save_data", reason] => saveEverything callbacks reason
  | [.text "files"] => ask fun world => fileTexts world.storage.disk
  | [.text "group", document] => wholly (withPermissions (addGroup document))
  | [.text "member", .text name, member] => wholly (bindMember name member)
  | [.text "check", .text name, path] => wholly (checkMember name path)
  | [.text "interaction", document] => wholly (addRule document)
  | [.text "interactions"] => wholly ruleLabels
  | [.text "listeners"] => ask listenerCounts
  | [.text "confirm", .text name, message, member, warning] =>
    beginConfirmation name message member warning
  | [.text "confirmed", .text name] => confirmation name
  | [.text "sleep", seconds] => do
    Course.sleep (binaryOf seconds)
    return .null
  | [.text "bot_info"] => ask botInfo
  | .text word :: arguments => botStep callbacks word arguments
  | [] => unknownStep
  | _ => unknownStep

end Steward.Scripting
