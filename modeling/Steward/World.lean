import Steward.App.Extension
import Steward.Command.Dispatch
import Steward.Document.Storage
import Steward.Event.Bus
import Steward.Parse.Lookup
import Steward.Permission.Groups
import Steward.Rule.Standard

/-!
# The world of a bot

The state that all parts of a bot share: the journal, the event bus, the rules, the permissions, the
storage and the application, and whatever the callbacks keep for themselves.  Callbacks are known by
names of a type `F`; the state they keep has a type `H`.
-/

namespace Steward

/-- What a listener of the bus does. -/
inductive Target (F : Type) where
  | callback (name : F)
  /-- Fire the triggers of a rule book that are attached to an event. -/
  | fireRules (book : Nat) (event : String)
  | savePermissions
  | saveRules
  /-- Look at a member anew. -/
  | followMember
  /-- Run the command in a message. -/
  | runCommand
  deriving DecidableEq, Repr

/-- Work that runs by itself. -/
inductive Errand (F : Type) where
  | publish (event : String) (arguments : List Value)
  | listen (target : Target F) (arguments : List Value)
  | trigger (rule : Nat) (arguments : Value)
  /-- Ask a member for a confirmation, with a rule of a book. -/
  | confirm (book : Nat) (channel : Channel) (asked : Account) (warning : String) (timeout : Binary64)
  /-- Keep a promise when a task ends: at once if it fails, and else if the other tasks have ended. -/
  | report (task : TaskId) (others : List TaskId) (promise : TaskId)
  /-- Take note that the client is ready. -/
  | ready

/-- What a task or a timer runs. -/
inductive Job (F : Type) where
  | lookup (job : LookupJob F)
  | errand (errand : Errand F)
  /-- An errand whose failure is logged. -/
  | background (label : TaskLabel) (errand : Errand F)
  /-- The delayed call of a listener. -/
  | delayed (event : String) (target : Target F) (arguments : List Value)
  /-- The end of a prompt's time. -/
  | expire (rule : Nat) (promise : TaskId)
  /-- Save from time to time, as a part of a series. -/
  | autosave (series : Nat)

structure World (F H : Type) where
  /-- What happened, the latest first. -/
  journal : List Entry
  host : H
  bus : Bus (Target F) F
  rules : RuleStore F
  permissions : PermissionStore
  storage : Storage
  app : App F

instance {F H : Type} : Journaled (World F H) where
  enter entry world := { world with journal := entry :: world.journal }

/-- A process in the world. -/
abbrev WorldCourse (F H α : Type) := Course (World F H) (Job F) α

/-- An event on its way to its listeners. -/
structure Publication where
  event : String
  arguments : List Value
  mutable : Bool
  cancelled : Bool

namespace World

variable {F H : Type}

def new (host : H) (settings : Settings) (policies : List (Stage × StagePolicy)) : World F H where
  journal := []
  host := host
  bus := .empty
  rules := .standard
  permissions := .empty
  storage := .empty
  app := .new settings policies

def enterAll (entries : List Entry) (world : World F H) : World F H :=
  entries.foldl (fun world entry => enter entry world) world

/-- Do something to the rules. -/
def onRules {α : Type} (f : RuleStore F → α × RuleStore F) (world : World F H) : α × World F H :=
  let (result, rules) := f world.rules
  (result, { world with rules := rules })

/-- Do something to the permissions. -/
def onPermissions {α : Type} (f : PermissionStore → α × PermissionStore) (world : World F H) :
    α × World F H :=
  let (result, permissions) := f world.permissions
  (result, { world with permissions := permissions })

def onApp (f : App F → App F) (world : World F H) : World F H := { world with app := f world.app }

end World

/-- What callbacks can reach while they run: publishing events and firing rules. -/
structure Reach (F H : Type) where
  publish : Publication → WorldCourse F H Publication
  trigger : Nat → Value → WorldCourse F H Bool

/-- How observers are told the name of an event. -/
abbrev Observe (F H : Type) := F → String → World F H → Except Failure Unit × World F H

/-- How triggers are told that the rule of an id begins or ends listening. -/
abbrev Told (F H : Type) := F → Bool → Int → World F H → World F H

/-- How an extension finds what it depends on. -/
structure Dependencies (F H : Type) where
  resolve : DependencyKind → String → World F H → Option Dependency × World F H
  /-- What is required is there, and loaded. -/
  require : DependencyKind → String → World F H → Except Failure Dependency × World F H

/-- What the names of callbacks stand for. -/
structure Callbacks (F H : Type) where
  /-- Read a value. -/
  parser : F → Scan F → World F H → Answer F × Reader × World F H
  /-- The work that a reading left for later. -/
  lookup : F → WorldCourse F H Value
  /-- How the values of a parser are written, if it has a form of its own. -/
  written : F → Option (Value → String)
  assertion : F → Invocation F → World F H → Except Failure (Option String) × World F H
  execute : F → Invocation F → Activity (World F H) (Job F) (Exit Reply × Invocation F)
  /-- Whether a listener goes on after it was called, so that a delayed call of it is a task. -/
  goesOn : F → Bool
  listen : Reach F H → F → List Value → WorldCourse F H Value
  observe : Observe F H
  /-- Turn the arguments of an event into the arguments of rules. -/
  mapper : F → List Value → Except Failure Value
  test : F → Value → Parameters → World F H → Except Failure Value × World F H
  act : Reach F H → F → Value → Parameters → WorldCourse F H Value
  told : Told F H
  /-- The events that an extension listens to, and what it does about them. -/
  subscriptions : F → List (String × F)
  /-- Run an extension's part of a stage. -/
  hook : Dependencies F H → F → Stage → Nat → World F H → Except Failure Unit × World F H
  /-- Handle the result of a command. -/
  handle : F → CommandResult → Message → WorldCourse F H Unit
  /-- How far that is followed which callbacks can prolong while it goes on. -/
  patience : Nat := 0

end Steward
