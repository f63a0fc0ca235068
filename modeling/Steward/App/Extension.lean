import Steward.Config.Settings
import Steward.Command.Registry
import Steward.Journal
import Steward.Loop.Activity

/-!
# Extensions of an application

An application is made of services and modules.  Every one of them goes through the stages of
starting up: it is loaded once, told when all are loaded, and told when the bot is ready.
-/

namespace Steward

/-- The stages of starting up. -/
inductive Stage where
  | load
  | postLoad
  | ready
  deriving DecidableEq, Repr

def Stage.word : Stage → String
  | .load => "load"
  | .postLoad => "post_load"
  | .ready => "ready"

/-- What becomes of a stage when an extension fails in it. -/
inductive StagePolicy where
  /-- The stage ends there. -/
  | abort
  /-- The others still run. -/
  | proceed
  deriving DecidableEq, Repr

inductive ExtensionKind where
  | service
  | module
  deriving DecidableEq, Repr

/-- What can be depended on. -/
inductive DependencyKind where
  | service
  | module
  | singleton
  deriving DecidableEq, Repr

def DependencyKind.word : DependencyKind → String
  | .service => "services"
  | .module => "modules"
  | .singleton => "singletons"

/-- What was found for a dependency. -/
inductive Dependency where
  /-- An extension, by its number. -/
  | extension (number : Nat)
  | value (value : Value)

/-- What an extension does: something of its own, or one of the core services. -/
inductive Role (F : Type) where
  | custom (callback : F)
  | permissions
  | rules
  | commands
  deriving DecidableEq, Repr

structure Extension (F : Type) where
  /-- The word for its kind, which is also its name unless it has another. -/
  word : String
  name : String
  kind : ExtensionKind
  role : Role F
  /-- Whether it has seen its application. -/
  attached : Bool
  loaded : Bool
  deriving DecidableEq, Repr

namespace Extension

variable {F : Type}

def new (word : String) (name : Option String) (kind : ExtensionKind) (role : Role F) : Extension F where
  word := word
  name := match name with
    | some name => if name.isEmpty then word else name
    | none => word
  kind := kind
  role := role
  attached := false
  loaded := false

def label (extension : Extension F) : String :=
  extension.word ++ "(name=" ++ Quoted.quote extension.name ++ ", loaded=" ++
    (if extension.loaded then "True" else "False") ++ ")"

/-- The part of the library that the extension logs as. -/
def source (extension : Extension F) : Source :=
  match extension.kind with
  | .service => .service extension.name
  | .module => .module extension.name

/-- The core services. -/
def permissionService : Extension F := .new "PermissionService" none .service .permissions

def ruleService : Extension F := .new "InteractionService" none .service .rules

def commandService : Extension F := .new "CommandService" none .service .commands

end Extension

/-- What becomes of the result of a command that came as a message. -/
inductive ResultHandler (F : Type) where
  /-- It is delivered to the channel. -/
  | deliver
  | custom (callback : F)
  deriving DecidableEq, Repr

/-- The state of the command service. -/
structure CommandDesk (F : Type) where
  registry : Option (CommandRegistry F)
  /-- Commands that wait for the registry. -/
  waiting : List (Node F)
  /-- Whether the permission service was found. -/
  linked : Bool
  handler : Option (ResultHandler F)

/-- The outcome of a stage for one extension. -/
structure StageResult where
  extension : String
  stage : Stage
  failure : Option Failure
  deriving Repr

/-- What is noted of a start-up.  Extensions are known by number. -/
inductive StartNote where
  /-- The listeners of an extension are about to be subscribed. -/
  | begins (number : Nat)
  /-- An extension's own part of a stage is about to run. -/
  | runs (number : Nat) (stage : Stage)
  | ran (number : Nat) (stage : Stage) (failure : Option Failure)
  /-- An extension was loaded, or failed to load. -/
  | ends (number : Nat) (failure : Option Failure)
  /-- An extension that was required is handed out. -/
  | handed (number : Nat) (loaded : Bool)
  deriving Repr

structure App (F : Type) where
  settings : Settings
  policies : List (Stage × StagePolicy)
  /-- All extensions that were ever added. -/
  extensions : List (Extension F)
  services : OrderedMap String Nat
  modules : OrderedMap String Nat
  singletons : OrderedMap String Value
  desk : CommandDesk F
  /-- The book of the rule service. -/
  ruleBook : Option Nat
  /-- Whether the permission service has its permissions. -/
  hasPermissions : Bool
  /-- The task that saves from time to time, and the series of saves that it belongs to. -/
  autosave : Option (Nat × TaskId)
  /-- How many series of saves were begun. -/
  autosaveSeries : Nat
  /-- What was noted of starting up, in order. -/
  notes : List StartNote

def App.new {F : Type} (settings : Settings) (policies : List (Stage × StagePolicy)) : App F where
  settings := settings
  policies := policies
  extensions := []
  services := .empty
  modules := .empty
  singletons := .empty
  desk := ⟨none, [], false, none⟩
  ruleBook := none
  hasPermissions := false
  autosave := none
  autosaveSeries := 0
  notes := []

end Steward
