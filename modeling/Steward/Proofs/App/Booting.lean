import Steward.App.Stages
import Steward.Proofs.Event.Subscribing
import Steward.Proofs.Rule.Frame

/-!
# The core services start up

The permission service and the rule service each keep a file.  While the core
services are loaded, whether loading succeeds or not, nobody writes to the storage,
and the listeners that were asked to save stay so, in order.  A service that fails
to load has subscribed its listener before, so from then on it is asked to save like
any other.
-/

namespace Steward

/-- The core services that keep a file. -/
inductive Keeper where
  | permissions
  | rules
  deriving DecidableEq

namespace Keeper

variable {F : Type}

def service : Keeper → String
  | .permissions => "PermissionService"
  | .rules => "InteractionService"

/-- The file of a service. -/
def path (settings : Settings) : Keeper → FilePath
  | .permissions => directory settings ++ ["permission-service", "data.json"]
  | .rules => directory settings ++ ["interaction-service", "persistent-interactions.json"]
where
  directory (settings : Settings) : FilePath :=
    (settings.dataDirectory.splitOn "/").filter fun s => !s.isEmpty && s != "."

/-- What the service does when it is asked to save. -/
def target : Keeper → Target F
  | .permissions => .savePermissions
  | .rules => .saveRules

end Keeper

namespace Extension

variable {F : Type}

/-- The services that a bot runs with, in the order in which they are loaded. -/
def coreServices : List (Extension F) := [permissionService, ruleService, commandService]

/-- An extension is a core service under its own name. -/
def IsCore (extension : Extension F) : Prop :=
  match extension.role with
  | .permissions => extension.name = Keeper.permissions.service
  | .rules => extension.name = Keeper.rules.service
  | .commands => extension.name = "CommandService"
  | .custom _ => False

/-- What a core service does when it is asked to save. -/
def saves (role : Role F) : List (Target F) :=
  match role with
  | .permissions => [Keeper.permissions.target]
  | .rules => [Keeper.rules.target]
  | .commands | .custom _ => []

/-- Whether loading a core service brings in the permissions. -/
def grants (role : Role F) : Bool :=
  match role with
  | .permissions => true
  | .rules | .commands | .custom _ => false

theorem IsCore.not_custom {extension : Extension F} (core : extension.IsCore) (callback : F) :
    extension.role ≠ .custom callback := by
  intro custom
  unfold IsCore at core
  rw [custom] at core
  exact core

theorem IsCore.saves_of_name {extension : Extension F} (core : extension.IsCore)
    {keeper : Keeper} (named : extension.name = keeper.service) :
    keeper.target ∈ saves extension.role := by
  have notCustom := core.not_custom
  unfold IsCore at core
  unfold saves
  cases role : extension.role with
  | custom callback =>
      exact absurd role (notCustom callback)
  | permissions | rules | commands =>
      rw [role] at core
      dsimp only at core ⊢
      rw [core] at named
      cases keeper with
      | permissions =>
          first
            | exact List.mem_cons_self
            | exact absurd named (by decide)
      | rules =>
          first
            | exact List.mem_cons_self
            | exact absurd named (by decide)

end Extension

namespace World

variable {F H : Type}

/-- A bot with the core services and some commands, before it is set up. -/
def withCoreServices (host : H) (settings : Settings) (policies : List (Stage × StagePolicy))
    (storage : Storage) (commands : List (Node F)) : World F H :=
  let world := { World.new host settings policies with storage := storage }
  let world := Extension.coreServices.foldl (fun world extension =>
    world.addExtension extension) world
  makeBot (commands.foldl (fun world command => registerCommand command world) world)

/-- What is done when everyone is asked to save, in order. -/
def savers (world : World F H) : List (Target F) :=
  (world.bus.listenersOf saveDataEvent).map (·.target)

/-- A bot with the core services is starting up: nobody but the services that keep
files is asked to save, some of them first, and the storage is as it was. -/
structure Boots (settings : Settings) (storage : Storage) (firsts : List (Target F))
    (hasPermissions : Bool) (world : World F H) : Prop where
  configured : world.app.settings = settings
  unwritten : world.storage = storage
  unobserved : world.bus.observers = []
  prompt : ∀ listener ∈ world.bus.listenersOf saveDataEvent,
    listener.priority = 0 ∧ listener.delay = none
  keepers : ∀ target ∈ world.savers, ∃ keeper : Keeper, target = keeper.target
  begins : firsts <+: world.savers
  permitted : hasPermissions = true → world.app.hasPermissions = true
  quiet : world.rules.IsQuiet
  housed : ∀ book, world.app.ruleBook = some book →
    (world.rules.book book).place = some (.file (Keeper.rules.path settings))
  core : ∀ extension ∈ world.app.extensions, extension.IsCore

namespace Boots

variable {settings : Settings} {storage : Storage} {firsts : List (Target F)}
  {hasPermissions : Bool} {world : World F H}

theorem weaken (boots : world.Boots settings storage firsts hasPermissions)
    {fewer : List (Target F)} (isPart : fewer <+: firsts) {perhaps : Bool}
    (permitted : perhaps = true → hasPermissions = true) :
    world.Boots settings storage fewer perhaps :=
  { boots with
    begins := isPart.trans boots.begins
    permitted := boots.permitted ∘ permitted }

theorem log (boots : world.Boots settings storage firsts hasPermissions) (entry : Entry) :
    (enter entry world).Boots settings storage firsts hasPermissions :=
  { boots with }

theorem logAll (boots : world.Boots settings storage firsts hasPermissions)
    (entries : List Entry) :
    (world.enterAll entries).Boots settings storage firsts hasPermissions := by
  induction entries generalizing world with
  | nil =>
      exact boots
  | cons entry rest ih =>
      exact ih (boots.log entry)

theorem withDesk (boots : world.Boots settings storage firsts hasPermissions)
    (desk : CommandDesk F) :
    (world.onApp fun app => { app with desk := desk }).Boots settings storage firsts
      hasPermissions :=
  { boots with }

theorem withPermissions (boots : world.Boots settings storage firsts hasPermissions)
    (permissions : PermissionStore) :
    Boots settings storage firsts hasPermissions { world with permissions := permissions } :=
  { boots with }

theorem withRules (boots : world.Boots settings storage firsts hasPermissions)
    {rules : RuleStore F} (continues : world.rules.Continues rules) :
    Boots settings storage firsts hasPermissions { world with rules := rules } :=
  { boots with
    quiet := continues.quiet boots.quiet
    housed := fun book isBook => (continues.place book).trans (boots.housed book isBook) }

theorem note (boots : world.Boots settings storage firsts hasPermissions) (entry : StartNote) :
    (world.note entry).Boots settings storage firsts hasPermissions :=
  { boots with }

theorem updateExtension (boots : world.Boots settings storage firsts hasPermissions)
    (number : Nat) {change : Extension F → Extension F}
    (keeps : ∀ extension, extension.IsCore → (change extension).IsCore) :
    (world.updateExtension number change).Boots settings storage firsts hasPermissions :=
  { boots with
    core := by
      intro extension member
      rcases List.mem_iff_getElem?.1 member with ⟨place, found⟩
      simp only [World.updateExtension, onApp, List.getElem?_modify] at found
      cases old : world.app.extensions[place]? with
      | none =>
          rw [old] at found
          cases found
      | some before =>
          have wasCore := boots.core before (List.mem_of_getElem? old)
          rw [old] at found
          simp only [Option.map_eq_map, Option.map_some, Option.some.injEq] at found
          rw [← found]
          split
          · exact keeps before wasCore
          · exact wasCore }

/-! ## Subscribing -/

/-- A subscription during the start-up succeeds; one to the saves comes last. -/
theorem subscribeNew (boots : world.Boots settings storage firsts hasPermissions)
    (observe : Observe F H) (event : String) (target : Target F)
    (allowed : event = saveDataEvent → ∃ keeper : Keeper, target = keeper.target) :
    ∃ listener after,
      World.subscribeNew observe event target 0 none world = (.ok (), listener, after) ∧
      after.Boots settings storage firsts hasPermissions ∧
      after.savers = world.savers ++ (if event = saveDataEvent then [target] else []) := by
  rcases subscribeNew_of_unobserved observe event target 0 none boots.unobserved with
    ⟨bus, subscribed, unobserved, listeners⟩
  refine ⟨_, _, subscribed, ?_⟩
  have last := Bus.place_of_not_higher ⟨world.bus.nextListener, event, target, 0, none⟩
    (fun other member => Int.le_of_eq (boots.prompt other member).1)
  by_cases saves : event = saveDataEvent
  · have placed : bus.listenersOf saveDataEvent =
        world.bus.listenersOf saveDataEvent ++
          [⟨world.bus.nextListener, event, target, 0, none⟩] := by
      rw [listeners, if_pos saves.symm, last]
    have savers : World.savers { world with bus := bus } = world.savers ++ [target] := by
      simp [World.savers, placed]
    refine ⟨{ boots with
      unobserved := unobserved
      prompt := ?_
      keepers := ?_
      begins := ?_ }, by rw [savers, if_pos saves]⟩
    · intro listener member
      rw [placed] at member
      rcases List.mem_append.1 member with before | added
      · exact boots.prompt listener before
      · rw [List.mem_singleton.1 added]
        exact ⟨rfl, rfl⟩
    · intro other member
      rw [savers] at member
      rcases List.mem_append.1 member with before | added
      · exact boots.keepers other before
      · rw [List.mem_singleton.1 added]
        exact allowed saves
    · rw [savers]
      exact boots.begins.trans (List.prefix_append _ _)
  · have kept : bus.listenersOf saveDataEvent = world.bus.listenersOf saveDataEvent := by
      rw [listeners, if_neg (Ne.symm saves)]
    have savers : World.savers { world with bus := bus } = world.savers := by
      simp [World.savers, kept]
    refine ⟨{ boots with
      unobserved := unobserved
      prompt := by rw [kept]; exact boots.prompt
      keepers := by rw [savers]; exact boots.keepers
      begins := by rw [savers]; exact boots.begins }, ?_⟩
    rw [savers, if_neg saves, List.append_nil]

/-- The listeners of a core service are subscribed. -/
theorem subscribeEach (boots : world.Boots settings storage firsts hasPermissions)
    (callbacks : Callbacks F H) {role : Role F}
    (core : ∀ callback, role ≠ .custom callback) :
    ∃ after,
      World.subscribeEach callbacks (subscriptionsOf callbacks role) world = (.ok (), after) ∧
      after.Boots settings storage (world.savers ++ Extension.saves role) hasPermissions := by
  cases role with
  | custom callback =>
      exact absurd rfl (core callback)
  | permissions =>
      rcases
          boots.subscribeNew callbacks.observe saveDataEvent .savePermissions
            fun _ => ⟨.permissions, rfl⟩ with
        ⟨first, middle, saving, middleBoots, middleSavers⟩
      rcases
          middleBoots.subscribeNew callbacks.observe (platformEvent "member_update")
            .followMember fun isSave => absurd isSave (by decide) with
        ⟨second, after, following, afterBoots, afterSavers⟩
      refine ⟨after, ?_, { afterBoots with begins := ?_ }⟩
      · simp only [subscriptionsOf, World.subscribeEach, saving, following]
      · rw [afterSavers, middleSavers, if_pos rfl]
        exact List.prefix_append _ _
  | rules =>
      rcases
          boots.subscribeNew callbacks.observe saveDataEvent .saveRules fun _ => ⟨.rules, rfl⟩ with
        ⟨listener, after, saving, afterBoots, afterSavers⟩
      refine ⟨after, ?_, { afterBoots with begins := ?_ }⟩
      · simp only [subscriptionsOf, World.subscribeEach, saving]
      · rw [afterSavers, if_pos rfl]
        exact List.prefix_refl _
  | commands =>
      rcases
          boots.subscribeNew callbacks.observe (platformEvent "message") .runCommand
            fun isSave => absurd isSave (by decide) with
        ⟨listener, after, running, afterBoots, afterSavers⟩
      refine ⟨after, ?_, { afterBoots with begins := ?_ }⟩
      · simp only [subscriptionsOf, World.subscribeEach, running]
      · rw [afterSavers, Extension.saves, List.append_nil]
        exact List.prefix_append _ _

end Boots

end World

end Steward
