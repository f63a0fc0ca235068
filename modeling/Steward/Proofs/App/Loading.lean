import Steward.Proofs.App.Booting

/-!
# Loading the core services

Every part of loading keeps what `World.Boots` says, whatever is in the files.  An
extension of which loading says that it failed has subscribed its listeners first,
and the permission service is loaded before all others, so it is the first that is
asked to save.
-/

namespace Steward.World

variable {F H : Type} {settings : Settings} {storage : Storage}
  {firsts : List (Target F)} {hasPermissions : Bool} {world : World F H}

@[simp]
theorem enterAll_app (entries : List Entry) (world : World F H) :
    (world.enterAll entries).app = world.app := by
  induction entries generalizing world with
  | nil =>
      rfl
  | cons entry rest ih =>
      exact ih (enter entry world)

@[simp]
theorem enterAll_bus (entries : List Entry) (world : World F H) :
    (world.enterAll entries).bus = world.bus := by
  induction entries generalizing world with
  | nil =>
      rfl
  | cons entry rest ih =>
      exact ih (enter entry world)

/-- Requiring a service keeps the start-up in order. -/
def KeepOrder (settings : Settings) (storage : Storage) (dependencies : Dependencies F H) :
    Prop :=
  ∀ {firsts : List (Target F)} {hasPermissions : Bool} {world : World F H} (name : String),
    world.Boots settings storage firsts hasPermissions →
      (dependencies.require .service name world).2.Boots settings storage firsts hasPermissions

namespace Boots

/-! ## Loading the rules -/

/-- The triggers of a book change place. -/
theorem setAttached (boots : world.Boots settings storage firsts hasPermissions)
    (index : Nat) (event : String) (triggers : List Nat) :
    Boots settings storage firsts hasPermissions { world with
      rules := world.rules.updateBook index fun book =>
        { book with attached := book.attached.insert event triggers } } := by
  exact boots.withRules (RuleStore.Continues.updateBook _ _ fun _ => rfl)

theorem attach (boots : world.Boots settings storage firsts hasPermissions)
    (observe : Observe F H) (index trigger : Nat) {event : String}
    (isOther : event ≠ saveDataEvent) :
    ∃ after, World.attach observe index trigger event world = (.ok (), after) ∧
      after.Boots settings storage firsts hasPermissions := by
  unfold World.attach
  dsimp only
  split
  · split
    · exact ⟨_, rfl, boots⟩
    · exact ⟨_, rfl, boots.setAttached _ _ _⟩
  · rcases
        (boots.setAttached index event []).subscribeNew observe event
          (.fireRules index event) fun isSave => absurd isSave isOther with
      ⟨listener, after, subscribed, afterBoots, -⟩
    rw [subscribed]
    exact ⟨_, rfl, afterBoots.setAttached _ _ _⟩

theorem attachAll (boots : world.Boots settings storage firsts hasPermissions)
    (observe : Observe F H) (index : Nat) (components : List Nat) :
    ∃ after, World.attachAll observe index components world = (.ok (), after) ∧
      after.Boots settings storage firsts hasPermissions := by
  induction components generalizing world with
  | nil =>
      exact ⟨world, rfl, boots⟩
  | cons id rest ih =>
      rw [World.attachAll]
      split
      · rename_i found
        rcases boots.attach observe index id (boots.quiet id _ found) with
          ⟨middle, attached, middleBoots⟩
        rw [attached]
        exact ih middleBoots
      · exact ih boots

theorem connect (boots : world.Boots settings storage firsts hasPermissions)
    (observe : Observe F H) (index : Nat) :
    ∃ after, World.connect observe index world = (.ok (), after) ∧
      after.Boots settings storage firsts hasPermissions := by
  have connected : Boots settings storage firsts hasPermissions { world with
      rules := world.rules.updateBook index fun book => { book with connected := true } } :=
    boots.withRules (RuleStore.Continues.updateBook _ _ fun _ => rfl)
  exact connected.attachAll observe index _

theorem registerBase (boots : world.Boots settings storage firsts hasPermissions)
    (observe : Observe F H) (index : Nat) (component : ComponentRef) :
    (World.registerBase observe index component world).2.Boots settings storage firsts
      hasPermissions := by
  unfold World.registerBase
  split
  · exact boots
  · rename_i id
    split
    · exact boots
    · rename_i found _
      split
      · exact boots
      · dsimp only
        have registered : Boots settings storage firsts hasPermissions { world with
            rules := world.rules.updateBook index fun book =>
              { book with base := book.base.insert found.key id } } :=
          boots.withRules (RuleStore.Continues.updateBook _ _ fun _ => rfl)
        split
        · rcases registered.attachAll observe index [id] with ⟨after, attached, afterBoots⟩
          rw [attached]
          exact afterBoots
        · exact registered

theorem registerAll (boots : world.Boots settings storage firsts hasPermissions)
    (observe : Observe F H) (index : Nat) (components : List Nat) :
    (World.registerAll observe index components world).2.Boots settings storage firsts
      hasPermissions := by
  induction components generalizing world with
  | nil =>
      exact boots
  | cons id rest ih =>
      have one := boots.registerBase observe index (some id)
      rw [World.registerAll]
      split
      · rename_i registered
        rw [registered] at one
        exact ih one
      · exact one

theorem loadEntries (boots : world.Boots settings storage firsts hasPermissions)
    (told : Told F H) (index : Nat) (entries : List Value) (count : Nat) :
    (World.loadEntries told index entries count world).2.Boots settings storage firsts
      hasPermissions := by
  induction entries generalizing world count with
  | nil =>
      exact boots
  | cons data rest ih =>
      have adopted : Boots settings storage firsts hasPermissions
          (world.onRules (·.adopt index data)).2 :=
        boots.withRules (RuleStore.Continues.adopt world.rules index data)
      rw [World.loadEntries]
      split
      · rename_i failed
        rw [failed] at adopted
        exact ih (adopted.log _) _
      · rename_i rule after loaded
        rw [loaded] at adopted
        have silent := RuleStore.create_silent rule adopted.quiet
        have created : Boots settings storage firsts hasPermissions
            (World.change told (·.create rule) after).2 := by
          unfold World.change
          dsimp only
          rw [silent]
          exact adopted.withRules (RuleStore.Continues.create after.rules rule)
        split
        · rename_i failed
          rw [failed] at created
          exact created
        · rename_i succeeded
          rw [succeeded] at created
          exact ih created _

theorem loadRules (boots : world.Boots settings storage firsts hasPermissions)
    (told : Told F H) (index : Nat) :
    (World.loadRules told index world).2.Boots settings storage firsts hasPermissions := by
  unfold World.loadRules
  split
  · exact boots
  · rename_i entries _
    have loading := boots.loadEntries told index entries 0
    split
    · rename_i failed
      rw [failed] at loading
      exact loading
    · rename_i loaded
      rw [loaded] at loading
      exact loading.log _

/-- A book is opened for the rules, with the file of the rule service as its place. -/
theorem openBook (boots : world.Boots settings storage firsts hasPermissions) :
    Boots settings storage firsts hasPermissions
      { world with
        rules := (world.rules.openBook (some (.file (Keeper.rules.path settings)))).2
        app := { world.app with
          ruleBook := some
            (world.rules.openBook (some (.file (Keeper.rules.path settings)))).1 } } :=
  { boots with
    quiet := by
      intro id component found
      simp only [RuleStore.openBook, RuleStore.component?, List.getElem?_append] at found
      split at found
      · exact boots.quiet id component found
      · have inner := List.mem_of_getElem? found
        simp only [List.mem_cons, List.not_mem_nil, or_false] at inner
        rcases inner with rfl | rfl | rfl <;> trivial
    housed := by
      intro book isBook
      cases isBook
      simp [RuleStore.openBook, RuleStore.book, RuleStore.emptyBook] }

theorem loadRuleBook (boots : world.Boots settings storage firsts hasPermissions)
    (callbacks : Callbacks F H) :
    (World.loadRuleBook callbacks world).2.Boots settings storage firsts hasPermissions := by
  have place : world.rulePlace = .file (Keeper.rules.path settings) := by
    rw [← boots.configured]
    rfl
  have opened := boots.openBook
  unfold World.loadRuleBook
  rw [place]
  dsimp only [onRules, onApp] at opened ⊢
  -- What follows works on a book in a world, whichever they are.
  generalize (world.rules.openBook (some (.file (Keeper.rules.path settings)))).1 = book
    at opened ⊢
  generalize World.mk world.journal world.host world.bus _ _ _ _ = started at opened ⊢
  have registering : (World.registerStandard callbacks.observe book started).2.Boots settings
      storage firsts hasPermissions := opened.registerAll callbacks.observe book _
  split
  · rename_i failed
    rw [failed] at registering
    exact registering
  · rename_i registered
    rw [registered] at registering
    rcases registering.connect callbacks.observe book with ⟨after, connected, connectedBoots⟩
    rw [connected]
    exact connectedBoots.loadRules callbacks.told book

/-! ## Loading an extension -/

theorem registerCommand (boots : world.Boots settings storage firsts hasPermissions)
    (command : Node F) :
    (World.registerCommand command world).Boots settings storage firsts hasPermissions := by
  unfold World.registerCommand
  split
  · exact boots.withDesk _
  · exact (boots.withDesk _).logAll _

theorem registerCommands (boots : world.Boots settings storage firsts hasPermissions)
    (commands : List (Node F)) :
    (commands.foldl (fun world command => World.registerCommand command world) world).Boots
      settings storage firsts hasPermissions := by
  induction commands generalizing world with
  | nil =>
      exact boots
  | cons command rest ih =>
      exact ih (boots.registerCommand command)

theorem registerWaiting (boots : world.Boots settings storage firsts hasPermissions) :
    (World.registerWaiting world).Boots settings storage firsts hasPermissions := by
  exact (boots.withDesk _).registerCommands _

theorem loadPermissions (boots : world.Boots settings storage firsts hasPermissions) :
    (World.loadPermissions world).2.Boots settings storage firsts true := by
  have begun : Boots settings storage firsts true ({ world with
      permissions := .empty }.onApp fun app => { app with hasPermissions := true }) :=
    { boots with permitted := fun _ => rfl }
  unfold World.loadPermissions
  dsimp only
  split
  · exact begun
  · exact begun.withPermissions _

theorem loadCommands (boots : world.Boots settings storage firsts hasPermissions)
    {dependencies : Dependencies F H}
    (requires : KeepOrder settings storage dependencies) :
    (World.loadCommands dependencies world).2.Boots settings storage firsts
      hasPermissions := by
  have requiring := requires "PermissionService" (boots.withDesk { world.app.desk with
    registry := some (.new world.app.settings.lead world.app.settings.logsCommands) })
  unfold World.loadCommands
  dsimp only [onApp] at requiring ⊢
  split
  · rename_i failed
    rw [failed] at requiring
    exact requiring
  · rename_i found
    rw [found] at requiring
    exact (requiring.withDesk _).registerWaiting

theorem conclude {outcome : Except Failure Unit × World F H} (extension : Extension F)
    (stage : Stage) (boots : outcome.2.Boots settings storage firsts hasPermissions) :
    (World.conclude extension stage outcome).2.Boots settings storage firsts
      hasPermissions := by
  rcases outcome with ⟨failure | value, after⟩
  · exact boots.log _
  · exact boots

theorem runHook (boots : world.Boots settings storage firsts hasPermissions)
    (callbacks : Callbacks F H) {dependencies : Dependencies F H}
    (requires : KeepOrder settings storage dependencies)
    (number : Nat) {role : Role F} (core : ∀ callback, role ≠ .custom callback) :
    (World.runHook callbacks dependencies .load number role world).2.Boots settings storage
      firsts (hasPermissions || Extension.grants role) := by
  have begun := boots.note (.runs number .load)
  refine note ?_ _
  cases role with
  | custom callback =>
      exact absurd rfl (core callback)
  | permissions =>
      rw [Extension.grants, Bool.or_true]
      exact begun.loadPermissions
  | rules =>
      rw [Extension.grants, Bool.or_false]
      exact begun.loadRuleBook callbacks
  | commands =>
      rw [Extension.grants, Bool.or_false]
      exact begun.loadCommands requires

/-- Loading an extension subscribes its listeners, whether it succeeds or not. -/
theorem runLoading (boots : world.Boots settings storage firsts hasPermissions)
    (callbacks : Callbacks F H) {dependencies : Dependencies F H}
    (requires : KeepOrder settings storage dependencies)
    (number : Nat) {extension : Extension F} (core : extension.IsCore) :
    (World.runLoading callbacks dependencies number extension world).2.Boots settings storage
      (world.savers ++ Extension.saves extension.role)
      (hasPermissions || Extension.grants extension.role) := by
  have attached : ((world.note (.begins number)).updateExtension number
      fun e => { e with attached := true }).Boots settings storage firsts hasPermissions :=
    (boots.note _).updateExtension number fun _ core => core
  rcases attached.subscribeEach callbacks core.not_custom with ⟨after, subscribed, subscribedBoots⟩
  have hooked := subscribedBoots.runHook callbacks requires number core.not_custom
  unfold World.runLoading
  dsimp only
  rw [subscribed]
  dsimp only
  split
  · rename_i failed
    rw [failed] at hooked
    exact hooked
  · rename_i succeeded
    rw [succeeded] at hooked
    exact hooked.updateExtension number fun _ core => core

theorem requireWith (boots : world.Boots settings storage firsts hasPermissions)
    {load : Nat → World F H → World F H}
    (loads : ∀ {world : World F H} number, world.Boots settings storage firsts hasPermissions →
      (load number world).Boots settings storage firsts hasPermissions)
    (kind : DependencyKind) (name : String) :
    (World.requireWith load kind name world).2.Boots settings storage firsts
      hasPermissions := by
  unfold World.requireWith
  split
  · exact boots
  · dsimp only
    split
    · exact (loads _ boots).note _
    · exact loads _ boots
  · exact boots

/-- Loading an extension that is not loaded subscribes its listeners, as long as
loading what it requires keeps the start-up in order. -/
theorem loadUnloaded (boots : world.Boots settings storage firsts hasPermissions)
    (callbacks : Callbacks F H) {depth : Nat}
    (inner : ∀ {firsts hasPermissions} {world : World F H} {extension : Extension F} (number),
      world.Boots settings storage firsts hasPermissions → extension.IsCore →
      (World.loadWithin callbacks depth number extension world).2.Boots settings storage firsts
        hasPermissions)
    (number : Nat) {extension : Extension F} (core : extension.IsCore)
    (unloaded : extension.loaded = false) :
    (World.loadWithin callbacks (depth + 1) number extension world).2.Boots settings storage
      (world.savers ++ Extension.saves extension.role)
      (hasPermissions || Extension.grants extension.role) := by
  rw [World.loadWithin, unloaded]
  refine conclude _ _ (note ?_ _)
  apply boots.runLoading callbacks _ number core
  intro firsts hasPermissions world name boots
  apply boots.requireWith
  intro world required boots
  split
  · rename_i extension found
    exact inner required boots (boots.core extension (List.mem_of_getElem? found))
  · exact boots

/-- Loading an extension and all that it requires keeps the start-up in order. -/
theorem loadWithin (callbacks : Callbacks F H) (depth : Nat)
    {firsts : List (Target F)} {hasPermissions : Bool} {world : World F H}
    {extension : Extension F} (number : Nat)
    (boots : world.Boots settings storage firsts hasPermissions) (core : extension.IsCore) :
    (World.loadWithin callbacks depth number extension world).2.Boots settings storage firsts
      hasPermissions := by
  induction depth generalizing firsts hasPermissions world number extension with
  | zero =>
      rw [World.loadWithin]
      split
      · exact boots
      · exact conclude _ _ boots
  | succ depth ih =>
      cases loaded : extension.loaded with
      | true =>
          rw [World.loadWithin, loaded]
          exact boots
      | false =>
          have subscribed := boots.loadUnloaded callbacks ih number core loaded
          apply subscribed.weaken (boots.begins.trans (List.prefix_append _ _))
          intro permitted
          rw [permitted, Bool.true_or]

/-- An extension that fails to load has subscribed its listeners. -/
theorem loadExtension (boots : world.Boots settings storage firsts hasPermissions)
    (callbacks : Callbacks F H) (number : Nat) {extension : Extension F}
    (core : extension.IsCore) (unloaded : extension.loaded = false) :
    (World.loadExtension callbacks number extension world).2.Boots settings storage
      (world.savers ++ Extension.saves extension.role)
      (hasPermissions || Extension.grants extension.role) := by
  exact boots.loadUnloaded callbacks (loadWithin callbacks _) number core unloaded

/-! ## The stages -/

/-- A failure of the load stage comes from an extension that was not loaded before. -/
theorem unloaded_of_failed {callbacks : Callbacks F H} {number : Nat}
    {extension : Extension F} {failure : Failure}
    (failed : (World.loadExtension callbacks number extension world).1.failure =
      some failure) : extension.loaded = false := by
  cases loaded : extension.loaded with
  | false =>
      rfl
  | true =>
      rw [World.loadExtension, World.loadWithin, loaded] at failed
      cases failed

theorem loadExtension_name (callbacks : Callbacks F H) (number : Nat)
    (extension : Extension F) (world : World F H) :
    (World.loadExtension callbacks number extension world).1.extension = extension.name := by
  have concluded : ∀ (stage : Stage) (outcome : Except Failure Unit × World F H),
      (World.conclude extension stage outcome).1.extension = extension.name := by
    rintro stage ⟨failure | value, after⟩ <;> rfl
  rw [World.loadExtension, World.loadWithin]
  split
  · rfl
  · exact concluded _ _

/-- The load stage keeps the start-up in order, and a service that fails in it is
asked to save from then on. -/
theorem runLoad (boots : world.Boots settings storage firsts hasPermissions)
    (callbacks : Callbacks F H) (policy : StagePolicy) (numbers : List Nat) :
    (runEach callbacks .load policy numbers world).2.Boots settings storage firsts
      hasPermissions ∧
    ∀ result ∈ (runEach callbacks .load policy numbers world).1, ∀ failure,
      result.failure = some failure → ∀ keeper : Keeper, result.extension = keeper.service →
        keeper.target ∈ (runEach callbacks .load policy numbers world).2.savers := by
  induction numbers generalizing world firsts with
  | nil =>
      refine ⟨boots, ?_⟩
      intro result member
      cases member
  | cons number rest ih =>
      rw [runEach]
      split
      · exact ih boots
      · rename_i extension found
        have core := boots.core extension (List.mem_of_getElem? found)
        have loaded : (World.loadExtension callbacks number extension world).2.Boots settings
            storage firsts hasPermissions := loadWithin callbacks _ number boots core
        have name := loadExtension_name callbacks number extension world
        have subscribed : ∀ failure,
            (World.loadExtension callbacks number extension world).1.failure = some failure →
            ∀ keeper : Keeper, extension.name = keeper.service →
            keeper.target ∈
              (World.loadExtension callbacks number extension world).2.savers := by
          intro failure failed keeper named
          have subscribes := boots.loadExtension callbacks number core
            (unloaded_of_failed failed)
          apply subscribes.begins.subset
          exact List.mem_append_right _ (core.saves_of_name named)
        rcases ran : World.loadExtension callbacks number extension world with ⟨result, after⟩
        rw [ran] at loaded name subscribed
        simp only [runOn, ran]
        dsimp only at loaded name subscribed
        split
        · refine ⟨loaded.log _, ?_⟩
          intro other member failure failed keeper named
          rw [List.mem_singleton.1 member] at failed named
          exact subscribed failure failed keeper (name.symm.trans named)
        · rcases ih loaded with ⟨restBoots, restSubscribed⟩
          refine ⟨restBoots, ?_⟩
          intro other member failure failed keeper named
          rcases List.mem_cons.1 member with same | later
          · rw [same] at failed named
            have here := subscribed failure failed keeper (name.symm.trans named)
            have from_here : after.Boots settings storage after.savers hasPermissions :=
              { loaded with begins := List.prefix_refl _ }
            exact (ih from_here).1.begins.subset here
          · exact restSubscribed other later failure failed keeper named

/-- After loading, the core services have nothing to do when all are loaded, which is noted. -/
theorem runPostLoad (boots : world.Boots settings storage firsts hasPermissions)
    (callbacks : Callbacks F H) (policy : StagePolicy) (numbers : List Nat) :
    (∃ noted, (runEach callbacks .postLoad policy numbers world).2 =
      world.onApp fun app => { app with notes := noted }) ∧
      ∀ result ∈ (runEach callbacks .postLoad policy numbers world).1,
        result.stage = .postLoad := by
  induction numbers generalizing world with
  | nil =>
      refine ⟨⟨_, rfl⟩, ?_⟩
      intro result member
      cases member
  | cons number rest ih =>
      rw [runEach]
      split
      · exact ih boots
      · rename_i extension found
        have core := boots.core extension (List.mem_of_getElem? found)
        have idle : runOn callbacks .postLoad number extension world =
            (⟨extension.name, .postLoad, none⟩,
              (world.note (.runs number .postLoad)).note (.ran number .postLoad none)) := by
          unfold runOn World.runHook ownPart
          cases role : extension.role with
          | custom callback =>
              exact absurd role (core.not_custom callback)
          | permissions | rules | commands =>
              rfl
        rw [idle]
        rcases ih ((boots.note (.runs number .postLoad)).note (.ran number .postLoad none)) with
          ⟨⟨noted, same⟩, stages⟩
        refine ⟨⟨noted, same⟩, ?_⟩
        intro result member
        rcases List.mem_cons.1 member with rfl | later
        · rfl
        · exact stages result later

/-! ## The whole start-up -/

theorem makeBot (boots : world.Boots settings storage firsts hasPermissions) :
    world.makeBot.Boots settings storage firsts hasPermissions := by
  have connected : (world.addSingleton clientName (.other "BotClient")).Boots settings storage
      firsts hasPermissions := { boots with }
  have resolved : (resolve .service "CommandService"
      (world.addSingleton clientName (.other "BotClient"))).2.Boots settings storage firsts
        hasPermissions := by
    unfold resolve
    split
    · exact connected
    · exact connected.log _
  unfold World.makeBot
  dsimp only
  split
  · split
    · exact resolved.withDesk _
    · exact resolved
  · exact resolved

theorem addExtension (boots : world.Boots settings storage firsts hasPermissions)
    (extension : Extension F) (core : extension.IsCore) :
    (world.addExtension extension).Boots settings storage firsts hasPermissions := by
  have cores : ∀ other ∈ world.app.extensions ++ [extension], other.IsCore := by
    intro other member
    rcases List.mem_append.1 member with before | added
    · exact boots.core other before
    · rw [List.mem_singleton.1 added]
      exact core
  unfold World.addExtension onApp
  dsimp only
  split
  · exact { boots with core := cores }
  · exact { boots with core := cores }

end Boots

theorem registerCommands_table (commands : List (Node F)) (world : World F H) :
    let after := commands.foldl (fun world command => registerCommand command world) world
    after.bus = world.bus ∧ ∃ desk, after.app = { world.app with desk := desk } := by
  induction commands generalizing world with
  | nil =>
      exact ⟨rfl, world.app.desk, rfl⟩
  | cons command rest ih =>
      obtain ⟨firstBus, desk, firstApp⟩ : (registerCommand command world).bus = world.bus ∧
          ∃ desk, (registerCommand command world).app = { world.app with desk := desk } := by
        unfold registerCommand
        split
        · exact ⟨rfl, _, rfl⟩
        · exact ⟨enterAll_bus _ _, _, enterAll_app _ _⟩
      rcases ih (registerCommand command world) with ⟨bus, last, app⟩
      refine ⟨bus.trans firstBus, last, ?_⟩
      rw [List.foldl_cons, app, firstApp]

theorem makeBot_table (world : World F H) :
    world.makeBot.bus = world.bus ∧ world.makeBot.extensions = world.extensions ∧
      world.makeBot.app.extensions = world.app.extensions := by
  obtain ⟨bus, app⟩ : (resolve .service "CommandService"
      (world.addSingleton clientName (.other "BotClient"))).2.bus = world.bus ∧
      (resolve .service "CommandService"
        (world.addSingleton clientName (.other "BotClient"))).2.app =
          (world.addSingleton clientName (.other "BotClient")).app := by
    unfold resolve
    split
    · exact ⟨rfl, rfl⟩
    · exact ⟨rfl, rfl⟩
  unfold makeBot extensions
  dsimp only
  split
  · split
    · simp only [onApp, app]
      exact ⟨bus, rfl, rfl⟩
    · rw [app]
      exact ⟨bus, rfl, rfl⟩
  · rw [app]
    exact ⟨bus, rfl, rfl⟩

section CoreServices

variable (host : H) (settings : Settings) (policies : List (Stage × StagePolicy))
  (storage : Storage) (commands : List (Node F))

theorem withCoreServices_boots :
    (withCoreServices host settings policies storage commands).Boots settings storage []
      false := by
  have begun : Boots settings storage [] false
      { World.new (F := F) host settings policies with storage := storage } := {
    configured := rfl
    unwritten := rfl
    unobserved := rfl
    prompt := by
      intro listener member
      cases member
    keepers := by
      intro target member
      cases member
    begins := List.nil_prefix
    permitted := by
      intro absurdity
      cases absurdity
    quiet := by
      intro id component found
      have standard := List.mem_of_getElem? found
      simp only [World.new, RuleStore.standard, Standard.components, Standard.platformTrigger,
        List.mem_cons, List.not_mem_nil, or_false] at standard
      rcases standard with rfl | rfl | rfl | rfl | rfl | rfl | rfl | rfl | rfl | rfl
      · exact (by decide : platformEvent "member_join" ≠ saveDataEvent)
      · exact (by decide : platformEvent "message" ≠ saveDataEvent)
      · exact (by decide : platformEvent "reaction_add" ≠ saveDataEvent)
      all_goals trivial
    housed := by
      intro book isBook
      cases isBook
    core := by
      intro extension member
      cases member }
  have permissions := begun.addExtension Extension.permissionService rfl
  have rules := permissions.addExtension Extension.ruleService rfl
  have all := rules.addExtension Extension.commandService rfl
  exact (all.registerCommands commands).makeBot

theorem withCoreServices_table :
    let world : World F H := withCoreServices host settings policies storage commands
    world.savers = [] ∧ world.extensions = [0, 1, 2] ∧
      world.app.extensions = Extension.coreServices := by
  let added : World F H := Extension.coreServices.foldl (fun world extension =>
    world.addExtension extension) { World.new host settings policies with storage := storage }
  rcases registerCommands_table commands added with ⟨bus, desk, app⟩
  rcases
      makeBot_table (commands.foldl (fun world command => registerCommand command world) added) with
    ⟨botBus, numbers, table⟩
  refine ⟨?_, numbers.trans ?_, table.trans ?_⟩
  · have asAdded : (withCoreServices host settings policies storage commands : World F H).bus =
        added.bus := botBus.trans bus
    rw [savers, asAdded]
    rfl
  · rw [extensions, app]
    rfl
  · rw [app]
    rfl

/-- When the core services have been loaded, as far as loading went, saving begins
with the permissions; a service that failed to load is asked to save nevertheless. -/
theorem loadAll_boots (callbacks : Callbacks F H) :
    let loading := loadAll callbacks (withCoreServices host settings policies storage commands)
    loading.2.Boots settings storage [.savePermissions] true ∧
      ∀ (keeper : Keeper) (failure : Failure),
        ⟨keeper.service, .load, some failure⟩ ∈ loading.1 →
          keeper.target ∈ loading.2.savers := by
  have boots : (withCoreServices host settings policies storage commands :
      World F H).Boots settings storage [] false :=
    withCoreServices_boots host settings policies storage commands
  rcases withCoreServices_table (F := F) host settings policies storage commands with
    ⟨savers, order, table⟩
  generalize withCoreServices host settings policies storage commands = world
    at boots savers order table ⊢
  have first : world.extension? 0 = some Extension.permissionService := by
    rw [extension?, table]
    rfl
  have core : (Extension.permissionService : Extension F).IsCore := rfl
  have loaded := boots.loadExtension callbacks 0 core rfl
  rw [savers] at loaded
  have stage : (runStage callbacks .load world).2.Boots settings storage
      [.savePermissions] true := by
    rw [runStage, order, runEach, first]
    dsimp only [runOn]
    split
    · exact loaded.log _
    · exact (loaded.runLoad callbacks _ [1, 2]).1
  have failures : ∀ result ∈ (runStage callbacks .load world).1, ∀ failure,
      result.failure = some failure → ∀ keeper : Keeper, result.extension = keeper.service →
        keeper.target ∈ (runStage callbacks .load world).2.savers :=
    (boots.runLoad callbacks (world.policy .load) world.extensions).2
  unfold loadAll
  dsimp only
  split
  · refine ⟨stage, ?_⟩
    intro keeper failure failed
    exact failures _ failed failure rfl keeper rfl
  · obtain ⟨⟨noted, same⟩, stages⟩ :
        (∃ noted, (runStage callbacks .postLoad (runStage callbacks .load world).2).2 =
          (runStage callbacks .load world).2.onApp fun app => { app with notes := noted }) ∧
        ∀ result ∈ (runStage callbacks .postLoad (runStage callbacks .load world).2).1,
          result.stage = .postLoad := stage.runPostLoad callbacks _ _
    rw [same]
    refine ⟨{ stage with }, ?_⟩
    intro keeper failure failed
    rcases List.mem_append.1 failed with failedLoading | failedLater
    · exact failures _ failedLoading failure rfl keeper rfl
    · cases stages _ failedLater

end CoreServices

end Steward.World
