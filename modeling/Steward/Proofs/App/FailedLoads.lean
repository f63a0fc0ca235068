import Steward.Proofs.App.Saving

/-!
# What becomes of a file that could not be loaded

A service that failed to load is asked to save like any other, and saves what it
has.  So a file survives a failed load only by luck: it survives all later saves
exactly if no save reaches it, or if it held, to the letter, what the service has
in memory when loading is over.
-/

namespace Steward.Running

variable {F H : Type} {settings : Settings} {storage : Storage} {base world : World F H}
  {inv : World F H → Prop} {jobs : Job F → Prop}

/-- The jobs that save from time to time. -/
def IsAutosave (job : Job F) : Prop := ∃ series, job = .autosave series

section Sustaining

variable (boots : base.Boots settings storage [.savePermissions] true)
  (callbacks : Callbacks F H) {keeper : Keeper} {node : Option FileNode}
  (same : ∀ text, keeper.Saves base text → node = some (.text text))
include boots same

theorem save_stands (stands : base.Stands keeper node world) (reason : Value) :
    (save callbacks reason).run.Respects inv jobs
      (fun _ after => base.Stands keeper node after) world := by
  exact Course.respects_seq (publish_stands boots callbacks same stands rfl)
    (fun _ _ stands => stands) fun _ _ stands => stands

/-- Saving from time to time leaves a file as it stands. -/
theorem autosave_stands (stands : base.Stands keeper node world) (series : Nat) :
    (autosave callbacks series).run.Respects (base.Stands keeper node) IsAutosave
      (fun _ after => base.Stands keeper node after) world := by
  have goesOn : ∀ {after : World F H}, base.Stands keeper node after →
      (do
        let task ← Course.begin (.autosave series)
        Course.modify (World.onApp fun app =>
          if app.autosave.map Prod.fst = some series then
            { app with autosave := some (series, task) }
          else app)
        return .null : WorldCourse F H Value).run.Respects (base.Stands keeper node) IsAutosave
          (fun _ after => base.Stands keeper node after) after := by
    intro after stands
    apply Course.respects_begin_seq ⟨series, rfl⟩
    intro task
    apply Course.respects_modify_seq
    exact stands.onApp fun app => by split <;> exact ⟨rfl, rfl, rfl⟩
  unfold autosave
  apply Course.respects_read_seq
  apply Course.respects_sleep_seq stands
  · intro after stands
    apply Course.respects_ofActivity_seq (save_stands boots callbacks same stands _)
    rintro (interrupt | value) after stands
    · cases interrupt with
      | cancelled | endless =>
          exact stands
      | failed failure =>
          apply Course.respects_modify_seq
          exact goesOn (stands.log _)
    · exact goesOn stands
  · exact fun _ _ stands => stands

/-- The last save before the end leaves a file as it stands. -/
theorem shutDown_stands (stands : base.Stands keeper node world) :
    (shutDown callbacks).run.Respects inv jobs
      (fun _ after => base.Stands keeper node after) world := by
  unfold shutDown
  apply Course.respects_read_seq
  split
  · exact stands
  · apply Course.respects_cancel_seq
    apply Course.respects_modify_seq
    have withoutAutosave : base.Stands keeper node
        (world.onApp fun app => { app with autosave := none }) :=
      stands.onApp fun _ => ⟨rfl, rfl, rfl⟩
    exact save_stands boots callbacks same withoutAutosave _

end Sustaining

/-- Setting up leaves the files as they stand when loading is over. -/
theorem setUp_stands (callbacks : Callbacks F H) {keeper : Keeper} {node : Option FileNode}
    (stands : base.Stands keeper node (World.loadAll callbacks world).2) :
    (setUp callbacks).run.Respects inv IsAutosave
      (fun _ after => base.Stands keeper node after) world := by
  have goesOn : ∀ {after : World F H}, base.Stands keeper node after →
      (do
        let series ← Course.read (·.app.autosaveSeries)
        let task ← Course.begin (.autosave series)
        Course.modify (World.onApp fun app =>
          { app with autosave := some (series, task), autosaveSeries := series + 1 }) :
        WorldCourse F H Unit).run.Respects inv IsAutosave
          (fun _ after => base.Stands keeper node after) after := by
    intro after stands
    apply Course.respects_read_seq
    apply Course.respects_begin_seq ⟨_, rfl⟩
    intro task
    exact stands.onApp fun _ => ⟨rfl, rfl, rfl⟩
  unfold setUp
  apply Course.respects_atomically_seq
  dsimp only
  split
  · exact goesOn stands
  · apply Course.respects_modify_seq
    exact goesOn (stands.log _)

/-- What a task runs that only has to come to its end. -/
def task (course : WorldCourse F H Unit) : Activity (World F H) (Job F) (Exit Value) :=
  Course.attempt do
    course
    return .null

/-- A loop in which a bot has just been set up. -/
def setUpLoop (callbacks : Callbacks F H) (world : World F H) : Loop (World F H) (Job F) :=
  ((Loop.start world).launch (runJob callbacks) (task (setUp callbacks))).2

/-- From a loop on, nothing has happened but that time went by, that everyone was asked
to save, any number of times and with any arguments, and that the bot was shut down. -/
inductive SavesLead (callbacks : Callbacks F H) (start : Loop (World F H) (Job F)) :
    Loop (World F H) (Job F) → Prop where
  | refl : SavesLead callbacks start start
  | step {loop next : Loop (World F H) (Job F)} (earlier : SavesLead callbacks start loop)
      (stepped : loop.step (runJob callbacks) = some next) : SavesLead callbacks start next
  | publish {loop : Loop (World F H) (Job F)} (earlier : SavesLead callbacks start loop)
      (publication : Publication) (isSave : publication.event = saveDataEvent) :
      SavesLead callbacks start (loop.launch (runJob callbacks)
        (task do let _ ← publish callbacks publication)).2
  | shutDown {loop : Loop (World F H) (Job F)} (earlier : SavesLead callbacks start loop) :
      SavesLead callbacks start
        (loop.launch (runJob callbacks) (task (shutDown callbacks))).2

theorem task_sustains {course : WorldCourse F H Unit}
    (respects : course.run.Respects inv jobs (fun _ after => inv after) world) :
    (task course).Sustains inv jobs world := by
  exact Course.respects_seq respects (fun _ _ holds => holds) fun _ _ holds => holds

/-- The job of saving from time to time keeps a file as it stands, if it stands as its
service saves it. -/
theorem runJob_sustains (boots : base.Boots settings storage [.savePermissions] true)
    (callbacks : Callbacks F H) {keeper : Keeper} {node : Option FileNode}
    (same : ∀ text, keeper.Saves base text → node = some (.text text)) :
    ∀ job, IsAutosave job → ∀ world, base.Stands keeper node world →
      (runJob callbacks job).Sustains (base.Stands keeper node) IsAutosave world := by
  rintro job ⟨series, rfl⟩ world stands
  exact autosave_stands boots callbacks same stands series

/-- What saves lead to keeps a file as it stands, if it stands as its service saves
it. -/
theorem SavesLead.stands (boots : base.Boots settings storage [.savePermissions] true)
    {callbacks : Callbacks F H} {keeper : Keeper} {node : Option FileNode}
    (same : ∀ text, keeper.Saves base text → node = some (.text text))
    {start loop : Loop (World F H) (Job F)} (leads : SavesLead callbacks start loop)
    (kept : start.Kept (base.Stands keeper node) IsAutosave fun _ => False)
    (stands : base.Stands keeper node start.state) :
    loop.Kept (base.Stands keeper node) IsAutosave (fun _ => False) ∧
      base.Stands keeper node loop.state := by
  have runs := runJob_sustains boots callbacks same
  induction leads with
  | refl =>
      exact ⟨kept, stands⟩
  | step _ stepped ih =>
      exact ih.1.step runs ih.2 stepped
  | publish _ publication isSave ih =>
      rcases ih with ⟨kept, stands⟩
      have published : (do
          let _ ← Running.publish callbacks publication : WorldCourse F H Unit).run.Respects
            (base.Stands keeper node) IsAutosave
            (fun _ after => base.Stands keeper node after) _ :=
        Course.respects_seq (publish_stands boots callbacks same stands isSave)
          (fun _ _ stands => stands) fun _ _ stands => stands
      have sustains := task_sustains published
      exact ⟨kept.launch runs sustains, Loop.launch_state sustains⟩
  | shutDown _ ih =>
      rcases ih with ⟨kept, stands⟩
      have sustains : (task (Running.shutDown callbacks)).Sustains (base.Stands keeper node)
          IsAutosave _ := task_sustains (shutDown_stands boots callbacks same stands)
      exact ⟨kept.launch runs sustains, Loop.launch_state sustains⟩

theorem setUp_sustains (callbacks : Callbacks F H) {keeper : Keeper} {node : Option FileNode}
    (stands : base.Stands keeper node (World.loadAll callbacks world).2) :
    (task (setUp callbacks)).Sustains (base.Stands keeper node) IsAutosave world := by
  exact task_sustains (setUp_stands callbacks stands)

/-- Once a bot has been set up, a file stands as it does when loading is over. -/
theorem setUpLoop_stands (callbacks : Callbacks F H) {keeper : Keeper} {node : Option FileNode}
    (stands : base.Stands keeper node (World.loadAll callbacks world).2) :
    base.Stands keeper node (setUpLoop callbacks world).state := by
  exact Loop.launch_state (setUp_sustains callbacks stands)

/-- Setting up a bot leaves nothing scheduled that would not keep a file as it stands
after loading, if that is how its service saves it. -/
theorem setUpLoop_kept (boots : base.Boots settings storage [.savePermissions] true)
    (callbacks : Callbacks F H) {keeper : Keeper} {node : Option FileNode}
    (same : ∀ text, keeper.Saves base text → node = some (.text text))
    (stands : base.Stands keeper node (World.loadAll callbacks world).2) :
    (setUpLoop callbacks world).Kept (base.Stands keeper node) IsAutosave fun _ => False := by
  have runs := runJob_sustains boots callbacks same
  exact (Loop.Kept.start world).launch runs (setUp_sustains callbacks stands)

/-- A service that is asked to save writes its file sooner or later, if it can. -/
theorem SavesLead.exists_written (boots : base.Boots settings storage [.savePermissions] true)
    (callbacks : Callbacks F H) {keeper : Keeper} {text : String}
    (saves : keeper.Saves base text) (asked : keeper.target ∈ base.savers)
    {start : Loop (World F H) (Job F)} (settled : base.Settled start.state) :
    ∃ loop, SavesLead callbacks start loop ∧ keeper.file? loop.state = some (.text text) := by
  have saved : (save callbacks .null).run.Respects (base.Stands keeper (some (.text text)))
      IsAutosave (fun _ after => base.Stands keeper (some (.text text)) after) start.state :=
    save_saves boots callbacks saves asked settled .null
  have sustains := task_sustains saved
  exact ⟨_, .publish .refl (.new saveDataEvent [.map [("reason", .null)]]) rfl,
    (Loop.launch_state sustains).2⟩

/-- The file of a service that is asked to save survives all later saves exactly if it
stands as the service saves it. -/
theorem survives_iff {callbacks : Callbacks F H} {start : World F H} {keeper : Keeper}
    (loaded : (World.loadAll callbacks start).2 = base)
    (boots : base.Boots settings storage [.savePermissions] true)
    (asked : keeper.target ∈ base.savers)
    (unwritten : keeper.file? base = keeper.file? start) :
    (∀ loop, SavesLead callbacks (setUpLoop callbacks start) loop →
        keeper.file? loop.state = keeper.file? start) ↔
      ∀ text, keeper.Saves base text → keeper.file? start = some (.text text) := by
  have stands : base.Stands keeper (keeper.file? start) (World.loadAll callbacks start).2 := by
    rw [loaded]
    exact ⟨.refl _, unwritten⟩
  constructor
  · intro survives text saves
    have afterSetUp := setUpLoop_stands callbacks stands
    rcases SavesLead.exists_written boots callbacks saves asked afterSetUp.1 with
      ⟨loop, leads, written⟩
    rw [← survives loop leads, written]
  · intro same loop leads
    have kept := setUpLoop_kept boots callbacks same stands
    exact (leads.stands boots same kept (setUpLoop_stands callbacks stands)).2.2

/-- A file whose service failed to load survives all later saves exactly if no save
reaches it, or if it holds to the letter what the service has in memory when loading
is over. -/
theorem failed_load_keeps_file_iff (callbacks : Callbacks F H) (host : H)
    (settings : Settings) (policies : List (Stage × StagePolicy)) (storage : Storage)
    (commands : List (Node F)) (keeper : Keeper) (failure : Failure) :
    let start := World.withCoreServices host settings policies storage commands
    let loading := World.loadAll callbacks start
    ⟨keeper.service, .load, some failure⟩ ∈ loading.1 →
      ((∀ loop, SavesLead callbacks (setUpLoop callbacks start) loop →
          keeper.file? loop.state = keeper.file? start) ↔
        ∀ text, keeper.Saves loading.2 text → keeper.file? start = some (.text text)) := by
  intro start loading failed
  rcases World.loadAll_boots host settings policies storage commands callbacks with
    ⟨boots, subscribed⟩
  have startBoots := World.withCoreServices_boots host settings policies storage commands
  apply survives_iff rfl boots (subscribed keeper failure failed)
  rw [Keeper.file?, Keeper.file?, boots.unwritten, boots.configured, startBoots.unwritten,
    startBoots.configured]

/-! ## An unreadable file -/

theorem loadPermissions_unreadable {failure : Failure}
    (unreadable : world.stored (some world.permissionPlace) = .error failure) :
    ∃ after, World.loadPermissions world = (.error failure, after) ∧
      after.permissions = .empty := by
  unfold World.loadPermissions
  dsimp only
  split
  · rename_i isOther
    cases isOther.symm.trans unreadable
    exact ⟨_, rfl, rfl⟩
  · rename_i isDocument
    cases isDocument.symm.trans unreadable

/-- The permission service fails to load a file that can not be read, and is left
without any permissions. -/
theorem loadExtension_unreadable {firsts : List (Target F)} {hasPermissions : Bool}
    (boots : world.Boots settings storage firsts hasPermissions) (callbacks : Callbacks F H)
    (number : Nat) {failure : Failure}
    (unreadable : world.stored (some world.permissionPlace) = .error failure) :
    let loaded := World.loadExtension callbacks number Extension.permissionService world
    loaded.1 = ⟨"PermissionService", .load, some failure⟩ ∧ loaded.2.permissions = .empty := by
  have attached : ((world.note (.begins number)).updateExtension number
      fun e => { e with attached := true }).Boots settings storage firsts hasPermissions :=
    (boots.note _).updateExtension number fun _ core => core
  have notCustom : ∀ callback, (.permissions : Role F) ≠ .custom callback := by
    rintro callback ⟨⟩
  rcases attached.subscribeEach callbacks notCustom with ⟨after, subscribed, afterBoots⟩
  have stillUnreadable : (after.note (.runs number .load)).stored
      (some (after.note (.runs number .load)).permissionPlace) = .error failure := by
    rw [← unreadable]
    unfold World.stored World.permissionPlace World.note
    dsimp only [World.onApp]
    rw [afterBoots.unwritten, afterBoots.configured, boots.unwritten, boots.configured]
  rcases loadPermissions_unreadable stillUnreadable with ⟨left, fails, empty⟩
  have loads : ∀ dependencies, World.runLoading callbacks dependencies number
      Extension.permissionService world =
        (.error failure, left.note (.ran number .load (some failure))) := by
    intro dependencies
    have subscribedNow : World.subscribeEach callbacks
        (World.subscriptionsOf callbacks (Extension.permissionService : Extension F).role)
        ((world.note (.begins number)).updateExtension number
          fun e => { e with attached := true }) = (.ok (), after) := subscribed
    have failsNow : World.runHook callbacks dependencies .load number
        (Extension.permissionService : Extension F).role after =
          (.error failure, left.note (.ran number .load (some failure))) := by
      have owns : World.ownPart callbacks dependencies .load number
          (Extension.permissionService : Extension F).role (after.note (.runs number .load)) =
            (.error failure, left) := fails
      rw [World.runHook, owns]
      rfl
    simp only [World.runLoading, subscribedNow, failsNow]
  rw [World.loadExtension, World.loadWithin]
  simp only [loads]
  exact ⟨rfl, empty⟩

/-- A bot without any callbacks. -/
def quietCallbacks : Callbacks Empty Unit where
  parser name := nomatch name
  lookup name := nomatch name
  written name := nomatch name
  assertion name := nomatch name
  execute name := nomatch name
  goesOn name := nomatch name
  listen _ name := nomatch name
  observe name := nomatch name
  mapper name := nomatch name
  test name := nomatch name
  act _ name := nomatch name
  told name := nomatch name
  subscriptions name := nomatch name
  hook _ name := nomatch name
  handle name := nomatch name

/-- A disk with nothing but a permission file, which is not a document. -/
def brokenDisk : Disk :=
  ⟨OrderedMap.empty.insert (Keeper.permissions.path .standard) (.text "\x7b")⟩

/-- A bot with a permission file that is not a document, before it is set up. -/
def brokenStart : World Empty Unit :=
  World.withCoreServices () .standard [] ⟨brokenDisk, []⟩ []

theorem permissions_path_ne_nil (settings : Settings) :
    Keeper.permissions.path settings ≠ [] := by
  simp [Keeper.path]

theorem brokenDisk_get? (path : FilePath) (below : path ≠ []) :
    brokenDisk.get? path =
      if Keeper.permissions.path .standard = path then some (.text "\x7b") else none := by
  have emptyDisk : Disk.empty.get? path = none := by
    unfold Disk.get?
    rw [if_neg (by simpa using below)]
    rfl
  rw [← emptyDisk]
  exact Disk.get?_insert .empty (permissions_path_ne_nil _) _ path

theorem brokenDisk_accepts : brokenDisk.Accepts (Keeper.permissions.path .standard) := by
  constructor
  · rw [brokenDisk_get? _ (permissions_path_ne_nil _), if_pos rfl]
    simp
  · intro above isAbove text
    by_cases root : above = []
    · rw [root, Disk.get?_nil]
      simp
    · have shorter : Keeper.permissions.path .standard ≠ above := by
        rintro rfl
        exact Disk.not_prefix_dropLast root rfl isAbove
      rw [brokenDisk_get? _ root, if_neg shorter]
      simp

/-- The permission service of the bot fails to load, and is left without any
permissions. -/
theorem brokenStart_loads :
    ⟨"PermissionService", .load, some (.fault .malformedDocument "not a document")⟩ ∈
        (World.loadAll quietCallbacks brokenStart).1 ∧
      (World.loadAll quietCallbacks brokenStart).2.permissions = .empty := by
  have unreadable : brokenStart.stored (some brokenStart.permissionPlace) =
      .error (.fault .malformedDocument "not a document") := by
    show brokenDisk.readDocument (Keeper.permissions.path .standard) = _
    rw [Disk.readDocument, brokenDisk_get? _ (permissions_path_ne_nil _), if_pos rfl]
    rfl
  have boots : brokenStart.Boots .standard ⟨brokenDisk, []⟩ [] false :=
    World.withCoreServices_boots _ _ _ _ _
  rcases World.withCoreServices_table (F := Empty) () .standard [] ⟨brokenDisk, []⟩ [] with
    ⟨-, order, table⟩
  have numbers : brokenStart.extensions = [0, 1, 2] := order
  have first : brokenStart.extension? 0 = some Extension.permissionService :=
    congrArg (·[0]?) table
  have policy : brokenStart.policy .load = .abort := rfl
  have core : (Extension.permissionService : Extension Empty).IsCore := rfl
  rcases loadExtension_unreadable boots quietCallbacks 0 unreadable with ⟨result, empty⟩
  have leftBoots := boots.loadExtension quietCallbacks 0 core rfl
  rcases loaded : World.loadExtension quietCallbacks 0 Extension.permissionService brokenStart
    with ⟨failed, left⟩
  rw [loaded] at result empty leftBoots
  dsimp only at result empty
  subst result
  obtain ⟨entry, stage⟩ : ∃ entry, World.runStage quietCallbacks .load brokenStart =
      ([⟨"PermissionService", .load, some (.fault .malformedDocument "not a document")⟩],
        enter entry left) := by
    rw [World.runStage, numbers, World.runEach, first, policy]
    simp only [World.runOn, loaded]
    exact ⟨_, rfl⟩
  rw [World.loadAll, stage]
  dsimp only
  split
  · exact ⟨List.mem_cons_self, empty⟩
  · obtain ⟨noted, further⟩ : ∃ noted,
        (World.runStage quietCallbacks .postLoad (enter entry left)).2 =
          (enter entry left).onApp fun app => { app with notes := noted } :=
      ((leftBoots.log entry).runPostLoad quietCallbacks _ _).1
    rw [further]
    exact ⟨List.mem_append_left _ List.mem_cons_self, empty⟩

/-- The bot overwrites the broken file. -/
theorem brokenStart_overwrites :
    ⟨Keeper.permissions.service, .load,
        some (.fault .malformedDocument "not a document")⟩ ∈
          (World.loadAll quietCallbacks brokenStart).1 ∧
      ∃ loop, SavesLead quietCallbacks (setUpLoop quietCallbacks brokenStart) loop ∧
        Keeper.permissions.file? loop.state ≠ Keeper.permissions.file? brokenStart := by
  rcases brokenStart_loads with ⟨failed, empty⟩
  refine ⟨failed, ?_⟩
  have boots : (World.loadAll quietCallbacks brokenStart).2.Boots .standard ⟨brokenDisk, []⟩
      [.savePermissions] true :=
    (World.loadAll_boots () .standard [] ⟨brokenDisk, []⟩ [] quietCallbacks).1
  have writes : Keeper.permissions.Writes (World.loadAll quietCallbacks brokenStart).2
      (Json.write .indented PermissionStore.empty.save) := by
    refine ⟨?_, PermissionStore.empty.save, ?_, rfl⟩
    · rw [boots.unwritten, boots.configured]
      exact brokenDisk_accepts
    · rw [Keeper.document, empty]
  have stands : Keeper.permissions.file? brokenStart = some (.text "\x7b") :=
    (brokenDisk_get? _ (permissions_path_ne_nil _)).trans (if_pos rfl)
  have survives := failed_load_keeps_file_iff quietCallbacks () .standard [] ⟨brokenDisk, []⟩ []
    .permissions _ failed
  have overwritten : ¬ ∀ loop,
      SavesLead quietCallbacks (setUpLoop quietCallbacks brokenStart) loop →
        Keeper.permissions.file? loop.state = Keeper.permissions.file? brokenStart := by
    intro keeps
    have same := stands.symm.trans (survives.1 keeps _ ⟨⟨_, writes⟩, writes⟩)
    exact absurd same (by decide)
  rcases Classical.not_forall.1 overwritten with ⟨loop, changes⟩
  rcases Classical.not_imp.1 changes with ⟨leads, differs⟩
  exact ⟨loop, leads, differs⟩

end Steward.Running
