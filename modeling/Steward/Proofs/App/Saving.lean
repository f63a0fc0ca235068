import Steward.App.Running
import Steward.Proofs.App.Loading
import Steward.Proofs.Document.Disk
import Steward.Proofs.Loop.Invariant

/-!
# What saving does to the files

When everyone is asked to save, each service writes what it has into its own file, if
the disk lets it, and touches nothing else.  The permission service comes first; if it
can not write its file, nobody else gets to.
-/

namespace Steward

variable {F H : Type}

namespace Keeper

/-- The document that a service saves. -/
def document (world : World F H) : Keeper → Except Failure Value
  | .permissions => .ok world.permissions.save
  | .rules =>
    match world.app.ruleBook with
    | none => .error World.noAttribute
    | some book => (world.rules.saveBook book).1

/-- A service puts a text into its file if it is asked to save. -/
def Writes (keeper : Keeper) (world : World F H) (text : String) : Prop :=
  world.storage.disk.Accepts (keeper.path world.app.settings) ∧
    ∃ document, keeper.document world = .ok document ∧ text = Json.write .indented document

/-- A service puts a text into its file if everyone is asked to save.  The permission
service comes first, and if it can not write its file, nobody else gets to. -/
def Saves (keeper : Keeper) (world : World F H) (text : String) : Prop :=
  (∃ first, Keeper.permissions.Writes world first) ∧ keeper.Writes world text

/-- Save because of an event. -/
def save (data : Value) : Keeper → World F H → Except Failure Unit × World F H
  | .permissions => World.savePermissions data
  | .rules => World.saveRuleBook data

/-- What stands at the place of a service's file. -/
def file? (keeper : Keeper) (world : World F H) : Option FileNode :=
  world.storage.disk.get? (keeper.path world.app.settings)

theorem target_injective {keeper other : Keeper}
    (same : (keeper.target : Target F) = other.target) : keeper = other := by
  cases keeper <;> cases other <;> first | rfl | cases same

theorem Writes.unique {keeper : Keeper} {world : World F H} {text other : String}
    (writes : keeper.Writes world text) (writesOther : keeper.Writes world other) :
    text = other := by
  rcases writes with ⟨-, document, isDocument, rfl⟩
  rcases writesOther with ⟨-, again, isAgain, rfl⟩
  rw [isDocument] at isAgain
  cases isAgain
  rfl

theorem path_length (settings : Settings) (keeper other : Keeper) :
    (keeper.path settings).length = (other.path settings).length := by
  cases keeper <;> cases other <;> simp [path]

theorem path_ne (settings : Settings) {keeper other : Keeper} (distinct : keeper ≠ other) :
    keeper.path settings ≠ other.path settings := by
  intro same
  cases keeper <;> cases other <;> simp [path] at same distinct

end Keeper

namespace World

/-- A world differs from another one at most in the journal, the callbacks' own state,
the series of saves and the files. -/
structure Settled (base world : World F H) : Prop where
  bus : world.bus = base.bus
  rules : world.rules = base.rules
  permissions : world.permissions = base.permissions
  configured : world.app.settings = base.app.settings
  hasPermissions : world.app.hasPermissions = base.app.hasPermissions
  ruleBook : world.app.ruleBook = base.app.ruleBook
  accepts : ∀ keeper : Keeper,
    world.storage.disk.Accepts (keeper.path base.app.settings) ↔
      base.storage.disk.Accepts (keeper.path base.app.settings)

namespace Settled

variable {base world : World F H}

theorem refl (base : World F H) : base.Settled base where
  bus := rfl
  rules := rfl
  permissions := rfl
  configured := rfl
  hasPermissions := rfl
  ruleBook := rfl
  accepts _ := Iff.rfl

theorem log (settled : base.Settled world) (entry : Entry) :
    base.Settled (enter entry world) :=
  { settled with }

theorem logAll (settled : base.Settled world) (entries : List Entry) :
    base.Settled (world.enterAll entries) := by
  induction entries generalizing world with
  | nil =>
      exact settled
  | cons entry rest ih =>
      exact ih (settled.log entry)

theorem document (settled : base.Settled world) (keeper : Keeper) :
    keeper.document world = keeper.document base := by
  cases keeper with
  | permissions =>
      rw [Keeper.document, Keeper.document, settled.permissions]
  | rules =>
      rw [Keeper.document, Keeper.document, settled.ruleBook, settled.rules]

end Settled

variable {base world : World F H}

/-- What comes of a service's save, with the data of an event.  The service writes its
own file if it can, and then succeeds unless the data are not what a save brings. -/
structure Saved (base : World F H) (keeper : Keeper) (data : Value) (world : World F H)
    (result : Except Failure Unit × World F H) : Prop where
  settled : base.Settled result.2
  others : ∀ other, other ≠ keeper → other.file? result.2 = other.file? world
  written : ∀ text, keeper.Writes base text → keeper.file? result.2 = some (.text text)
  succeeds : ∀ text fields, keeper.Writes base text → data = .map fields → result.1 = .ok ()
  refused : (∀ text, ¬ keeper.Writes base text) →
    keeper.file? result.2 = keeper.file? world ∧ ∃ failure, result.1 = .error failure

namespace Saved

variable {keeper : Keeper}

/-- Keeping a document in the file of a service. -/
theorem of_store (settled : base.Settled world) {document : Value}
    (isDocument : keeper.document base = .ok document) (data : Value) :
    Saved base keeper data world
      (store (some (.file (keeper.path base.app.settings))) document world) := by
  generalize stores :
    store (some (.file (keeper.path base.app.settings))) document world = result
  have disk : result.2.storage.disk =
      (world.storage.disk.write (keeper.path base.app.settings)
        (Json.write .indented document)).2 := by
    rw [← stores]
    rfl
  have outcome : result.1 = (world.storage.disk.write (keeper.path base.app.settings)
      (Json.write .indented document)).1 := by
    rw [← stores]
    rfl
  have after : base.Settled result.2 := by
    have accepts : ∀ other : Keeper,
        result.2.storage.disk.Accepts (other.path base.app.settings) ↔
          base.storage.disk.Accepts (other.path base.app.settings) := by
      intro other
      rw [disk, Disk.accepts_write_iff _ _ (Keeper.path_length _ keeper other)]
      exact settled.accepts other
    rw [← stores] at accepts ⊢
    exact { settled with accepts := accepts }
  have place : ∀ (other : Keeper) {world : World F H}, base.Settled world →
      other.file? world = world.storage.disk.get? (other.path base.app.settings) := by
    intro other world settled
    rw [Keeper.file?, settled.configured]
  refine ⟨after, ?_, ?_, ?_, ?_⟩
  · intro other distinct
    rw [place other after, place other settled, disk]
    exact Disk.get?_write_beside _ _ (Keeper.path_ne _ distinct) (Keeper.path_length _ _ _)
  · rintro text ⟨accepts, saved, isSaved, rfl⟩
    rw [isDocument] at isSaved
    cases isSaved
    rw [place keeper after, disk]
    exact (Disk.write_of_accepts ((settled.accepts keeper).2 accepts) _).2
  · rintro text fields ⟨accepts, -⟩ -
    rw [outcome]
    exact (Disk.write_of_accepts ((settled.accepts keeper).2 accepts) _).1
  · intro never
    have refuses : ¬ world.storage.disk.Accepts (keeper.path base.app.settings) := by
      intro accepts
      exact never _ ⟨(settled.accepts keeper).1 accepts, document, isDocument, rfl⟩
    rcases Disk.write_of_not_accepts refuses (Json.write .indented document) with ⟨fails, unchanged⟩
    rw [place keeper after, place keeper settled, disk, outcome]
    exact ⟨unchanged, fails⟩

/-- A save that went well is recorded, unless the event does not bring what a save
brings. -/
theorem noteSave {earlier data : Value} {after : World F H}
    (saved : Saved base keeper earlier world (.ok (), after)) (service text : String) :
    Saved base keeper data world (World.noteSave service text data after) := by
  have notRefused : ¬ ∀ text, ¬ keeper.Writes base text := by
    intro never
    rcases saved.refused never with ⟨-, failure, fails⟩
    cases fails
  unfold World.noteSave
  split
  · split
    · exact { saved with
        succeeds := fun _ _ _ _ => rfl
        refused := fun never => absurd never notRefused }
    · exact { saved with
        settled := saved.settled.log _
        succeeds := fun _ _ _ _ => rfl
        refused := fun never => absurd never notRefused }
  · rename_i noMap
    exact { saved with
      succeeds := fun _ fields _ isMap => absurd isMap (noMap fields)
      refused := fun never => absurd never notRefused }

theorem store_noteSave (settled : base.Settled world) {document : Value}
    (isDocument : keeper.document base = .ok document) (service text : String)
    (data : Value) :
    Saved base keeper data world
      (match store (some (.file (keeper.path base.app.settings))) document world with
        | (.ok _, world) => World.noteSave service text data world
        | failed => failed) := by
  have stores := of_store settled isDocument data
  split
  · rename_i stored
    rw [stored] at stores
    exact stores.noteSave service text
  · exact stores

theorem of_refused {data : Value} (settled : base.Settled world)
    (never : ∀ text, ¬ keeper.Writes base text) (failure : Failure) :
    Saved base keeper data world (.error failure, world) where
  settled := settled
  others _ _ := rfl
  written text writes := absurd writes (never text)
  succeeds text _ writes _ := absurd writes (never text)
  refused _ := ⟨rfl, failure, rfl⟩

/-- Records of what is left out change no file. -/
theorem of_logAll {data : Value} {result : Except Failure Unit × World F H}
    {entries : List Entry} (saved : Saved base keeper data (world.enterAll entries) result) :
    Saved base keeper data world result := by
  induction entries generalizing world with
  | nil =>
      exact saved
  | cons entry rest ih =>
      have afterFirst : Saved base keeper data (enter entry world) result := ih saved
      exact { afterFirst with }

end Saved

/-- Saving the rules of the book of the rule service. -/
theorem Settled.saveRules {settings : Settings} {storage : Storage}
    {firsts : List (Target F)} (boots : base.Boots settings storage firsts true)
    (settled : base.Settled world) {book : Nat} (isBook : base.app.ruleBook = some book)
    (data : Value) :
    Saved base .rules data world
      (match World.saveRules book world with
        | (.ok _, world) =>
          World.noteSave "InteractionService" "Saved persistent interactions" data world
        | failed => failed) := by
  have place : ∀ {world : World F H}, base.Settled world →
      (world.rules.book book).place = some (.file (Keeper.rules.path base.app.settings)) := by
    intro world settled
    rw [settled.rules, boots.configured]
    exact boots.housed book isBook
  have isDocument : Keeper.rules.document base = (world.rules.saveBook book).1 := by
    rw [Keeper.document, isBook, settled.rules]
  unfold World.saveRules saving
  dsimp only
  rcases saves : world.rules.saveBook book with ⟨failure | document, omitted⟩ <;>
    rw [saves] at isDocument
  · have never : ∀ text, ¬ Keeper.rules.Writes base text := by
      rintro text ⟨-, document, isSaved, -⟩
      rw [isDocument] at isSaved
      cases isSaved
    exact .of_logAll (.of_refused (settled.logAll (omitted.map omission)) never failure)
  · have logged := settled.logAll (omitted.map omission)
    dsimp only
    rw [place logged]
    exact .of_logAll (.store_noteSave logged isDocument _ _ data)

/-- A service saves what it has, whether it was loaded or not. -/
theorem Settled.save {settings : Settings} {storage : Storage} {firsts : List (Target F)}
    (boots : base.Boots settings storage firsts true) (settled : base.Settled world)
    (keeper : Keeper) (data : Value) :
    Saved base keeper data world (keeper.save data world) := by
  cases keeper with
  | permissions =>
      have permitted : world.app.hasPermissions = true :=
        settled.hasPermissions.trans (boots.permitted rfl)
      have place : world.permissionPlace =
          .file (Keeper.permissions.path base.app.settings) := by
        rw [← settled.configured]
        rfl
      have isDocument : Keeper.permissions.document base = .ok world.permissions.save := by
        rw [settled.permissions]
        rfl
      rw [Keeper.save, savePermissions, permitted, place]
      exact Saved.store_noteSave settled isDocument _ _ data
  | rules =>
      cases isBook : base.app.ruleBook with
      | none =>
          have never : ∀ text, ¬ Keeper.rules.Writes base text := by
            rintro text ⟨-, document, isDocument, -⟩
            rw [Keeper.document, isBook] at isDocument
            cases isDocument
          rw [Keeper.save, saveRuleBook, settled.ruleBook, isBook]
          exact .of_refused settled never noAttribute
      | some book =>
          rw [Keeper.save, saveRuleBook, settled.ruleBook, isBook]
          exact settled.saveRules boots isBook data

/-- A world is settled, and a file stands as it should. -/
def Stands (base : World F H) (keeper : Keeper) (node : Option FileNode)
    (world : World F H) : Prop :=
  base.Settled world ∧ keeper.file? world = node

theorem Stands.log {keeper : Keeper} {node : Option FileNode}
    (stands : base.Stands keeper node world) (entry : Entry) :
    base.Stands keeper node (enter entry world) := by
  exact ⟨stands.1.log entry, stands.2⟩

/-- What the application notes of its saves does not matter. -/
theorem Stands.onApp {keeper : Keeper} {node : Option FileNode}
    (stands : base.Stands keeper node world) {change : App F → App F}
    (keeps : ∀ app, (change app).settings = app.settings ∧
      (change app).hasPermissions = app.hasPermissions ∧
      (change app).ruleBook = app.ruleBook) :
    base.Stands keeper node (world.onApp change) := by
  rcases stands with ⟨settled, stands⟩
  rcases keeps world.app with ⟨settings, hasPermissions, ruleBook⟩
  refine ⟨{ settled with
    configured := settings.trans settled.configured
    hasPermissions := hasPermissions.trans settled.hasPermissions
    ruleBook := ruleBook.trans settled.ruleBook }, ?_⟩
  rw [← stands, Keeper.file?, Keeper.file?]
  exact congrArg (fun settings => world.storage.disk.get? (keeper.path settings)) settings

/-- What comes of calling a service's listener on the arguments of an event. -/
structure Called (base : World F H) (keeper : Keeper) (arguments : List Value)
    (world : World F H) (succeeded : Prop) (after : World F H) : Prop where
  settled : base.Settled after
  others : ∀ other, other ≠ keeper → other.file? after = other.file? world
  own : keeper.file? after = keeper.file? world ∨
    ∃ text, keeper.Writes base text ∧ keeper.file? after = some (.text text)
  wrote : succeeded → ∃ text, keeper.Writes base text
  saves : ∀ fields text, arguments = [.map fields] → keeper.Writes base text →
    succeeded ∧ keeper.file? after = some (.text text)

theorem Saved.called {keeper : Keeper} {data : Value}
    {result : Except Failure Unit × World F H} {succeeded : Prop}
    (saved : Saved base keeper data world result)
    (outcome : succeeded ↔ result.1 = .ok ()) :
    Called base keeper [data] world succeeded result.2 where
  settled := saved.settled
  others := saved.others
  own := by
    by_cases writes : ∃ text, keeper.Writes base text
    · rcases writes with ⟨text, writes⟩
      exact .inr ⟨text, writes, saved.written text writes⟩
    · exact .inl (saved.refused (not_exists.1 writes)).1
  wrote := by
    intro succeeded
    by_cases writes : ∃ text, keeper.Writes base text
    · exact writes
    · rcases saved.refused (not_exists.1 writes) with ⟨-, failure, failed⟩
      rw [outcome.1 succeeded] at failed
      cases failed
  saves := by
    intro fields text isMap writes
    cases isMap
    exact ⟨outcome.2 (saved.succeeds text fields writes rfl), saved.written text writes⟩

theorem Called.of_untouched {keeper : Keeper} {arguments : List Value} {succeeded : Prop}
    (settled : base.Settled world) (fails : ¬ succeeded)
    (noMap : ∀ fields, arguments ≠ [.map fields]) :
    Called base keeper arguments world succeeded world where
  settled := settled
  others _ _ := rfl
  own := .inl rfl
  wrote succeeded := absurd succeeded fails
  saves fields _ isMap := absurd isMap (noMap fields)

end World

namespace Running

variable {settings : Settings} {storage : Storage} {firsts : List (Target F)}
  {base world : World F H} {inv : World F H → Prop} {jobs : Job F → Prop}

/-- Calling the listener of a service saves, if the arguments are those of a save. -/
theorem call_keeper (boots : base.Boots settings storage firsts true)
    (settled : base.Settled world) (callbacks : Callbacks F H) (inner : Reach F H)
    (keeper : Keeper) (arguments : List Value) :
    (call callbacks inner keeper.target arguments).run.Respects inv jobs
      (fun exit after =>
        World.Called base keeper arguments world (∃ value, exit = .ok value) after) world := by
  have saves : ∀ data, (do
      Course.atomically (keeper.save data)
      return Value.null : WorldCourse F H Value).run.Respects inv jobs
        (fun exit after =>
          World.Called base keeper [data] world (∃ value, exit = .ok value) after) world := by
    intro data
    have saved := settled.save boots keeper data
    have first : (Course.atomically (keeper.save data)).run.Respects inv jobs
        (fun exit after => exit = (keeper.save data world).1.mapError Interrupt.failed ∧
          after = (keeper.save data world).2) world :=
      Course.respects_atomically ⟨rfl, rfl⟩
    apply Course.respects_seq first
    · rintro value after ⟨outcome, rfl⟩
      refine saved.called (iff_of_true ⟨.null, rfl⟩ ?_)
      cases succeeds : (keeper.save data world).1 with
      | ok value =>
          rfl
      | error failure =>
          rw [succeeds] at outcome
          cases outcome
    · rintro interrupt after ⟨outcome, rfl⟩
      refine saved.called (iff_of_false (by rintro ⟨value, ⟨⟩⟩) ?_)
      intro succeeds
      rw [succeeds] at outcome
      cases outcome
  have fails : (∀ fields, arguments ≠ [.map fields]) →
      (Course.fail Standard.wrongCount : WorldCourse F H Value).run.Respects inv jobs
        (fun exit after =>
          World.Called base keeper arguments world (∃ value, exit = .ok value) after) world := by
    intro noMap
    refine World.Called.of_untouched settled ?_ noMap
    rintro ⟨value, absurdity⟩
    cases absurdity
  cases arguments with
  | nil =>
      have failing := fails (by simp)
      cases keeper <;> exact failing
  | cons data rest =>
      cases rest with
      | nil =>
          cases keeper
          · exact saves data
          · exact saves data
      | cons second rest =>
          have failing := fails (by simp)
          cases keeper <;> exact failing

/-- A listener of a service is called with the arguments of a publication, which stay
as they are. -/
theorem handOver_keeper (boots : base.Boots settings storage firsts true)
    (settled : base.Settled world) (callbacks : Callbacks F H) (inner : Reach F H)
    {keeper : Keeper} {listener : Listener (Target F)}
    (target : listener.target = keeper.target) (prompt : listener.delay = none)
    (publication : Publication) :
    (Publication.handOver (call callbacks inner) listener publication).run.Respects inv jobs
      (fun exit after =>
        World.Called base keeper publication.arguments world (∃ value, exit = .ok value) after ∧
          ∀ next, exit = .ok next → next.arguments = publication.arguments) world := by
  have enclosed : (call callbacks inner keeper.target publication.arguments).enclosed.run.Respects
      inv jobs (fun exit after => World.Called base keeper publication.arguments world
        (∃ value, exit = .ok value) after) world := by
    apply Course.respects_enclosed
    apply (call_keeper boots settled callbacks inner keeper _).mono
    rintro (interrupt | value) after called
    · refine { called with wrote := ?_, saves := ?_ }
      · rintro ⟨_, ⟨⟩⟩
      · intro fields text isMap writes
        rcases (called.saves fields text isMap writes).1 with ⟨_, ⟨⟩⟩
    · exact called
  unfold Publication.handOver
  rw [prompt, target]
  apply Course.respects_seq enclosed
  · rintro answer after called
    refine ⟨{ called with wrote := fun _ => called.wrote ⟨_, rfl⟩, saves := ?_ }, ?_⟩
    · intro fields text isMap writes
      exact ⟨⟨_, rfl⟩, (called.saves fields text isMap writes).2⟩
    · rintro next ⟨⟩
      unfold Publication.afterAnswer
      split <;> rfl
  · rintro interrupt after called
    have fails : ¬ ∃ value : Value, (.error interrupt : Exit Value) = .ok value := by
      rintro ⟨value, ⟨⟩⟩
    refine ⟨{ called with wrote := ?_, saves := ?_ }, ?_⟩
    · rintro ⟨value, ⟨⟩⟩
    · intro fields text isMap writes
      exact absurd (called.saves fields text isMap writes).1 fails
    · rintro next ⟨⟩

/-- If the text that a service would write is there already, its file stands whoever
is called to save. -/
theorem handOverToAll_stands (boots : base.Boots settings storage firsts true)
    (callbacks : Callbacks F H) (inner : Reach F H) {keeper : Keeper}
    {node : Option FileNode}
    (same : ∀ text, keeper.Writes base text → node = some (.text text))
    {listeners : List (Listener (Target F))}
    (keepers : ∀ listener ∈ listeners, listener.delay = none ∧
      ∃ other : Keeper, listener.target = other.target)
    (stands : base.Stands keeper node world) (publication : Publication) :
    (Publication.handOverToAll (call callbacks inner) listeners publication).run.Respects inv
      jobs (fun _ after => base.Stands keeper node after) world := by
  induction listeners generalizing world publication with
  | nil =>
      exact stands
  | cons listener rest ih =>
      rcases keepers listener List.mem_cons_self with ⟨prompt, other, target⟩
      have stillStands : ∀ {succeeded : Prop} {after : World F H},
          World.Called base other publication.arguments world succeeded after →
          base.Stands keeper node after := by
        intro succeeded after called
        refine ⟨called.settled, ?_⟩
        by_cases isKeeper : keeper = other
        · subst isKeeper
          rcases called.own with untouched | ⟨text, writes, written⟩
          · rw [untouched, stands.2]
          · rw [written, same text writes]
        · rw [called.others keeper isKeeper, stands.2]
      rw [Publication.handOverToAll]
      apply Course.respects_seq
        (handOver_keeper boots stands.1 callbacks inner target prompt publication)
      · rintro next after ⟨called, -⟩
        exact ih (fun other member => keepers other (List.mem_cons_of_mem _ member))
          (stillStands called) next
      · rintro interrupt after ⟨called, -⟩
        exact stillStands called

/-- A service that is asked to save writes its file, if it comes first or all services
can write theirs. -/
theorem handOverToAll_saves (boots : base.Boots settings storage firsts true)
    (callbacks : Callbacks F H) (inner : Reach F H) {keeper : Keeper} {text : String}
    (writes : keeper.Writes base text) {listeners : List (Listener (Target F))}
    (keepers : ∀ listener ∈ listeners, listener.delay = none ∧
      ∃ other : Keeper, listener.target = other.target)
    (asked : keeper.target ∈ listeners.map (·.target))
    (reached : (listeners.map (·.target)).head? = some keeper.target ∨
      ∀ other : Keeper, ∃ text, other.Writes base text)
    (settled : base.Settled world) {publication : Publication} {fields : List (String × Value)}
    (isSave : publication.arguments = [.map fields]) :
    (Publication.handOverToAll (call callbacks inner) listeners publication).run.Respects inv
      jobs (fun _ after => base.Stands keeper (some (.text text)) after) world := by
  induction listeners generalizing world publication with
  | nil =>
      cases asked
  | cons listener rest ih =>
      rcases keepers listener List.mem_cons_self with ⟨prompt, other, target⟩
      have restKeepers := fun listener member =>
        keepers listener (List.mem_cons_of_mem _ member)
      have handing : (Publication.handOver (call callbacks inner) listener
          publication).run.Respects inv jobs _ world :=
        handOver_keeper boots settled callbacks inner target prompt publication
      rw [Publication.handOverToAll]
      by_cases isKeeper : other = keeper
      · subst isKeeper
        apply Course.respects_seq handing
        · rintro next after ⟨called, -⟩
          refine handOverToAll_stands boots callbacks inner ?_ restKeepers
            ⟨called.settled, (called.saves fields text isSave writes).2⟩ next
          intro again writesAgain
          rw [writes.unique writesAgain]
        · rintro interrupt after ⟨called, -⟩
          exact ⟨called.settled, (called.saves fields text isSave writes).2⟩
      · have notFirst : listener.target ≠ keeper.target := by
          rw [target]
          exact mt Keeper.target_injective isKeeper
        have allWrite : ∀ other : Keeper, ∃ text, other.Writes base text := by
          rcases reached with first | allWrite
          · exact absurd (Option.some.inj first) notFirst
          · exact allWrite
        apply Course.respects_seq handing
        · rintro next after ⟨called, sameArguments⟩
          refine ih restKeepers ?_ (.inr allWrite) called.settled
            ((sameArguments next rfl).trans isSave)
          rcases List.mem_cons.1 asked with here | later
          · exact absurd here.symm notFirst
          · exact later
        · rintro interrupt after ⟨called, -⟩
          rcases allWrite other with ⟨otherText, otherWrites⟩
          rcases called.saves fields otherText isSave otherWrites with ⟨⟨value, ⟨⟩⟩, -⟩

/-! ## Publications -/

/-- The listeners that are asked to save are those of services, the permission service
first. -/
theorem listeners_of_boots (boots : base.Boots settings storage [.savePermissions] true)
    (settled : base.Settled world) :
    (∀ listener ∈ world.bus.listenersOf saveDataEvent, listener.delay = none ∧
      ∃ other : Keeper, listener.target = other.target) ∧
    ∃ first rest, world.bus.listenersOf saveDataEvent = first :: rest ∧
      first.target = Keeper.permissions.target := by
  rw [settled.bus]
  constructor
  · intro listener member
    exact ⟨(boots.prompt listener member).2,
      boots.keepers listener.target (List.mem_map_of_mem member)⟩
  · have begins := boots.begins
    unfold World.savers at begins
    cases listeners : base.bus.listenersOf saveDataEvent with
    | nil =>
        rw [listeners] at begins
        cases List.prefix_nil.1 begins
    | cons first rest =>
        rw [listeners] at begins
        exact ⟨first, rest, rfl, (List.cons_prefix_cons.1 begins).1.symm⟩

/-- A publication of a save changes a file only to what its service saves. -/
theorem publish_stands (boots : base.Boots settings storage [.savePermissions] true)
    (callbacks : Callbacks F H) {keeper : Keeper} {node : Option FileNode}
    (same : ∀ text, keeper.Saves base text → node = some (.text text))
    (stands : base.Stands keeper node world) {publication : Publication}
    (isSave : publication.event = saveDataEvent) :
    (publish callbacks publication).run.Respects inv jobs
      (fun _ after => base.Stands keeper node after) world := by
  rcases listeners_of_boots boots stands.1 with ⟨keepers, first, rest, listeners, isFirst⟩
  show (Publication.handOverToAll (call callbacks (reachAt callbacks 199))
    (world.bus.listenersOf publication.event) publication).run.Respects inv jobs _ world
  rw [isSave]
  by_cases begins : ∃ text, Keeper.permissions.Writes base text
  · exact handOverToAll_stands boots callbacks _ (fun text writes => same text ⟨begins, writes⟩)
      keepers stands publication
  · rw [listeners] at keepers ⊢
    rcases keepers first List.mem_cons_self with ⟨prompt, -⟩
    rw [Publication.handOverToAll]
    apply Course.respects_seq
      (handOver_keeper boots stands.1 callbacks _ isFirst prompt publication)
    · rintro next after ⟨called, -⟩
      exact absurd (called.wrote ⟨next, rfl⟩) begins
    · rintro interrupt after ⟨called, -⟩
      refine ⟨called.settled, ?_⟩
      by_cases isKeeper : keeper = .permissions
      · subst isKeeper
        rcases called.own with untouched | ⟨text, writes, -⟩
        · rw [untouched, stands.2]
        · exact absurd ⟨text, writes⟩ begins
      · rw [called.others keeper isKeeper, stands.2]

/-- A save writes the file of every service that gets to it. -/
theorem save_saves (boots : base.Boots settings storage [.savePermissions] true)
    (callbacks : Callbacks F H) {keeper : Keeper} {text : String}
    (saves : keeper.Saves base text) (asked : keeper.target ∈ base.savers)
    (settled : base.Settled world) (reason : Value) :
    (save callbacks reason).run.Respects inv jobs
      (fun _ after => base.Stands keeper (some (.text text)) after) world := by
  rcases saves with ⟨begins, writes⟩
  rcases listeners_of_boots boots settled with ⟨keepers, first, rest, listeners, isFirst⟩
  have published : (publish callbacks
      (.new saveDataEvent [.map [("reason", reason)]])).run.Respects inv jobs
        (fun _ after => base.Stands keeper (some (.text text)) after) world := by
    refine handOverToAll_saves boots callbacks (reachAt callbacks 199) writes keepers ?_ ?_
      settled rfl
    · rw [settled.bus]
      exact asked
    · cases keeper with
      | permissions =>
          left
          rw [listeners, List.map_cons, isFirst]
          rfl
      | rules =>
          right
          intro other
          cases other with
          | permissions =>
              exact begins
          | rules =>
              exact ⟨text, writes⟩
  exact Course.respects_seq published (fun _ _ stands => stands) fun _ _ stands => stands

end Running

end Steward
