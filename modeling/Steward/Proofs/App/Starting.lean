import Mathlib.Data.List.Perm.Subperm
import Steward.Proofs.App.Hooks
import Steward.Proofs.App.LoadEvents

/-!
# Loading every extension once

An application is started by any sequence of calls: loading everything, running a stage
and requiring something.  An extension that has failed to load stays as it was before,
so it is loaded again by whatever comes to it next, and it is handed out though it is
not loaded if it fails again.  That is the only way in which an extension begins to be
loaded twice or is handed out unloaded.
-/

namespace Steward

/-!
## Following the loads of an application

The events of a start-up are listed along the functions that carry it out: loading an
extension lists its own load around those of what it requires.  The list is one that
`LoadState.Reaches` allows, whatever the extensions do of their own, as long as their
requirements do not go in a circle.  Then the chains of requirements are never cut
short, since they are no longer than there are extensions.
-/

variable {F H : Type}

namespace World

/-! ## The events of a start-up -/

/-- Load the extension of a number, if there is one. -/
def loadAt (callbacks : Callbacks F H) (depth number : Nat) (world : World F H) : World F H :=
  match world.extension? number with
  | some extension => (loadWithin callbacks depth number extension world).2
  | none => world

/-- The events of requiring something, with how extensions are loaded and the events of that. -/
def requireEvents (load : Nat → World F H → World F H)
    (events : Nat → World F H → List LoadEvent) (kind : DependencyKind) (name : String)
    (world : World F H) : List LoadEvent :=
  match world.find? kind name with
  | some (.extension number) =>
    events number world ++ ((load number world).marks[number]?).toList.map (.handed number)
  | _ => []

end World

/-- The events of a course. -/
def HookCourse.events (load : Nat → World F H → World F H)
    (events : Nat → World F H → List LoadEvent) : HookCourse F H → World F H → List LoadEvent
  | .done _, _ => []
  | .look next, world => HookCourse.events load events (next world) world
  | .change f next, world => HookCourse.events load events next (f world)
  | .resolve kind name next, world =>
    match World.resolve kind name world with
    | (found, world) => HookCourse.events load events (next found) world
  | .require kind name next, world =>
    World.requireEvents load events kind name world ++
      match World.requireWith load kind name world with
      | (answer, world) => HookCourse.events load events (next answer) world

namespace World

section Events

variable (callbacks : Callbacks F H) (courses : F → Stage → Nat → HookCourse F H)

/-- The events of an extension's own part of a stage. -/
def hookEvents (load : Nat → World F H → World F H) (events : Nat → World F H → List LoadEvent)
    (stage : Stage) (number : Nat) (role : Role F) (world : World F H) : List LoadEvent :=
  let course := HookCourse.ofRole callbacks courses stage number role
  let begun := world.note (.runs number stage)
  .runs number stage ::
    (course.events load events begun ++
      [.ran number stage (failureOf (course.run ⟨resolve, requireWith load⟩ begun).1)])

/-- The events while an extension is loaded, after its own begin and before its own end. -/
def loadingEvents (load : Nat → World F H → World F H)
    (events : Nat → World F H → List LoadEvent) (number : Nat) (extension : Extension F)
    (world : World F H) : List LoadEvent :=
  let world := (world.note (.begins number)).updateExtension number fun e =>
    { e with attached := true }
  match subscribeEach (callbacks.following courses)
      (subscriptionsOf (callbacks.following courses) extension.role) world with
  | (.error _, _) => []
  | (.ok _, world) => hookEvents callbacks courses load events .load number extension.role world

/-- The events of loading the extension of a number, while others are being loaded. -/
def loadEvents : Nat → List Nat → Nat → World F H → List LoadEvent
  | 0, _, _, _ => []
  | depth + 1, during, number, world =>
    match world.extension? number with
    | none => []
    | some extension =>
      if extension.loaded then []
      else
        let followed := callbacks.following courses
        .begins number during ::
          (loadingEvents callbacks courses (loadAt followed depth)
              (loadEvents depth (number :: during)) number extension world ++
            [.ends number (loadWithin followed (depth + 1) number extension world).1.failure])

/-- The events of loading what is required outside of any load. -/
def requiredEvents (number : Nat) (world : World F H) : List LoadEvent :=
  loadEvents callbacks courses (world.app.extensions.length + 1) [] number world

/-- The events of a stage of one extension. -/
def stageEventsOf (stage : Stage) (number : Nat) (extension : Extension F) (world : World F H) :
    List LoadEvent :=
  match stage with
  | .load => requiredEvents callbacks courses number world
  | stage =>
    hookEvents callbacks courses (loadRequired (callbacks.following courses))
      (requiredEvents callbacks courses) stage number extension.role world

/-- The events of a stage of some extensions. -/
def stageEvents (stage : Stage) (policy : StagePolicy) : List Nat → World F H → List LoadEvent
  | [], _ => []
  | number :: rest, world =>
    match world.extension? number with
    | none => stageEvents stage policy rest world
    | some extension =>
      match runOn (callbacks.following courses) stage number extension world with
      | (result, after) =>
        stageEventsOf callbacks courses stage number extension world ++
          if result.failure.isSome && policy == .abort then []
          else stageEvents stage policy rest after

end Events

end World

/-- A call with which an application is started. -/
inductive StartCall where
  | loadAll
  | runStage (stage : Stage)
  | require (kind : DependencyKind) (name : String)

namespace StartCall

def run (callbacks : Callbacks F H) (call : StartCall) (world : World F H) : World F H :=
  match call with
  | .loadAll => (World.loadAll callbacks world).2
  | .runStage stage => (World.runStage callbacks stage world).2
  | .require kind name => (World.require callbacks kind name world).2

def runAll (callbacks : Callbacks F H) (calls : List StartCall) (world : World F H) : World F H :=
  calls.foldl (fun world call => call.run callbacks world) world

variable (callbacks : Callbacks F H) (courses : F → Stage → Nat → HookCourse F H)

def stageEvents (stage : Stage) (world : World F H) : List LoadEvent :=
  World.stageEvents callbacks courses stage (world.policy stage) world.extensions world

def events (call : StartCall) (world : World F H) : List LoadEvent :=
  match call with
  | .loadAll =>
    stageEvents callbacks courses .load world ++
      match World.runStage (callbacks.following courses) .load world with
      | (results, loaded) =>
        if loaded.policy .load == .abort && results.any (·.failure.isSome) then []
        else stageEvents callbacks courses .postLoad loaded
  | .runStage stage => stageEvents callbacks courses stage world
  | .require kind name =>
    World.requireEvents (World.loadRequired (callbacks.following courses))
      (World.requiredEvents callbacks courses) kind name world

def allEvents : List StartCall → World F H → List LoadEvent
  | [], _ => []
  | call :: rest, world =>
    events callbacks courses call world ++
      allEvents rest (call.run (callbacks.following courses) world)

end StartCall

/-! ## Events that lead from one world to another -/

theorem LoadState.Reaches.sound {before after : LoadState} {events : List LoadEvent}
    (reaches : Reaches before events after) (sound : before.Sound)
    (acyclic : ∀ event ∈ events, event.IsAcyclic) : after.Sound := by
  induction reaches with
  | refl => exact sound
  | step first rest ih =>
      exact ih (sound.step first (acyclic _ List.mem_cons_self))
        fun event member => acyclic event (List.mem_cons_of_mem _ member)

theorem LoadState.Reaches.length_marks {before after : LoadState} {events : List LoadEvent}
    (reaches : Reaches before events after) : after.marks.length = before.marks.length := by
  induction reaches with
  | refl => rfl
  | step first rest ih => exact ih.trans first.length_marks

/-- What is being loaded is among the extensions. -/
theorem LoadState.Sound.length_during {state : LoadState} (sound : state.Sound) :
    state.during.length ≤ state.marks.length := by
  have among : state.during ⊆ List.range state.marks.length := by
    intro number member
    exact List.mem_range.2 (List.getElem?_eq_some_iff.1 (sound.unloaded number member)).1
  simpa using (sound.distinct.subperm among).length_le

/-- Events that are possible from one world to another, while some extensions are being loaded and
chains of requirements can be of some length.  In the end, each of the settled extensions is loaded
or has failed. -/
def Leads (during : List Nat) (depth : Nat) (events : List LoadEvent) (settled : List Nat)
    (start stop : World F H) : Prop :=
  ∀ failed, LoadState.Sound ⟨start.marks, failed, during⟩ →
    start.marks.length < during.length + depth →
    (∀ event ∈ events, event.IsAcyclic) →
    ∃ more, LoadState.Reaches ⟨start.marks, failed, during⟩ events ⟨stop.marks, more, during⟩ ∧
      ∀ number ∈ settled, ∀ loaded, stop.marks[number]? = some loaded →
        loaded = true ∨ number ∈ more

namespace Leads

variable {during settled : List Nat} {depth number : Nat} {events later : List LoadEvent}
  {start middle stop : World F H}

theorem of_marks (kept : stop.marks = start.marks) : Leads during depth [] [] start stop := by
  intro failed _ _ _
  rw [kept]
  exact ⟨failed, .refl _, by simp⟩

/-- Nothing has to happen to an extension that is loaded, or that does not exist. -/
theorem of_mark (mark : start.marks[number]? ≠ some false) :
    Leads during depth [] [number] start start := by
  intro failed _ _ _
  refine ⟨failed, .refl _, ?_⟩
  rintro other member loaded found
  cases List.mem_singleton.1 member
  cases loaded with
  | true => exact .inl rfl
  | false => exact absurd found mark

theorem trans (first : Leads during depth events settled start middle)
    {further : List Nat} (rest : Leads during depth later further middle stop) :
    Leads during depth (events ++ later) further start stop := by
  intro failed sound bound acyclic
  have acyclicFirst := fun event member => acyclic event (List.mem_append_left later member)
  rcases first failed sound bound acyclicFirst with ⟨some, reaches, -⟩
  have length := reaches.length_marks
  rcases rest some (reaches.sound sound acyclicFirst) (length ▸ bound)
    fun event member => acyclic event (List.mem_append_right events member) with
    ⟨more, onward, settles⟩
  exact ⟨more, reaches.trans onward, settles⟩

/-- A change that keeps the marks is no event. -/
theorem after_silence (leads : Leads during depth events settled middle stop)
    (kept : middle.marks = start.marks) : Leads during depth events settled start stop := by
  intro failed
  rw [← kept]
  exact leads failed

theorem then_silence (leads : Leads during depth events settled start middle)
    (kept : stop.marks = middle.marks) : Leads during depth events settled start stop := by
  intro failed
  rw [kept]
  exact leads failed

/-- An extension's own part of a later stage is no event for the marks. -/
theorem around (leads : Leads during depth events [] start stop) (number : Nat) (stage : Stage)
    (failure : Option Failure) (apart : stage ≠ .load) :
    Leads during depth (.runs number stage :: (events ++ [.ran number stage failure])) [] start
      stop := by
  intro failed sound bound acyclic
  rcases leads failed sound bound fun event member => acyclic event
    (List.mem_cons_of_mem _ (List.mem_append_left _ member)) with ⟨more, reaches, -⟩
  have begins := LoadState.Step.runs ⟨start.marks, failed, during⟩ number stage (absurd · apart)
  have ends := LoadState.Step.ran ⟨stop.marks, more, during⟩ number stage failure
    (absurd · apart)
  exact ⟨more, .step begins (reaches.trans (.single ends)), by simp⟩

theorem forget (leads : Leads during depth events settled start stop) :
    Leads during depth events [] start stop := by
  intro failed sound bound acyclic
  rcases leads failed sound bound acyclic with ⟨more, reaches, -⟩
  exact ⟨more, reaches, by simp⟩

end Leads

/-! ## Requiring -/

namespace World

theorem marks_note (entry : StartNote) (world : World F H) :
    (world.note entry).marks = world.marks := by
  rfl

theorem marks_resolve (kind : DependencyKind) (name : String) (world : World F H) :
    (resolve kind name world).2.marks = world.marks := by
  unfold resolve
  split <;> rfl

theorem getElem?_marks (number : Nat) (world : World F H) :
    world.marks[number]? = (world.extension? number).map (·.loaded) := by
  exact List.getElem?_map

/-- Loads that lead to loaded extensions, when nothing goes in a circle. -/
def LoadsLead (during : List Nat) (depth : Nat) (load : Nat → World F H → World F H)
    (events : Nat → World F H → List LoadEvent) : Prop :=
  ∀ number world, Leads during depth (events number world) [number] world (load number world)

section Requiring

variable {during : List Nat} {depth : Nat} {load : Nat → World F H → World F H}
  {events : Nat → World F H → List LoadEvent}

/-- What is required is loaded first, and then handed out. -/
theorem requireEvents_lead (loads : LoadsLead during depth load events) (kind : DependencyKind)
    (name : String) (world : World F H) :
    Leads during depth (requireEvents load events kind name world) [] world
      (requireWith load kind name world).2 := by
  unfold requireEvents requireWith
  rcases world.find? kind name with _ | number | value
  · exact .of_marks rfl
  · intro failed sound bound acyclic
    rcases loads number world failed sound bound
      fun event member => acyclic event (List.mem_append_left _ member) with
      ⟨more, reaches, settles⟩
    refine ⟨more, reaches.trans ?_, by simp⟩
    dsimp only
    rcases found : (load number world).extension? number with _ | extension
    · have mark : (load number world).marks[number]? = none := by
        rw [getElem?_marks, found, Option.map_none]
      rw [mark]
      exact .refl _
    · have mark : (load number world).marks[number]? = some extension.loaded := by
        rw [getElem?_marks, found, Option.map_some]
      rw [mark]
      exact .single (.handed _ number extension.loaded mark
        (settles number (by simp) extension.loaded mark))
  · exact .of_marks rfl

/-- A course leads where its events do. -/
theorem events_lead (loads : LoadsLead during depth load events) {course : HookCourse F H}
    (spares : course.Spares) (world : World F H) :
    Leads during depth (course.events load events world) [] world
      (course.run ⟨resolve, requireWith load⟩ world).2 := by
  induction course generalizing world with
  | done outcome => exact .of_marks rfl
  | look next ih => exact ih world (spares world) world
  | change f next ih => exact (ih spares.2 (f world)).after_silence (spares.1 world)
  | resolve kind name next ih =>
      exact (ih _ (spares _) _).after_silence (marks_resolve kind name world)
  | require kind name next ih =>
      exact (requireEvents_lead loads kind name world).trans (ih _ (spares _) _)

end Requiring

/-! ## Loading -/

theorem marks_updateExtension_attached (number : Nat) (world : World F H) :
    (world.updateExtension number fun e => { e with attached := true }).marks = world.marks := by
  apply List.ext_getElem?
  intro index
  simp only [marks, updateExtension, onApp, List.getElem?_map, List.getElem?_modify]
  cases world.app.extensions[index]? with
  | none => rfl
  | some extension =>
      by_cases same : number = index <;> simp [same]

theorem marks_updateExtension_loaded (number : Nat) (world : World F H) :
    (world.updateExtension number fun e => { e with loaded := true }).marks =
      world.marks.set number true := by
  apply List.ext_getElem?
  intro index
  simp only [marks, updateExtension, onApp, List.getElem?_map, List.getElem?_modify,
    List.getElem?_set]
  by_cases same : number = index
  · subst same
    rcases found : world.app.extensions[number]? with _ | extension
    · have outside := List.getElem?_eq_none_iff.1 found
      simp [Nat.not_lt.2 outside]
    · have inside := (List.getElem?_eq_some_iff.1 found).1
      simp [inside]
  · simp [same]

theorem marks_conclude (extension : Extension F) (stage : Stage)
    (outcome : Except Failure Unit × World F H) :
    (conclude extension stage outcome).2.marks = outcome.2.marks := by
  rcases outcome with ⟨failure | _, after⟩ <;> rfl

section Loading

variable {callbacks : Callbacks F H} {courses : F → Stage → Nat → HookCourse F H}
  (spare : callbacks.SpareMarks) (spares : ∀ name stage number, (courses name stage number).Spares)
include spare spares

/-- Loading an extension goes through its events, up to where it is marked as loaded or fails. -/
theorem runLoading_reaches {during : List Nat} {depth : Nat} {load : Nat → World F H → World F H}
    {events : Nat → World F H → List LoadEvent} {number : Nat}
    (loads : LoadsLead (number :: during) depth load events) (extension : Extension F)
    (world : World F H) {failed : List Nat}
    (sound : LoadState.Sound ⟨world.marks, failed, number :: during⟩)
    (bound : world.marks.length < (number :: during).length + depth)
    (acyclic : ∀ event ∈ loadingEvents callbacks courses load events number extension world,
      event.IsAcyclic) :
    let ended := runLoading (callbacks.following courses) ⟨resolve, requireWith load⟩ number
      extension world
    ∃ more, LoadState.Reaches ⟨world.marks, failed, number :: during⟩
      (loadingEvents callbacks courses load events number extension world)
        ⟨ended.2.marks, more,
          match ended.1 with
          | .ok _ => during
          | .error _ => number :: during⟩ ∧
      (failureOf ended.1 = none → ended.2.marks[number]? = some true) := by
  have attached := marks_updateExtension_attached number (world.note (.begins number))
  have subscribed := view_subscribeEach isClear_marks (spare.keep.following courses)
    (subscriptionsOf (callbacks.following courses) extension.role)
    ((world.note (.begins number)).updateExtension number fun e => { e with attached := true })
  unfold loadingEvents runLoading at *
  dsimp only at *
  generalize subscribeEach (callbacks.following courses)
    (subscriptionsOf (callbacks.following courses) extension.role)
    ((world.note (.begins number)).updateExtension number fun e => { e with attached := true }) =
      answer at subscribed acyclic ⊢
  rcases answer with ⟨failure | _, ready⟩
  · have kept : ready.marks = world.marks := subscribed.trans attached
    refine ⟨failed, ?_⟩
    dsimp only
    rw [kept]
    exact ⟨.refl _, nofun⟩
  · have kept : ready.marks = world.marks := subscribed.trans attached
    dsimp only at acyclic ⊢
    unfold hookEvents at acyclic ⊢
    dsimp only at acyclic ⊢
    rw [← kept] at sound bound ⊢
    rcases events_lead loads (HookCourse.ofRole_spares spare spares .load number extension.role)
      (ready.note (.runs number .load)) failed sound bound
      (fun event member => acyclic event
        (List.mem_cons_of_mem _ (List.mem_append_left _ member))) with ⟨more, reaches, -⟩
    have begins : LoadState.Step ⟨ready.marks, failed, number :: during⟩ (.runs number .load)
        ⟨ready.marks, failed, number :: during⟩ := .runs _ number .load fun _ => List.mem_cons_self
    rw [runHook, ownPart_following]
    generalize (HookCourse.ofRole callbacks courses .load number extension.role).run
      ⟨resolve, requireWith load⟩ (ready.note (.runs number .load)) = ended at reaches ⊢
    rcases ended with ⟨failure | _, after⟩
    · exact ⟨more, .step begins (reaches.trans (.single (.ran _ number .load _ nofun))), nofun⟩
    · have inside : number < after.marks.length :=
        (List.getElem?_eq_some_iff.1 ((reaches.sound sound fun event member => acyclic event
          (List.mem_cons_of_mem _ (List.mem_append_left _ member))).unloaded number
            List.mem_cons_self)).1
      refine ⟨more, .step begins (reaches.trans (.single ?_)), ?_⟩
      · dsimp only
        rw [marks_updateExtension_loaded]
        exact .succeeds after.marks more during number
      · dsimp only
        rw [marks_updateExtension_loaded, marks_note, List.getElem?_set_self inside]
        exact fun _ => rfl

omit spare spares in
theorem loadWithin_of_loaded (callbacks : Callbacks F H) (depth number : Nat)
    {extension : Extension F} (loaded : extension.loaded = true) (world : World F H) :
    loadWithin callbacks depth number extension world = (⟨extension.name, .load, none⟩, world) := by
  unfold loadWithin
  rw [if_pos loaded]

omit spare spares in
theorem loadWithin_of_unloaded (callbacks : Callbacks F H) (depth number : Nat)
    {extension : Extension F} (unloaded : extension.loaded = false) (world : World F H) :
    loadWithin callbacks (depth + 1) number extension world =
      let (outcome, world) := runLoading callbacks
        ⟨resolve, requireWith (loadAt callbacks depth)⟩ number extension world
      conclude extension .load (outcome, world.note (.ends number (failureOf outcome))) := by
  rw [loadWithin, if_neg (by simp [unloaded])]
  rfl

/-- Loading an extension leads where its events do. -/
theorem loadEvents_lead (depth : Nat) (during : List Nat) :
    LoadsLead during depth (loadAt (callbacks.following courses) depth)
      (loadEvents callbacks courses depth during) := by
  induction depth generalizing during with
  | zero =>
      -- There can not be more extensions on the way than there are.
      intro number world failed sound bound
      have limit : during.length ≤ world.marks.length := sound.length_during
      omega
  | succ depth ih =>
      intro number world
      unfold loadAt loadEvents
      rcases found : world.extension? number with _ | extension
      · exact .of_mark (by simp [getElem?_marks, found])
      · by_cases loaded : extension.loaded = true
        · dsimp only
          rw [if_pos loaded, loadWithin_of_loaded _ _ _ loaded]
          exact .of_mark (by simp [getElem?_marks, found, loaded])
        · have unloaded : extension.loaded = false := Bool.eq_false_iff.2 loaded
          have mark : world.marks[number]? = some false := by
            simp [getElem?_marks, found, unloaded]
          dsimp only
          rw [if_neg loaded, loadWithin_of_unloaded _ _ _ unloaded]
          dsimp only
          intro failed sound bound acyclic
          have begins := LoadState.Step.begins world.marks failed during number mark
          have isNew : number ∉ during := acyclic _ List.mem_cons_self
          rcases runLoading_reaches spare spares (ih (number :: during)) extension world
            (sound.step begins isNew) (by simp only [List.length_cons]; omega)
            (fun event member => acyclic event
              (List.mem_cons_of_mem _ (List.mem_append_left _ member))) with
            ⟨more, reaches, isLoaded⟩
          generalize runLoading (callbacks.following courses) _ number extension world = ended
            at reaches isLoaded ⊢
          rcases ended with ⟨failure | _, after⟩
          · have ends := LoadState.Step.fails after.marks more during number failure
            refine ⟨number :: more, .step begins (reaches.trans (.single ends)), ?_⟩
            intro other member loaded isMark
            exact .inr (List.mem_cons.2 (.inl (List.mem_singleton.1 member)))
          · have marked := isLoaded rfl
            have ends := LoadState.Step.ends ⟨after.marks, more, during⟩ number marked
            refine ⟨more, .step begins (reaches.trans (.single ends)), ?_⟩
            intro other member loaded isMark
            cases List.mem_singleton.1 member
            cases marked.symm.trans isMark
            exact .inl rfl

end Loading

end World

/-! ## What is noted -/

namespace World

/-- What was noted of starting up. -/
def notes (world : World F H) : List StartNote := world.app.notes

theorem isClear_notes : IsClear (notes : World F H → List StartNote) := by
  intro world other same
  have notes := congrArg App.notes same
  exact notes

theorem notes_note (entry : StartNote) (world : World F H) :
    (world.note entry).notes = world.notes ++ [entry] := by
  rfl

theorem notes_resolve (kind : DependencyKind) (name : String) (world : World F H) :
    (resolve kind name world).2.notes = world.notes := by
  unfold resolve
  split <;> rfl

theorem notes_conclude (extension : Extension F) (stage : Stage)
    (outcome : Except Failure Unit × World F H) :
    (conclude extension stage outcome).2.notes = outcome.2.notes := by
  rcases outcome with ⟨failure | _, after⟩ <;> rfl

/-- Loads that note their events. -/
def LoadsNote (load : Nat → World F H → World F H)
    (events : Nat → World F H → List LoadEvent) : Prop :=
  ∀ number world, (load number world).notes = world.notes ++ (events number world).map LoadEvent.note

section Noting

variable {load : Nat → World F H → World F H} {events : Nat → World F H → List LoadEvent}
  (loads : LoadsNote load events)
include loads

theorem notes_requireWith (kind : DependencyKind) (name : String) (world : World F H) :
    (requireWith load kind name world).2.notes =
      world.notes ++ (requireEvents load events kind name world).map LoadEvent.note := by
  unfold requireWith requireEvents
  rcases world.find? kind name with _ | number | value
  · exact (List.append_nil _).symm
  · have loaded := loads number world
    dsimp only
    rw [getElem?_marks]
    rcases (load number world).extension? number with _ | extension
    · simpa using loaded
    · simp [notes_note, loaded, LoadEvent.note]
  · exact (List.append_nil _).symm

theorem notes_course {course : HookCourse F H} (keeps : course.Keeps notes) (world : World F H) :
    (course.run ⟨resolve, requireWith load⟩ world).2.notes =
      world.notes ++ (course.events load events world).map LoadEvent.note := by
  induction course generalizing world with
  | done outcome => exact (List.append_nil _).symm
  | look next ih => exact ih world (keeps world) world
  | change f next ih =>
      have rest := ih keeps.2 (f world)
      rwa [keeps.1 world] at rest
  | resolve kind name next ih =>
      have rest := ih (resolve kind name world).1 (keeps _) (resolve kind name world).2
      rwa [notes_resolve] at rest
  | require kind name next ih =>
      have rest := ih (requireWith load kind name world).1 (keeps _)
        (requireWith load kind name world).2
      rw [notes_requireWith loads] at rest
      rw [HookCourse.events, List.map_append, ← List.append_assoc]
      exact rest

end Noting

section Loading

variable {callbacks : Callbacks F H} {courses : F → Stage → Nat → HookCourse F H}
  (keep : callbacks.Keep notes)
  (keeps : ∀ name stage number,
    (courses name stage number).Keeps (notes : World F H → List StartNote))
include keep keeps

theorem notes_runHook {load : Nat → World F H → World F H}
    {events : Nat → World F H → List LoadEvent} (loads : LoadsNote load events) (stage : Stage)
    (number : Nat) (role : Role F) (world : World F H) :
    (runHook (callbacks.following courses) ⟨resolve, requireWith load⟩ stage number role
      world).2.notes =
      world.notes ++ (hookEvents callbacks courses load events stage number role world).map
        LoadEvent.note := by
  have ran := notes_course loads
    (HookCourse.ofRole_keeps isClear_notes keep keeps stage number role)
    (world.note (.runs number stage))
  rw [runHook, ownPart_following]
  dsimp only
  rw [notes_note, ran, notes_note, hookEvents]
  simp [LoadEvent.note]

theorem notes_runLoading {load : Nat → World F H → World F H}
    {events : Nat → World F H → List LoadEvent} (loads : LoadsNote load events) (number : Nat)
    (extension : Extension F) (world : World F H) :
    (runLoading (callbacks.following courses) ⟨resolve, requireWith load⟩ number extension
      world).2.notes =
      world.notes ++ .begins number ::
        (loadingEvents callbacks courses load events number extension world).map LoadEvent.note := by
  have subscribed := view_subscribeEach isClear_notes (keep.following courses)
    (subscriptionsOf (callbacks.following courses) extension.role)
    ((world.note (.begins number)).updateExtension number fun e => { e with attached := true })
  unfold runLoading loadingEvents
  dsimp only
  generalize subscribeEach (callbacks.following courses)
    (subscriptionsOf (callbacks.following courses) extension.role)
    ((world.note (.begins number)).updateExtension number fun e => { e with attached := true }) =
      answer at subscribed ⊢
  rcases answer with ⟨failure | _, ready⟩
  · exact subscribed
  · have hooked := notes_runHook keep keeps loads .load number extension.role ready
    have begun : ready.notes = world.notes ++ [.begins number] := subscribed
    rw [begun, List.append_assoc] at hooked
    dsimp only
    generalize runHook (callbacks.following courses) _ .load number extension.role ready = ended
      at hooked ⊢
    rcases ended with ⟨failure | _, after⟩ <;> exact hooked

/-- Loading an extension notes its events. -/
theorem notes_loadAt (depth : Nat) (during : List Nat) :
    LoadsNote (loadAt (callbacks.following courses) depth)
      (loadEvents callbacks courses depth during) := by
  induction depth generalizing during with
  | zero =>
      intro number world
      unfold loadAt loadEvents
      rcases world.extension? number with _ | extension
      · exact (List.append_nil _).symm
      · dsimp only
        rw [loadWithin]
        split
        · exact (List.append_nil _).symm
        · exact (notes_conclude _ _ _).trans (List.append_nil _).symm
  | succ depth ih =>
      intro number world
      unfold loadAt loadEvents
      rcases world.extension? number with _ | extension
      · exact (List.append_nil _).symm
      · dsimp only
        by_cases loaded : extension.loaded = true
        · rw [if_pos loaded, loadWithin_of_loaded _ _ _ loaded]
          exact (List.append_nil _).symm
        · rw [if_neg loaded, loadWithin_of_unloaded _ _ _ (Bool.eq_false_iff.2 loaded)]
          have noted := notes_runLoading keep keeps (ih (number :: during)) number extension world
          dsimp only
          generalize runLoading (callbacks.following courses) _ number extension world = ended
            at noted ⊢
          rw [notes_conclude, notes_note, noted]
          rcases ended with ⟨failure | _, after⟩ <;> simp [LoadEvent.note, conclude, failureOf]

theorem notes_loadRequired :
    LoadsNote (loadRequired (callbacks.following courses)) (requiredEvents callbacks courses) := by
  intro number world
  exact notes_loadAt keep keeps (world.app.extensions.length + 1) [] number world

theorem notes_runOn (stage : Stage) {number : Nat} {extension : Extension F} {world : World F H}
    (found : world.extension? number = some extension) :
    (runOn (callbacks.following courses) stage number extension world).2.notes =
      world.notes ++ (stageEventsOf callbacks courses stage number extension world).map LoadEvent.note := by
  have hooked := fun stage => (notes_conclude extension stage _).trans
    (notes_runHook keep keeps (notes_loadRequired keep keeps) stage number extension.role world)
  cases stage with
  | load =>
      have noted := notes_loadRequired keep keeps number world
      rwa [loadRequired, found] at noted
  | postLoad => exact hooked .postLoad
  | ready => exact hooked .ready

theorem notes_runEach (stage : Stage) (policy : StagePolicy) (numbers : List Nat)
    (world : World F H) :
    (runEach (callbacks.following courses) stage policy numbers world).2.notes =
      world.notes ++ (stageEvents callbacks courses stage policy numbers world).map LoadEvent.note := by
  induction numbers generalizing world with
  | nil => exact (List.append_nil _).symm
  | cons number rest ih =>
      rw [runEach, stageEvents]
      rcases found : world.extension? number with _ | extension
      · exact ih world
      · have noted := notes_runOn keep keeps stage found
        dsimp only
        generalize runOn (callbacks.following courses) stage number extension world = ran
          at noted ⊢
        rcases ran with ⟨result, after⟩
        dsimp only at noted ⊢
        split
        · rw [List.append_nil]
          exact noted
        · dsimp only
          rw [ih after, noted, List.map_append, List.append_assoc]

end Loading

end World

namespace StartCall

section Noting

variable {callbacks : Callbacks F H} {courses : F → Stage → Nat → HookCourse F H}
  (keep : callbacks.Keep World.notes)
  (keeps : ∀ name stage number,
    (courses name stage number).Keeps (World.notes : World F H → List StartNote))
include keep keeps

theorem notes_run (call : StartCall) (world : World F H) :
    (call.run (callbacks.following courses) world).notes =
      world.notes ++ (call.events callbacks courses world).map LoadEvent.note := by
  cases call with
  | loadAll =>
      have noted := World.notes_runEach keep keeps .load (world.policy .load) world.extensions world
      unfold run events World.loadAll
      dsimp only
      generalize ran : World.runStage (callbacks.following courses) .load world = loaded
      rw [← World.runStage, ran] at noted
      rcases loaded with ⟨results, loaded⟩
      dsimp only at noted ⊢
      split
      · rw [List.append_nil]
        exact noted
      · have further := World.notes_runEach keep keeps .postLoad (loaded.policy .postLoad)
          loaded.extensions loaded
        rw [noted, List.append_assoc, ← List.map_append] at further
        exact further
  | runStage stage => exact World.notes_runEach keep keeps stage _ _ world
  | require kind name =>
      exact World.notes_requireWith (World.notes_loadRequired keep keeps) kind name world

/-- However an application is started, the events are what is noted of it. -/
theorem notes_runAll (calls : List StartCall) (world : World F H) :
    (runAll (callbacks.following courses) calls world).notes =
      world.notes ++ (allEvents callbacks courses calls world).map LoadEvent.note := by
  induction calls generalizing world with
  | nil => exact (List.append_nil _).symm
  | cons call rest ih =>
      have noted := ih (call.run (callbacks.following courses) world)
      rw [notes_run keep keeps, List.append_assoc, ← List.map_append] at noted
      exact noted

end Noting

end StartCall

/-! ## Beginning once and being handed out loaded -/

section Starting

variable {callbacks : Callbacks F H} {courses : F → Stage → Nat → HookCourse F H}
  (spare : callbacks.SpareMarks) (spares : ∀ name stage number, (courses name stage number).Spares)
include spare spares

namespace World

/-- What is required outside of any load has a chain of any length before it. -/
theorem requiredEvents_lead (depth : Nat) :
    LoadsLead [] depth (loadRequired (callbacks.following courses))
      (requiredEvents callbacks courses) := by
  intro number world failed sound bound acyclic
  have long : world.marks.length < ([] : List Nat).length + (world.app.extensions.length + 1) := by
    simp [marks]
  exact loadEvents_lead spare spares (world.app.extensions.length + 1) [] number world failed sound
    long acyclic

theorem stageEventsOf_lead (depth : Nat) (stage : Stage) {number : Nat} {extension : Extension F}
    {world : World F H} (found : world.extension? number = some extension) :
    Leads [] depth (stageEventsOf callbacks courses stage number extension world) [] world
      (runOn (callbacks.following courses) stage number extension world).2 := by
  have follows : ∀ stage, stage ≠ .load → Leads [] depth
      (hookEvents callbacks courses (loadRequired (callbacks.following courses))
        (requiredEvents callbacks courses) stage number extension.role world) []
      world (conclude extension stage (runHook (callbacks.following courses)
        ⟨resolve, require (callbacks.following courses)⟩ stage number extension.role world)).2 := by
    intro stage apart
    have leads := events_lead (requiredEvents_lead spare spares depth)
      (HookCourse.ofRole_spares spare spares stage number extension.role)
      (world.note (.runs number stage))
    rw [runHook, ownPart_following]
    exact ((leads.around number stage _ apart).after_silence rfl).then_silence
      (marks_conclude _ _ _)
  cases stage with
  | load =>
      have leads := requiredEvents_lead spare spares depth number world
      rw [loadRequired, found] at leads
      exact leads.forget
  | postLoad => exact follows .postLoad nofun
  | ready => exact follows .ready nofun

theorem stageEvents_lead (depth : Nat) (stage : Stage) (policy : StagePolicy) (numbers : List Nat)
    (world : World F H) :
    Leads [] depth (stageEvents callbacks courses stage policy numbers world) [] world
      (runEach (callbacks.following courses) stage policy numbers world).2 := by
  induction numbers generalizing world with
  | nil => exact .of_marks rfl
  | cons number rest ih =>
      rw [stageEvents, runEach]
      rcases found : world.extension? number with _ | extension
      · exact ih world
      · have leads := stageEventsOf_lead spare spares depth stage found
        dsimp only
        generalize runOn (callbacks.following courses) stage number extension world = ran
          at leads ⊢
        rcases ran with ⟨result, after⟩
        dsimp only
        split
        · rw [List.append_nil]
          exact leads.then_silence rfl
        · exact leads.trans (ih after)

end World

namespace StartCall

theorem stageEvents_lead (depth : Nat) (stage : Stage) (world : World F H) :
    Leads [] depth (stageEvents callbacks courses stage world) [] world
      (World.runStage (callbacks.following courses) stage world).2 := by
  exact World.stageEvents_lead spare spares depth stage _ _ world

/-- A call leads where its events do. -/
theorem events_lead (depth : Nat) (call : StartCall) (world : World F H) :
    Leads [] depth (call.events callbacks courses world) [] world
      (call.run (callbacks.following courses) world) := by
  cases call with
  | loadAll =>
      have leads := stageEvents_lead spare spares depth .load world
      unfold events run World.loadAll
      dsimp only
      generalize World.runStage (callbacks.following courses) .load world = loaded at leads ⊢
      rcases loaded with ⟨results, loaded⟩
      dsimp only
      split
      · rw [List.append_nil]
        exact leads
      · exact leads.trans (stageEvents_lead spare spares depth .postLoad loaded)
  | runStage stage => exact stageEvents_lead spare spares depth stage world
  | require kind name =>
      exact World.requireEvents_lead (World.requiredEvents_lead spare spares depth) kind name world

theorem allEvents_lead (depth : Nat) (calls : List StartCall) (world : World F H) :
    Leads [] depth (allEvents callbacks courses calls world) [] world
      (runAll (callbacks.following courses) calls world) := by
  induction calls generalizing world with
  | nil => exact .of_marks rfl
  | cons call rest ih => exact (events_lead spare spares depth call world).trans (ih _)

/-- However an application is started, its events lead to the marks that its extensions end with.
If no extension is loaded while it is being loaded, each of them begins to be loaded at most once
and is loaded whenever it is handed out exactly if none of them begins again or is handed out
after it failed to load. -/
theorem loads_once_iff (calls : List StartCall) (world : World F H)
    (acyclic : ∀ event ∈ allEvents callbacks courses calls world, event.IsAcyclic) :
    (∃ failed, LoadState.Reaches ⟨world.marks, [], []⟩ (allEvents callbacks courses calls world)
      ⟨(runAll (callbacks.following courses) calls world).marks, failed, []⟩) ∧
    (LoadsOnce (allEvents callbacks courses calls world) ↔
      (allEvents callbacks courses calls world).Pairwise LoadEvent.SparesFailed) := by
  have sound : LoadState.Sound ⟨world.marks, [], []⟩ := ⟨.nil, by simp⟩
  rcases allEvents_lead spare spares (world.marks.length + 1) calls world [] sound (by simp) acyclic
    with ⟨failed, reaches, -⟩
  exact ⟨⟨failed, reaches⟩, reaches.loadsOnce_iff acyclic⟩

end StartCall

end Starting

/-! ## A service that can not be loaded -/

namespace Outage

/-- A service that listens to one event. -/
def callbacks : Callbacks String Unit where
  parser _ scan world := (.outcome (.ok .null), scan.reader, world)
  lookup _ := return .null
  written _ := none
  assertion _ _ world := (.ok none, world)
  execute _ invocation := .done (.ok .nothing, invocation)
  goesOn _ := false
  listen _ _ _ := return .null
  observe _ _ world := (.ok (), world)
  mapper _ _ := .ok .null
  test _ _ _ world := (.ok .null, world)
  act _ _ _ _ := return .null
  told _ _ _ world := world
  subscriptions name := [("ping", name)]
  hook _ _ _ _ world := (.ok (), world)
  handle _ _ _ := return ()

def unavailable : Failure := .fault .notFound "unavailable"

/-- It fails whenever it is loaded. -/
def courses (_ : String) (stage : Stage) (_ : Nat) : HookCourse String Unit :=
  .done (if stage = .load then .error unavailable else .ok ())

def start : World String Unit :=
  (World.new () .standard []).addExtension (.new "Feed" none .service (.custom "feed"))

/-- It is loaded with everything else, and required later. -/
def calls : List StartCall := [.runStage .load, .require .service "Feed"]

theorem events_eq :
    StartCall.allEvents callbacks courses calls start =
      [.begins 0 [], .runs 0 .load, .ran 0 .load (some unavailable), .ends 0 (some unavailable),
        .begins 0 [], .runs 0 .load, .ran 0 .load (some unavailable), .ends 0 (some unavailable),
        .handed 0 false] := by
  rfl

theorem spare : callbacks.SpareMarks := by
  exact ⟨fun _ _ _ => rfl, fun _ _ _ _ => rfl⟩

theorem spares (name : String) (stage : Stage) (number : Nat) :
    (courses name stage number).Spares := by
  trivial

/-- A service that fails to load is loaded again when it is required, and listens twice. -/
theorem feed_listens_twice :
    (∀ event ∈ StartCall.allEvents callbacks courses calls start, event.IsAcyclic) ∧
      ¬ LoadsOnce (StartCall.allEvents callbacks courses calls start) ∧
      ((StartCall.runAll (callbacks.following courses) calls start).bus.listenersOf "ping").length =
        2 := by
  have acyclic : ∀ event ∈ StartCall.allEvents callbacks courses calls start, event.IsAcyclic := by
    rw [events_eq]
    simp [LoadEvent.IsAcyclic]
  have once_iff :=
    (StartCall.loads_once_iff spare spares calls start acyclic).2
  refine ⟨acyclic, ?_, rfl⟩
  rw [once_iff, events_eq]
  intro later
  have fromEnd := later.sublist (List.drop_sublist 3 _)
  exact (List.pairwise_cons.1 fromEnd).1 (.begins 0 []) (by simp) 0 unavailable rfl rfl

end Outage

end Steward
