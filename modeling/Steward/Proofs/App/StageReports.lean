import Mathlib.Data.List.Induction
import Steward.Proofs.App.Starting
import Steward.Proofs.OrderedMap

/-!
# What the stages report

A stage gives every extension its turn, and a result for it.  Extensions load each other out of
order when they require each other, so an extension may be loaded long before its turn, and
others may be loaded during it.  Still the result of its turn in loading tells whether it is
loaded then.

The list of results is cut where the policy of the stage says so, and nothing that extensions
do of their own changes who has a turn after whom.  An extension that was loaded stays loaded,
so it does not begin to be loaded again whatever calls follow.
-/

namespace Steward

variable {F H : Type}

/-! ## Who is there -/

/-- Which extensions there are, and what becomes of a stage when they fail in it. -/
structure Lineup where
  names : List String
  services : OrderedMap String Nat
  modules : OrderedMap String Nat
  policies : List (Stage × StagePolicy)

/-- Which extensions there are and are loaded, and what is noted of starting up. -/
structure Standing where
  marks : List Bool
  lineup : Lineup
  notes : List StartNote

namespace World

def lineup (world : World F H) : Lineup :=
  ⟨world.app.extensions.map (·.name), world.app.services, world.app.modules, world.app.policies⟩

def standing (world : World F H) : Standing := ⟨world.marks, world.lineup, world.notes⟩

theorem isClear_lineup : IsClear (lineup : World F H → Lineup) := by
  intro world other same
  exact congrArg
    (fun app => (⟨app.extensions.map (·.name), app.services, app.modules, app.policies⟩ : Lineup))
    same

/-- The services come before the modules. -/
theorem extensions_of_lineup {world : World F H} {names : List String}
    {services modules : OrderedMap String Nat} {policies : List (Stage × StagePolicy)}
    (lineup : world.lineup = ⟨names, services, modules, policies⟩) :
    world.extensions = services.values ++ modules.values := by
  have isServices : world.app.services = services := congrArg Lineup.services lineup
  have isModules : world.app.modules = modules := congrArg Lineup.modules lineup
  rw [← isServices, ← isModules]
  rfl

theorem policy_of_lineup {world other : World F H} (same : other.lineup = world.lineup)
    (stage : Stage) : other.policy stage = world.policy stage := by
  have policies : other.app.policies = world.app.policies := congrArg Lineup.policies same
  unfold policy
  rw [policies]

theorem getElem?_names (number : Nat) (world : World F H) :
    world.lineup.names[number]? = (world.extension? number).map (·.name) := by
  exact List.getElem?_map

theorem lineup_updateExtension (number : Nat) {f : Extension F → Extension F}
    (named : ∀ extension, (f extension).name = extension.name) (world : World F H) :
    (world.updateExtension number f).lineup = world.lineup := by
  have names : (world.updateExtension number f).app.extensions.map (·.name) =
      world.app.extensions.map (·.name) := by
    apply List.ext_getElem?
    intro index
    simp only [updateExtension, onApp, List.getElem?_map, List.getElem?_modify]
    cases world.app.extensions[index]? with
    | none => rfl
    | some extension =>
        by_cases same : number = index <;> simp [same, named]
  exact congrArg
    (fun names => (⟨names, world.app.services, world.app.modules, world.app.policies⟩ : Lineup))
    names

/-- The names and numbers of the extensions of a kind, in the order in which they are added. -/
def numbered (kind : ExtensionKind) (extensions : List (Extension F)) : List (String × Nat) :=
  (extensions.zipIdx.filter (·.1.kind == kind)).map fun entry => (entry.1.name, entry.2)

def addExtensions (extensions : List (Extension F)) (world : World F H) : World F H :=
  extensions.foldl (fun world extension => world.addExtension extension) world

theorem numbered_concat (kind : ExtensionKind) (extensions : List (Extension F))
    (extension : Extension F) :
    numbered kind (extensions ++ [extension]) =
      numbered kind extensions ++
        if extension.kind = kind then [(extension.name, extensions.length)] else [] := by
  unfold numbered
  rw [List.zipIdx_append, List.filter_append, List.map_append]
  congr 1
  by_cases same : extension.kind = kind <;> simp [same]

theorem number_lt {kind : ExtensionKind} {extensions : List (Extension F)} {number : Nat}
    (member : number ∈ (numbered kind extensions).map Prod.snd) : number < extensions.length := by
  rcases List.mem_map.1 member with ⟨entry, isEntry, rfl⟩
  rcases List.mem_map.1 isEntry with ⟨extension, isIndexed, rfl⟩
  have indexed := List.mem_zipIdx (List.mem_filter.1 isIndexed).1
  exact Nat.zero_add extensions.length ▸ indexed.2.1

theorem notes_addExtensions (extensions : List (Extension F)) (world : World F H) :
    (world.addExtensions extensions).notes = world.notes := by
  unfold addExtensions
  induction extensions generalizing world with
  | nil => rfl
  | cons extension rest ih =>
      have kept : (world.addExtension extension).notes = world.notes := by
        unfold addExtension onApp notes
        cases extension.kind <;> rfl
      exact (ih _).trans kept

/-- Where no extension was before, extensions are there under their names once they are added. -/
theorem lineup_addExtensions {world : World F H} {policies : List (Stage × StagePolicy)}
    (vacant : world.lineup = ⟨[], .empty, .empty, policies⟩) (extensions : List (Extension F)) :
    (world.addExtensions extensions).lineup =
      ⟨extensions.map (·.name), .ofList (numbered .service extensions),
        .ofList (numbered .module extensions), policies⟩ := by
  induction extensions using List.reverseRecOn with
  | nil => exact vacant
  | append_singleton earlier extension ih =>
      have added : world.addExtensions (earlier ++ [extension]) =
          (world.addExtensions earlier).addExtension extension := List.foldl_concat ..
      have count : (world.addExtensions earlier).app.extensions.length = earlier.length := by
        have lengths := congrArg (fun lineup => lineup.names.length) ih
        simpa [lineup] using lengths
      rw [added, numbered_concat, numbered_concat]
      injection ih with names services modules policies
      rcases kindly : extension.kind with _ | _ <;>
        simp [addExtension, onApp, lineup, kindly, names, services, modules, policies, count,
          OrderedMap.ofList_concat]

/-! ## Nobody comes or goes -/

section Keeping

variable {callbacks : Callbacks F H} {courses : F → Stage → Nat → HookCourse F H}

theorem lineup_resolve (kind : DependencyKind) (name : String) (world : World F H) :
    (resolve kind name world).2.lineup = world.lineup := by
  unfold resolve
  split <;> rfl

theorem lineup_conclude (extension : Extension F) (stage : Stage)
    (outcome : Except Failure Unit × World F H) :
    (conclude extension stage outcome).2.lineup = outcome.2.lineup := by
  rcases outcome with ⟨failure | _, after⟩ <;> rfl

section Loads

variable {load : Nat → World F H → World F H}
  (loads : ∀ number world, (load number world).lineup = world.lineup)
include loads

theorem lineup_requireWith (kind : DependencyKind) (name : String) (world : World F H) :
    (requireWith load kind name world).2.lineup = world.lineup := by
  unfold requireWith
  split
  · rfl
  · dsimp only
    split <;> exact loads _ world
  · rfl

theorem lineup_course {course : HookCourse F H} (kept : course.Keeps lineup) (world : World F H) :
    (course.run ⟨resolve, requireWith load⟩ world).2.lineup = world.lineup := by
  induction course generalizing world with
  | done outcome => rfl
  | look next ih => exact ih world (kept world) world
  | change f next ih => exact (ih kept.2 _).trans (kept.1 world)
  | resolve kind name next ih =>
      exact (ih _ (kept _) _).trans (lineup_resolve kind name world)
  | require kind name next ih =>
      exact (ih _ (kept _) _).trans (lineup_requireWith loads kind name world)

end Loads

variable (keep : callbacks.Keep lineup)
  (keeps : ∀ name stage number, (courses name stage number).Keeps (lineup : World F H → Lineup))
include keep keeps

theorem lineup_runHook {load : Nat → World F H → World F H}
    (loads : ∀ number world, (load number world).lineup = world.lineup) (stage : Stage)
    (number : Nat) (role : Role F) (world : World F H) :
    (runHook (callbacks.following courses) ⟨resolve, requireWith load⟩ stage number role
      world).2.lineup = world.lineup := by
  rw [runHook, ownPart_following]
  exact lineup_course loads
    (HookCourse.ofRole_keeps isClear_lineup keep keeps stage number role)
    (world.note (.runs number stage))

theorem lineup_runLoading {load : Nat → World F H → World F H}
    (loads : ∀ number world, (load number world).lineup = world.lineup) (number : Nat)
    (extension : Extension F) (world : World F H) :
    (runLoading (callbacks.following courses) ⟨resolve, requireWith load⟩ number extension
      world).2.lineup = world.lineup := by
  have attached := lineup_updateExtension number
    (f := fun e => { e with attached := true }) (fun _ => rfl) (world.note (.begins number))
  have subscribed := view_subscribeEach isClear_lineup (keep.following courses)
    (subscriptionsOf (callbacks.following courses) extension.role)
    ((world.note (.begins number)).updateExtension number fun e => { e with attached := true })
  unfold runLoading
  dsimp only
  generalize subscribeEach (callbacks.following courses)
    (subscriptionsOf (callbacks.following courses) extension.role)
    ((world.note (.begins number)).updateExtension number fun e => { e with attached := true }) =
      answer at subscribed ⊢
  rcases answer with ⟨failure | _, ready⟩
  · exact subscribed.trans attached
  · have hooked := lineup_runHook keep keeps loads .load number extension.role ready
    dsimp only
    generalize runHook (callbacks.following courses) _ .load number extension.role ready = ended
      at hooked ⊢
    rcases ended with ⟨failure | _, after⟩
    · exact hooked.trans (subscribed.trans attached)
    · exact (lineup_updateExtension number (f := fun e => { e with loaded := true })
        (fun _ => rfl) after).trans (hooked.trans (subscribed.trans attached))

theorem lineup_loadWithin (depth number : Nat) (extension : Extension F) (world : World F H) :
    (loadWithin (callbacks.following courses) depth number extension world).2.lineup =
      world.lineup := by
  induction depth generalizing number extension world with
  | zero =>
      unfold loadWithin
      split
      · rfl
      · exact lineup_conclude _ _ _
  | succ depth ih =>
      by_cases loaded : extension.loaded = true
      · rw [loadWithin_of_loaded _ _ _ loaded]
      · have loads : ∀ number world,
            (loadAt (callbacks.following courses) depth number world).lineup =
              (world : World F H).lineup := by
          intro number world
          unfold loadAt
          split
          · exact ih _ _ _
          · rfl
        rw [loadWithin_of_unloaded _ _ _ (Bool.eq_false_iff.2 loaded)]
        exact (lineup_conclude _ _ _).trans
          (lineup_runLoading keep keeps loads number extension world)

theorem lineup_loadRequired (number : Nat) (world : World F H) :
    (loadRequired (callbacks.following courses) number world).lineup = world.lineup := by
  unfold loadRequired
  split
  · exact lineup_loadWithin keep keeps _ _ _ _
  · rfl

theorem lineup_runOn (stage : Stage) (number : Nat) (extension : Extension F) (world : World F H) :
    (runOn (callbacks.following courses) stage number extension world).2.lineup =
      world.lineup := by
  have hooked := fun stage => (lineup_conclude extension stage _).trans
    (lineup_runHook keep keeps (lineup_loadRequired keep keeps) stage number extension.role world)
  cases stage with
  | load => exact lineup_loadWithin keep keeps _ _ _ _
  | postLoad => exact hooked .postLoad
  | ready => exact hooked .ready

theorem lineup_runEach (stage : Stage) (policy : StagePolicy) (numbers : List Nat)
    (world : World F H) :
    (runEach (callbacks.following courses) stage policy numbers world).2.lineup =
      world.lineup := by
  induction numbers generalizing world with
  | nil => rfl
  | cons number rest ih =>
      rw [runEach]
      split
      · exact ih world
      · rename_i extension _
        have ran := lineup_runOn keep keeps stage number extension world
        dsimp only
        split
        · exact ran
        · exact (ih _).trans ran

theorem lineup_runStage (stage : Stage) (world : World F H) :
    (runStage (callbacks.following courses) stage world).2.lineup = world.lineup := by
  exact lineup_runEach keep keeps stage _ _ world

end Keeping

end World

/-- No call changes who is there. -/
theorem StartCall.lineup_run {callbacks : Callbacks F H}
    {courses : F → Stage → Nat → HookCourse F H} (keep : callbacks.Keep World.lineup)
    (keeps : ∀ name stage number, (courses name stage number).Keeps World.lineup)
    (call : StartCall) (world : World F H) :
    (call.run (callbacks.following courses) world).lineup = world.lineup := by
  have staged := fun stage => World.lineup_runStage keep keeps stage world
  cases call with
  | loadAll =>
      unfold run World.loadAll
      dsimp only
      split
      · exact staged .load
      · exact (World.lineup_runStage keep keeps .postLoad _).trans (staged .load)
  | runStage stage => exact staged stage
  | require kind name =>
      exact World.lineup_requireWith (World.lineup_loadRequired keep keeps) kind name world

theorem StartCall.lineup_runAll {callbacks : Callbacks F H}
    {courses : F → Stage → Nat → HookCourse F H} (keep : callbacks.Keep World.lineup)
    (keeps : ∀ name stage number, (courses name stage number).Keeps World.lineup)
    (calls : List StartCall) (world : World F H) :
    (runAll (callbacks.following courses) calls world).lineup = world.lineup := by
  induction calls generalizing world with
  | nil => rfl
  | cons call rest ih => exact (ih _).trans (lineup_run keep keeps call world)

/-! ## Turns -/

/-- The turn of an extension in a stage. -/
structure StageTurn (F H : Type) where
  number : Nat
  before : World F H
  result : StageResult
  after : World F H

namespace StageTurn

def failed (turn : StageTurn F H) : Bool := turn.result.failure.isSome

/-- What is noted in a turn. -/
def notes (turn : StageTurn F H) : List StartNote :=
  turn.after.notes.drop turn.before.notes.length

/-- The notes of an extension's own part of a stage, around those of what it requires.  It ends as
the result says. -/
def part (turn : StageTurn F H) (stage : Stage) (inner : List StartNote) : List StartNote :=
  .runs turn.number stage :: (inner ++ [.ran turn.number stage turn.result.failure])

/-- The result of a turn is how the extension's own part of the stage ended, which ran in the turn.
Only in loading it does not run if the extension is loaded, which is no failure, or if its
listeners can not be subscribed, which is one. -/
def Tells (stage : Stage) (turn : StageTurn F H) : Prop :=
  match stage with
  | .load =>
    turn.before.marks[turn.number]? = some true ∧ turn.notes = [] ∧
        turn.result.failure = none ∨
      turn.before.marks[turn.number]? = some false ∧ ∃ own,
        turn.notes = .begins turn.number :: (own ++ [.ends turn.number turn.result.failure]) ∧
        (own = [] ∧ turn.result.failure ≠ none ∨ ∃ inner, own = turn.part .load inner)
  | stage => ∃ inner, turn.notes = turn.part stage inner ∧ ∀ number, .runs number stage ∉ inner

end StageTurn

/-- What there is of a stage if the first failure ends it where the policy says so. -/
def StagePolicy.cut {α : Type} (policy : StagePolicy) (failed : α → Bool) (list : List α) :
    List α :=
  match policy with
  | .abort => list.take (list.findIdx failed + 1)
  | .proceed => list

theorem StagePolicy.cut_nil {α : Type} (policy : StagePolicy) (failed : α → Bool) :
    policy.cut failed [] = [] := by
  cases policy <;> rfl

theorem StagePolicy.cut_cons {α : Type} (policy : StagePolicy) (failed : α → Bool) (first : α)
    (rest : List α) :
    policy.cut failed (first :: rest) =
      first :: if failed first && policy == .abort then [] else policy.cut failed rest := by
  cases policy with
  | abort => cases fails : failed first <;> simp [cut, List.findIdx_cons, fails]
  | proceed => cases failed first <;> rfl

namespace World

/-- The turns of some extensions in a stage that goes on whatever fails. -/
def turns (callbacks : Callbacks F H) (stage : Stage) :
    List Nat → World F H → List (StageTurn F H)
  | [], _ => []
  | number :: rest, world =>
    match world.extension? number with
    | none => turns callbacks stage rest world
    | some extension =>
      match runOn callbacks stage number extension world with
      | (result, after) => ⟨number, world, result, after⟩ :: turns callbacks stage rest after

/-- The results of a stage are those of its turns. -/
theorem results_runEach (callbacks : Callbacks F H) (stage : Stage) (policy : StagePolicy)
    (numbers : List Nat) (world : World F H) :
    (runEach callbacks stage policy numbers world).1 =
      (policy.cut StageTurn.failed (turns callbacks stage numbers world)).map (·.result) := by
  induction numbers generalizing world with
  | nil => rw [turns, StagePolicy.cut_nil]; rfl
  | cons number rest ih =>
      rw [runEach, turns]
      rcases world.extension? number with _ | extension
      · exact ih world
      · dsimp only
        rw [StagePolicy.cut_cons, List.map_cons, StageTurn.failed]
        dsimp only
        split
        · rfl
        · exact congrArg _ (ih _)

theorem result_loadWithin (callbacks : Callbacks F H) (depth number : Nat)
    (extension : Extension F) (world : World F H) :
    (loadWithin callbacks depth number extension world).1.extension = extension.name ∧
      (loadWithin callbacks depth number extension world).1.stage = .load := by
  have concluded : ∀ outcome : Except Failure Unit × World F H,
      (conclude extension .load outcome).1.extension = extension.name ∧
        (conclude extension .load outcome).1.stage = .load := by
    rintro ⟨failure | _, after⟩ <;> exact ⟨rfl, rfl⟩
  unfold loadWithin
  split
  · exact ⟨rfl, rfl⟩
  · cases depth <;> exact concluded _

/-- A result tells whose it is, and of which stage. -/
theorem result_runOn (callbacks : Callbacks F H) (stage : Stage) (number : Nat)
    (extension : Extension F) (world : World F H) :
    (runOn callbacks stage number extension world).1.extension = extension.name ∧
      (runOn callbacks stage number extension world).1.stage = stage := by
  have concluded : ∀ stage, ∀ outcome : Except Failure Unit × World F H,
      (conclude extension stage outcome).1.extension = extension.name ∧
        (conclude extension stage outcome).1.stage = stage := by
    rintro stage ⟨failure | _, after⟩ <;> exact ⟨rfl, rfl⟩
  cases stage with
  | load => exact result_loadWithin callbacks _ number extension world
  | postLoad => exact concluded .postLoad _
  | ready => exact concluded .ready _

section Turns

variable {callbacks : Callbacks F H} {courses : F → Stage → Nat → HookCourse F H}

section Lineup

variable (keep : callbacks.Keep lineup)
  (keeps : ∀ name stage number, (courses name stage number).Keeps (lineup : World F H → Lineup))
include keep keeps

/-- Everyone has a turn. -/
theorem numbers_turns (stage : Stage) {numbers : List Nat} {world : World F H}
    (there : ∀ number ∈ numbers, number < world.lineup.names.length) :
    (turns (callbacks.following courses) stage numbers world).map (·.number) = numbers := by
  induction numbers generalizing world with
  | nil => rfl
  | cons number rest ih =>
      have isThere := there number List.mem_cons_self
      rw [turns]
      rcases found : world.extension? number with _ | extension
      · have missing := getElem?_names number world
        rw [found, Option.map_none, List.getElem?_eq_none_iff] at missing
        omega
      · have ran := lineup_runOn keep keeps stage number extension world
        dsimp only
        generalize runOn (callbacks.following courses) stage number extension world = turn at ran ⊢
        refine congrArg (number :: ·) (ih fun other member => ?_)
        rw [ran]
        exact there other (List.mem_cons_of_mem _ member)

/-- The result of a turn bears the name that the extension was registered under. -/
theorem named_turns (stage : Stage) (numbers : List Nat) (world : World F H) :
    ∀ turn ∈ turns (callbacks.following courses) stage numbers world,
      turn.result.stage = stage ∧
        world.lineup.names[turn.number]? = some turn.result.extension := by
  induction numbers generalizing world with
  | nil => simp [turns]
  | cons number rest ih =>
      rw [turns]
      rcases found : world.extension? number with _ | extension
      · exact ih world
      · have ran := lineup_runOn keep keeps stage number extension world
        have named := result_runOn (callbacks.following courses) stage number extension world
        dsimp only
        generalize runOn (callbacks.following courses) stage number extension world = ended
          at ran named ⊢
        intro turn member
        rcases List.mem_cons.1 member with rfl | member
        · refine ⟨named.2, ?_⟩
          rw [getElem?_names, found, named.1]
          rfl
        · rw [← ran]
          exact ih _ turn member

end Lineup

variable (spare : callbacks.SpareMarks)
  (spares : ∀ name stage number, (courses name stage number).Spares)
include spare spares

/-- Loading an extension succeeds exactly if the extension is loaded in the end, when nothing goes
in a circle. -/
theorem loadExtension_succeeds_iff {number : Nat} {extension : Extension F} {world : World F H}
    (found : world.extension? number = some extension)
    (acyclic : ∀ event ∈ requiredEvents callbacks courses number world, event.IsAcyclic) :
    (loadExtension (callbacks.following courses) number extension world).1.failure = none ↔
      (loadExtension (callbacks.following courses) number extension world).2.marks[number]? =
        some true := by
  unfold loadExtension
  by_cases loaded : extension.loaded = true
  · rw [loadWithin_of_loaded _ _ _ loaded, getElem?_marks, found]
    simp [loaded]
  · have unloaded : extension.loaded = false := Bool.eq_false_iff.2 loaded
    rw [loadWithin_of_unloaded _ _ _ unloaded]
    have mark : world.marks[number]? = some false := by
      simp [getElem?_marks, found, unloaded]
    have onward : ∀ event ∈ loadingEvents callbacks courses
        (loadAt (callbacks.following courses) world.app.extensions.length)
        (loadEvents callbacks courses world.app.extensions.length [number]) number extension world,
        event.IsAcyclic := by
      intro event member
      refine acyclic event ?_
      rw [requiredEvents, loadEvents, found]
      dsimp only
      rw [if_neg loaded]
      exact List.mem_cons_of_mem _ (List.mem_append_left _ member)
    have sound : LoadState.Sound ⟨world.marks, [], [number]⟩ := ⟨by simp, by simpa⟩
    rcases runLoading_reaches spare spares
      (loadEvents_lead spare spares world.app.extensions.length [number]) extension world sound
      (by simp [marks]) onward with ⟨more, reaches, isLoaded⟩
    have soundThen := reaches.sound sound onward
    dsimp only
    generalize runLoading (callbacks.following courses) _ number extension world = ended
      at isLoaded soundThen ⊢
    rw [marks_conclude, marks_note]
    rcases ended with ⟨failure | _, after⟩
    · -- An extension is not marked by others while it is being loaded.
      rw [soundThen.unloaded number List.mem_cons_self]
      simp [conclude]
    · rw [isLoaded rfl]
      simp [conclude]

/-- The result of a turn in loading tells whether the extension is loaded when its turn ends. -/
theorem loaded_turns (policy : StagePolicy) (numbers : List Nat) (world : World F H)
    (acyclic : ∀ event ∈ stageEvents callbacks courses .load policy numbers world,
      event.IsAcyclic) :
    ∀ turn ∈ policy.cut StageTurn.failed (turns (callbacks.following courses) .load numbers world),
      turn.result.failure = none ↔ turn.after.marks[turn.number]? = some true := by
  induction numbers generalizing world with
  | nil => simp [turns, StagePolicy.cut_nil]
  | cons number rest ih =>
      rw [turns]
      rw [stageEvents] at acyclic
      rcases found : world.extension? number with _ | extension
      · rw [found] at acyclic
        exact ih world acyclic
      · rw [found] at acyclic
        dsimp only at acyclic ⊢
        rw [StagePolicy.cut_cons]
        intro turn member
        rcases List.mem_cons.1 member with rfl | member
        · exact loadExtension_succeeds_iff spare spares found
            fun event member => acyclic event (List.mem_append_left _ member)
        · rw [StageTurn.failed] at member
          dsimp only at member
          split at member
          · simp at member
          · rename_i goesOn
            rw [if_neg goesOn] at acyclic
            exact ih _ (fun event member => acyclic event (List.mem_append_right _ member)) turn
              member

end Turns

end World

/-! ## What a turn tells -/

/-- No extension's own part of a later stage runs in loading. -/
def OnlyLoads (events : List LoadEvent) : Prop :=
  ∀ number stage, .runs number stage ∈ events → stage = .load

theorem World.requireEvents_onlyLoads {load : Nat → World F H → World F H}
    {events : Nat → World F H → List LoadEvent}
    (only : ∀ number world, OnlyLoads (events number world)) (kind : DependencyKind)
    (name : String) (world : World F H) : OnlyLoads (requireEvents load events kind name world) := by
  unfold requireEvents
  split
  · intro number stage member
    rcases List.mem_append.1 member with isLoad | isHanded
    · exact only _ world number stage isLoad
    · rcases List.mem_map.1 isHanded with ⟨_, _, absurdity⟩
      cases absurdity
  · simp [OnlyLoads]

theorem HookCourse.events_onlyLoads {load : Nat → World F H → World F H}
    {events : Nat → World F H → List LoadEvent}
    (only : ∀ number world, OnlyLoads (events number world)) (course : HookCourse F H)
    (world : World F H) : OnlyLoads (course.events load events world) := by
  induction course generalizing world with
  | done outcome => simp [OnlyLoads, HookCourse.events]
  | look next ih => exact ih world world
  | change f next ih => exact ih (f world)
  | resolve kind name next ih => exact ih _ _
  | require kind name next ih =>
      intro number stage member
      rcases List.mem_append.1 member with required | rest
      · exact World.requireEvents_onlyLoads only kind name world number stage required
      · exact ih _ _ number stage rest

namespace World

section Telling

variable {callbacks : Callbacks F H} {courses : F → Stage → Nat → HookCourse F H}

/-- The result of a load is how the extension's own part ended, if that ran. -/
theorem loadingEvents_cases (callbacks : Callbacks F H)
    (courses : F → Stage → Nat → HookCourse F H) (load : Nat → World F H → World F H)
    (events : Nat → World F H → List LoadEvent) (number : Nat) (extension : Extension F)
    (world : World F H) :
    let loading := loadingEvents callbacks courses load events number extension world
    let failure := failureOf (runLoading (callbacks.following courses)
      ⟨resolve, requireWith load⟩ number extension world).1
    loading = [] ∧ failure ≠ none ∨
      ∃ (ready : World F H),
        loading = .runs number .load ::
          ((HookCourse.ofRole callbacks courses .load number extension.role).events load events
            (ready.note (.runs number .load)) ++ [.ran number .load failure]) := by
  unfold loadingEvents runLoading
  dsimp only
  generalize subscribeEach (callbacks.following courses)
    (subscriptionsOf (callbacks.following courses) extension.role)
    ((world.note (.begins number)).updateExtension number fun e => { e with attached := true }) =
      answer
  rcases answer with ⟨failure | _, ready⟩
  · exact .inl ⟨rfl, nofun⟩
  · refine .inr ⟨ready, ?_⟩
    dsimp only
    rw [hookEvents, runHook, ownPart_following]
    generalize (HookCourse.ofRole callbacks courses .load number extension.role).run
      ⟨resolve, requireWith load⟩ (ready.note (.runs number .load)) = ended
    rcases ended with ⟨failure | _, after⟩ <;> rfl

theorem loadEvents_onlyLoads (depth : Nat) (during : List Nat) (number : Nat)
    (world : World F H) : OnlyLoads (loadEvents callbacks courses depth during number world) := by
  induction depth generalizing during number world with
  | zero => simp [OnlyLoads, loadEvents]
  | succ depth ih =>
      intro other stage member
      rw [loadEvents] at member
      rcases found : world.extension? number with _ | extension
      · rw [found] at member
        cases member
      · rw [found] at member
        dsimp only at member
        split at member
        · cases member
        · rcases List.mem_cons.1 member with isBegin | member
          · cases isBegin
          · rcases List.mem_append.1 member with isLoading | isEnd
            · rcases loadingEvents_cases callbacks courses
                (loadAt (callbacks.following courses) depth)
                (loadEvents callbacks courses depth (number :: during)) number extension world with
                ⟨silent, -⟩ | ⟨ready, runs⟩
              · rw [silent] at isLoading
                cases isLoading
              · rw [runs] at isLoading
                rcases List.mem_cons.1 isLoading with same | isLoading
                · cases same
                  rfl
                · rcases List.mem_append.1 isLoading with inner | isRan
                  · exact HookCourse.events_onlyLoads (ih (number :: during)) _ _ other stage inner
                  · cases List.mem_singleton.1 isRan
            · cases List.mem_singleton.1 isEnd

theorem failure_conclude (extension : Extension F) (stage : Stage)
    (outcome : Except Failure Unit × World F H) :
    (conclude extension stage outcome).1.failure = failureOf outcome.1 := by
  rcases outcome with ⟨failure | _, after⟩ <;> rfl

variable (keep : callbacks.Keep notes)
  (keeps : ∀ name stage number,
    (courses name stage number).Keeps (notes : World F H → List StartNote))
include keep keeps

/-- A turn notes its events. -/
theorem notes_turn (stage : Stage) {number : Nat} {extension : Extension F} {world : World F H}
    (found : world.extension? number = some extension) :
    let ran := runOn (callbacks.following courses) stage number extension world
    StageTurn.notes ⟨number, world, ran.1, ran.2⟩ =
      (stageEventsOf callbacks courses stage number extension world).map LoadEvent.note := by
  dsimp only
  rw [StageTurn.notes, notes_runOn keep keeps stage found, List.drop_left]

omit keep keeps in
theorem part_of_hookEvents {turn : StageTurn F H} {stage : Stage} (apart : stage ≠ .load)
    {role : Role F} {world : World F H}
    (noted : turn.notes =
      (hookEvents callbacks courses (loadRequired (callbacks.following courses))
        (requiredEvents callbacks courses) stage turn.number role world).map LoadEvent.note)
    (result : turn.result.failure = failureOf (runHook (callbacks.following courses)
      ⟨resolve, require (callbacks.following courses)⟩ stage turn.number role world).1) :
    ∃ inner, turn.notes = turn.part stage inner ∧ ∀ number, .runs number stage ∉ inner := by
  rw [runHook, ownPart_following] at result
  refine ⟨((HookCourse.ofRole callbacks courses stage turn.number role).events
    (loadRequired (callbacks.following courses)) (requiredEvents callbacks courses)
    (world.note (.runs turn.number stage))).map LoadEvent.note, ?_, ?_⟩
  · rw [noted, StageTurn.part, result, hookEvents, List.map_cons, List.map_append]
    rfl
  · intro number member
    rcases List.mem_map.1 member with ⟨event, isEvent, same⟩
    cases event with
    | runs other another =>
        cases same
        exact apart (HookCourse.events_onlyLoads
          (fun number world => loadEvents_onlyLoads _ [] number world) _ _ _ _ isEvent)
    | begins | ran | ends | handed => cases same

/-- What is noted in a turn tells its result. -/
theorem tells_turn (stage : Stage) {number : Nat} {extension : Extension F} {world : World F H}
    (found : world.extension? number = some extension) :
    let ran := runOn (callbacks.following courses) stage number extension world
    StageTurn.Tells stage ⟨number, world, ran.1, ran.2⟩ := by
  have noted := notes_turn keep keeps stage found
  cases stage with
  | load =>
      have mark : world.marks[number]? = some extension.loaded := by
        rw [getElem?_marks, found, Option.map_some]
      unfold stageEventsOf requiredEvents loadEvents at noted
      rw [found] at noted
      dsimp only at noted ⊢
      by_cases loaded : extension.loaded = true
      · rw [if_pos loaded] at noted
        refine .inl ⟨mark.trans (congrArg some loaded), noted, ?_⟩
        dsimp only
        rw [runOn, loadExtension, loadWithin_of_loaded _ _ _ loaded]
      · have unloaded : extension.loaded = false := Bool.eq_false_iff.2 loaded
        rw [if_neg loaded, List.map_cons, List.map_append] at noted
        have result : (runOn (callbacks.following courses) .load number extension
            world).1.failure = failureOf (runLoading (callbacks.following courses)
              ⟨resolve, requireWith (loadAt (callbacks.following courses)
                world.app.extensions.length)⟩ number extension world).1 := by
          rw [runOn, loadExtension, loadWithin_of_unloaded _ _ _ unloaded]
          exact failure_conclude extension .load _
        refine .inr ⟨mark.trans (congrArg some unloaded), _, noted, ?_⟩
        dsimp only [StageTurn.part]
        rw [result]
        rcases loadingEvents_cases callbacks courses
          (loadAt (callbacks.following courses) world.app.extensions.length)
          (loadEvents callbacks courses world.app.extensions.length [number]) number extension
          world with ⟨silent, fails⟩ | ⟨ready, runs⟩
        · rw [silent]
          exact .inl ⟨rfl, fails⟩
        · rw [runs, List.map_cons, List.map_append]
          exact .inr ⟨_, rfl⟩
  | postLoad =>
      exact part_of_hookEvents (by decide) noted (failure_conclude extension .postLoad _)
  | ready => exact part_of_hookEvents (by decide) noted (failure_conclude extension .ready _)

theorem tells_turns (stage : Stage) (numbers : List Nat) (world : World F H) :
    ∀ turn ∈ turns (callbacks.following courses) stage numbers world, turn.Tells stage := by
  induction numbers generalizing world with
  | nil => simp [turns]
  | cons number rest ih =>
      rw [turns]
      rcases found : world.extension? number with _ | extension
      · exact ih world
      · intro turn member
        rcases List.mem_cons.1 member with rfl | member
        · exact tells_turn keep keeps stage found
        · exact ih _ turn member

/-- A stage notes what its turns note. -/
theorem notes_turns (stage : Stage) (policy : StagePolicy) (numbers : List Nat)
    (world : World F H) :
    (runEach (callbacks.following courses) stage policy numbers world).2.notes =
      world.notes ++ (policy.cut StageTurn.failed
        (turns (callbacks.following courses) stage numbers world)).flatMap StageTurn.notes := by
  induction numbers generalizing world with
  | nil => rw [turns, StagePolicy.cut_nil]; exact (List.append_nil _).symm
  | cons number rest ih =>
      rw [runEach, turns]
      rcases found : world.extension? number with _ | extension
      · exact ih world
      · have noted := notes_turn keep keeps stage found
        have after := notes_runOn keep keeps stage found
        rw [← noted] at after
        dsimp only
        rw [StagePolicy.cut_cons, List.flatMap_cons, StageTurn.failed]
        dsimp only
        split
        · rw [List.flatMap_nil, List.append_nil]
          exact after
        · rw [← List.append_assoc, ← after]
          exact ih _

end Telling

end World

/-! ## What is loaded stays loaded -/

namespace LoadState

variable {before after : LoadState} {event : LoadEvent} {earlier later : List LoadEvent}
  {number : Nat}

theorem Reaches.exists_of_append (reaches : Reaches before (earlier ++ later) after) :
    ∃ middle, Reaches before earlier middle ∧ Reaches middle later after := by
  induction earlier generalizing before with
  | nil => exact ⟨before, .refl before, reaches⟩
  | cons event earlier ih =>
      cases reaches with
      | step first rest =>
          rcases ih rest with ⟨middle, left, right⟩
          exact ⟨middle, .step first left, right⟩

theorem Step.stays_loaded (step : Step before event after)
    (loaded : before.marks[number]? = some true) : after.marks[number]? = some true := by
  cases step with
  | begins | runs | ran | ends | fails | handed => exact loaded
  | succeeds marks failed during other =>
      by_cases same : other = number
      · subst same
        exact List.getElem?_set_self (List.getElem?_eq_some_iff.1 loaded).1
      · exact (List.getElem?_set_ne same).trans loaded

/-- The own part of what is loaded does not run in loading. -/
theorem Reaches.not_runs_loaded (reaches : Reaches before later after) (sound : before.Sound)
    (acyclic : ∀ event ∈ later, event.IsAcyclic) (loaded : before.marks[number]? = some true) :
    .runs number .load ∉ later := by
  induction reaches with
  | refl => simp
  | step first rest ih =>
      intro member
      rcases List.mem_cons.1 member with rfl | member
      · cases first with
        | runs _ _ _ isOpen => cases (sound.unloaded number (isOpen rfl)).symm.trans loaded
      · exact ih (sound.step first (acyclic _ List.mem_cons_self))
          (fun event member => acyclic event (List.mem_cons_of_mem _ member))
          (first.stays_loaded loaded) member

/-- An extension's own part of loading does not run again once it has succeeded. -/
theorem Reaches.not_runs_again (sound : before.Sound)
    (reaches : Reaches before (earlier ++ .ran number .load none :: later) after)
    (acyclic : ∀ event ∈ earlier ++ LoadEvent.ran number .load none :: later,
      event.IsAcyclic) : .runs number .load ∉ later := by
  rcases reaches.exists_of_append with ⟨middle, left, right⟩
  have soundThen := left.sound sound fun event member =>
    acyclic event (List.mem_append_left _ member)
  have onward : ∀ event ∈ later, event.IsAcyclic := fun event member =>
    acyclic event (List.mem_append_right _ (List.mem_cons_of_mem _ member))
  cases right with
  | step first rest =>
      have soundLater := soundThen.step first trivial
      cases first with
      | succeeds marks failed during =>
          have unloaded := soundThen.unloaded number List.mem_cons_self
          have inside := (List.getElem?_eq_some_iff.1 unloaded).1
          exact rest.not_runs_loaded soundLater onward (List.getElem?_set_self inside)
      | ran _ _ _ _ further => exact absurd rfl (further rfl)

end LoadState

/-! ## Reports -/

/-- What a stage reports.  Everyone has a turn in the order of the stages, up to the first failure
if that ends the stage, and a result.  The result is how the extension's own part ended in its
turn, by what the stage notes.  In loading, it tells whether the extension is loaded when its turn
ends. -/
structure World.Reports (callbacks : Callbacks F H) (stage : Stage) (world : World F H) :
    Prop where
  numbers : (turns callbacks stage world.extensions world).map (·.number) = world.extensions
  named : ∀ turn ∈ turns callbacks stage world.extensions world,
    turn.result.stage = stage ∧ world.lineup.names[turn.number]? = some turn.result.extension
  results : (runStage callbacks stage world).1 =
    ((world.policy stage).cut StageTurn.failed
      (turns callbacks stage world.extensions world)).map (·.result)
  noted : (runStage callbacks stage world).2.notes =
    world.notes ++ ((world.policy stage).cut StageTurn.failed
      (turns callbacks stage world.extensions world)).flatMap StageTurn.notes
  tells : ∀ turn ∈ turns callbacks stage world.extensions world, turn.Tells stage
  loaded : stage = .load →
    ∀ turn ∈ (world.policy stage).cut StageTurn.failed
      (turns callbacks stage world.extensions world),
      turn.result.failure = none ↔ turn.after.marks[turn.number]? = some true

/-- Loading goes on in spite of failures, or nothing fails. -/
def World.GoesOn (callbacks : Callbacks F H) (world : World F H) : Prop :=
  world.policy .load = .proceed ∨
    ∀ result ∈ (runStage callbacks .load world).1, result.failure = none

/-- What a call reports.  When everything is loaded, everyone is told so, exactly if loading goes
on. -/
def StartCall.Reports (callbacks : Callbacks F H) (call : StartCall) (world : World F H) : Prop :=
  match call with
  | .runStage stage => World.Reports callbacks stage world
  | .loadAll =>
    let loaded := (World.runStage callbacks .load world).2
    World.Reports callbacks .load world ∧
      (world.GoesOn callbacks →
        World.Reports callbacks .postLoad loaded ∧
          World.loadAll callbacks world =
            ((World.runStage callbacks .load world).1 ++
                (World.runStage callbacks .postLoad loaded).1,
              (World.runStage callbacks .postLoad loaded).2)) ∧
      (¬ world.GoesOn callbacks →
        World.loadAll callbacks world = World.runStage callbacks .load world)
  | .require _ _ => True

theorem World.loadAll_eq {callbacks : Callbacks F H} {world : World F H}
    (policy : (runStage callbacks .load world).2.policy .load = world.policy .load) :
    (world.GoesOn callbacks →
      loadAll callbacks world =
        ((runStage callbacks .load world).1 ++
            (runStage callbacks .postLoad (runStage callbacks .load world).2).1,
          (runStage callbacks .postLoad (runStage callbacks .load world).2).2)) ∧
    (¬ world.GoesOn callbacks → loadAll callbacks world = runStage callbacks .load world) := by
  have goesOn_iff : world.GoesOn callbacks ↔
      ¬ (world.policy .load == .abort &&
        (runStage callbacks .load world).1.any (·.failure.isSome)) = true := by
    unfold GoesOn
    cases world.policy .load <;> simp
  unfold loadAll
  dsimp only
  rw [policy, goesOn_iff, not_not]
  exact ⟨fun goesOn => if_neg goesOn, fun isOver => if_pos isOver⟩

section Reporting

variable {callbacks : Callbacks F H} {courses : F → Stage → Nat → HookCourse F H}
  (keep : callbacks.Keep World.standing)
  (keeps : ∀ name stage number,
    (courses name stage number).Keeps (World.standing : World F H → Standing))
include keep keeps

omit keeps in
theorem spareMarks_of_standing : callbacks.SpareMarks := by
  have kept := keep.map Standing.marks
  exact ⟨kept.observe, kept.told⟩

omit keep in
theorem spares_of_standing (name : F) (stage : Stage) (number : Nat) :
    (courses name stage number).Spares := by
  exact HookCourse.keeps_marks_iff.1 ((keeps name stage number).map Standing.marks)

theorem World.reports (stage : Stage) {world : World F H}
    (there : ∀ number ∈ world.extensions, number < world.lineup.names.length)
    (acyclic : stage = .load → ∀ event ∈ StartCall.stageEvents callbacks courses .load world,
      event.IsAcyclic) :
    Reports (callbacks.following courses) stage world := by
  have keepLineup := keep.map Standing.lineup
  have keepsLineup := fun name stage number => (keeps name stage number).map Standing.lineup
  have keepNotes := keep.map Standing.notes
  have keepsNotes := fun name stage number => (keeps name stage number).map Standing.notes
  refine ⟨numbers_turns keepLineup keepsLineup stage there,
    named_turns keepLineup keepsLineup stage _ world, results_runEach _ stage _ _ world,
    notes_turns keepNotes keepsNotes stage _ _ world,
    tells_turns keepNotes keepsNotes stage _ world, ?_⟩
  rintro rfl
  exact loaded_turns (spareMarks_of_standing keep) (spares_of_standing keeps) _ _ world
    (acyclic rfl)

theorem StartCall.reports {call : StartCall} {world : World F H}
    (there : ∀ number ∈ world.extensions, number < world.lineup.names.length)
    (acyclic : ∀ event ∈ call.events callbacks courses world, event.IsAcyclic) :
    call.Reports (callbacks.following courses) world := by
  cases call with
  | runStage stage =>
      refine World.reports keep keeps stage there ?_
      rintro rfl
      exact acyclic
  | loadAll =>
      have kept := World.lineup_runStage (keep.map Standing.lineup)
        (fun name stage number => (keeps name stage number).map Standing.lineup) .load world
      have loading : ∀ event ∈ stageEvents callbacks courses .load world, event.IsAcyclic :=
        fun event member => acyclic event (List.mem_append_left _ member)
      have reported := World.reports keep keeps .load there fun _ => loading
      have thereStill : ∀ number ∈ (World.runStage (callbacks.following courses) .load
          world).2.extensions, number < (World.runStage (callbacks.following courses) .load
            world).2.lineup.names.length := by
        rw [World.extensions_of_lineup kept, kept]
        exact there
      have told := World.reports keep keeps .postLoad thereStill nofun
      have goes := World.loadAll_eq (World.policy_of_lineup kept .load)
      exact ⟨reported, fun goesOn => ⟨told, goes.1 goesOn⟩, goes.2⟩
  | require kind name => trivial

omit keep keeps in
theorem StartCall.allEvents_append (earlier later : List StartCall) (world : World F H) :
    allEvents callbacks courses (earlier ++ later) world =
      allEvents callbacks courses earlier world ++
        allEvents callbacks courses later (runAll (callbacks.following courses) earlier world) := by
  induction earlier generalizing world with
  | nil => rfl
  | cons call earlier ih =>
      rw [List.cons_append, allEvents, allEvents, ih, List.append_assoc]
      rfl

/-- However an application is started, each call reports what happens, about the extensions that
were added at first, by the policies of the beginning.  What is noted of the start-up are its
events, and once an extension's own part of loading has succeeded it does not run again. -/
theorem StartCall.all_report {base : World F H} {policies : List (Stage × StagePolicy)}
    (vacant : base.lineup = ⟨[], .empty, .empty, policies⟩) (extensions : List (Extension F))
    (calls : List StartCall)
    (acyclic : ∀ event ∈ allEvents callbacks courses calls (base.addExtensions extensions),
      event.IsAcyclic) :
    (∀ earlier call later, calls = earlier ++ call :: later →
      let world := runAll (callbacks.following courses) earlier (base.addExtensions extensions)
      let services := OrderedMap.ofList (World.numbered .service extensions)
      let modules := OrderedMap.ofList (World.numbered .module extensions)
      world.lineup = ⟨extensions.map (·.name), services, modules, policies⟩ ∧
        world.extensions = services.values ++ modules.values ∧
        call.Reports (callbacks.following courses) world) ∧
    ∃ noted,
      (runAll (callbacks.following courses) calls (base.addExtensions extensions)).notes =
        base.notes ++ noted ∧
      noted = (allEvents callbacks courses calls (base.addExtensions extensions)).map
        LoadEvent.note ∧
      ∀ earlier number later, noted = earlier ++ .ran number .load none :: later →
        .runs number .load ∉ later := by
  have added := World.lineup_addExtensions vacant extensions
  have keepLineup := keep.map Standing.lineup
  have keepsLineup := fun name stage number => (keeps name stage number).map Standing.lineup
  constructor
  · rintro earlier call later rfl
    have kept := (lineup_runAll keepLineup keepsLineup earlier
      (base.addExtensions extensions)).trans added
    have order := World.extensions_of_lineup kept
    refine ⟨kept, order, reports keep keeps ?_ ?_⟩
    · intro number member
      rw [order] at member
      rw [kept, List.length_map]
      rcases List.mem_append.1 member with isService | isModule
      · exact World.number_lt (OrderedMap.of_mem_values_ofList isService)
      · exact World.number_lt (OrderedMap.of_mem_values_ofList isModule)
    · intro event member
      refine acyclic event ?_
      rw [allEvents_append]
      exact List.mem_append_right _ (List.mem_append_left _ member)
  · have noted := notes_runAll (keep.map Standing.notes)
      (fun name stage number => (keeps name stage number).map Standing.notes) calls
      (base.addExtensions extensions)
    rw [World.notes_addExtensions] at noted
    refine ⟨_, noted, rfl, ?_⟩
    intro earlier number later split
    rcases List.map_eq_append_iff.1 split with ⟨before, rest, isAll, rfl, isRest⟩
    rcases List.map_eq_cons_iff.1 isRest with ⟨event, after, rfl, isRan, rfl⟩
    rcases LoadEvent.eq_ran_of_note isRan
    have sound : LoadState.Sound ⟨(base.addExtensions extensions).marks, [], []⟩ :=
      ⟨.nil, by simp⟩
    rcases allEvents_lead (spareMarks_of_standing keep) (spares_of_standing keeps)
      ((base.addExtensions extensions).marks.length + 1) calls
      (base.addExtensions extensions) [] sound (by simp) acyclic with ⟨failed, reaches, -⟩
    rw [isAll] at reaches acyclic
    intro member
    rcases List.mem_map.1 member with ⟨event, isLater, isRuns⟩
    rcases LoadEvent.eq_runs_of_note isRuns
    exact reaches.not_runs_again sound acyclic isLater

end Reporting

/-! ## A kiosk that opens without news -/

namespace Kiosk

/-- The feed shows what is on the menu and then fails; the menu needs the store. -/
def courses (name : String) (stage : Stage) (_ : Nat) : HookCourse String Unit :=
  match stage with
  | .load =>
    if name = "feed" then .require .module "Menu" fun _ => .done (.error Outage.unavailable)
    else if name = "menu" then .require .service "Store" fun _ => .done (.ok ())
    else .done (.ok ())
  | .postLoad | .ready => .done (.ok ())

def extensions : List (Extension String) :=
  [.new "Menu" none .module (.custom "menu"), .new "Feed" none .service (.custom "feed"),
    .new "Store" none .service (.custom "store")]

def base : World String Unit := World.new () .standard [(.load, .proceed)]

def start : World String Unit := base.addExtensions extensions

def calls : List StartCall := [.loadAll, .runStage .load]

/-- What happens once the store is loaded. -/
def afterStore : List LoadEvent :=
  [.ends 2 none, .handed 2 true, .ran 0 .load none, .ends 0 none, .handed 0 true,
    .ran 1 .load (some Outage.unavailable), .ends 1 (some Outage.unavailable),
    .runs 1 .postLoad, .ran 1 .postLoad none, .runs 2 .postLoad, .ran 2 .postLoad none,
    .runs 0 .postLoad, .ran 0 .postLoad none,
    .begins 1 [], .runs 1 .load, .handed 0 true, .ran 1 .load (some Outage.unavailable),
    .ends 1 (some Outage.unavailable)]

theorem events_eq :
    StartCall.allEvents Outage.callbacks courses calls start =
      [.begins 1 [], .runs 1 .load, .begins 0 [1], .runs 0 .load, .begins 2 [0, 1],
        .runs 2 .load] ++ .ran 2 .load none :: afterStore := by
  rfl

theorem keep : Outage.callbacks.Keep World.standing := by
  exact ⟨fun _ _ _ => rfl, fun _ _ _ _ => rfl⟩

theorem keeps (name : String) (stage : Stage) (number : Nat) :
    (courses name stage number).Keeps World.standing := by
  cases stage with
  | load => unfold courses; dsimp only; split <;> [skip; split] <;> simp [HookCourse.Keeps]
  | postLoad => trivial
  | ready => trivial

/-- The feed fails before anyone else has a turn, when the store and the menu are loaded already.
Their results say so, and the store's own part does not run again when all are to be loaded
again. -/
theorem store_loads_once :
    (∀ event ∈ StartCall.allEvents Outage.callbacks courses calls start, event.IsAcyclic) ∧
      (World.runStage (Outage.callbacks.following courses) .load start).1.map
          (fun result => (result.extension, result.failure.isNone)) =
        [("Feed", false), ("Store", true), ("Menu", true)] ∧
      StartCall.Reports (Outage.callbacks.following courses) .loadAll start ∧
      .runs 2 .load ∉ afterStore.map LoadEvent.note := by
  have acyclic : ∀ event ∈ StartCall.allEvents Outage.callbacks courses calls start,
      event.IsAcyclic := by
    rw [events_eq]
    simp [afterStore, LoadEvent.IsAcyclic]
  have vacant : base.lineup = ⟨[], .empty, .empty, [(.load, .proceed)]⟩ := rfl
  rcases StartCall.all_report keep keeps vacant extensions calls acyclic with
    ⟨reports, noted, -, isEvents, notAgain⟩
  rw [← start, events_eq, List.map_append] at isEvents
  exact ⟨acyclic, rfl, (reports [] .loadAll [.runStage .load] rfl).2.2,
    notAgain _ 2 _ isEvents⟩

end Kiosk

end Steward
