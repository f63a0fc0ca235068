import Steward.App.Extension

/-!
# What happens while extensions are loaded

Loads lie in each other: an extension that is being loaded can require another one,
which is then loaded first.  `LoadState.Step` says which events can happen when, with
the stack of the extensions that are being loaded, and `LoadState.Reaches` follows a
whole sequence of events.

Whether every extension begins to be loaded at most once, and is loaded whenever it
is handed out, can be read off such a sequence: both hold exactly if nothing concerns
an extension again once it has failed to load.
-/

namespace Steward

/-- Something that happens while extensions are loaded.  Extensions are known by number. -/
inductive LoadEvent where
  /-- The listeners of an extension are about to be subscribed, while others are being
  loaded, the innermost first. -/
  | begins (number : Nat) (during : List Nat)
  /-- An extension's own part of a stage is about to run. -/
  | runs (number : Nat) (stage : Stage)
  | ran (number : Nat) (stage : Stage) (failure : Option Failure)
  | ends (number : Nat) (failure : Option Failure)
  /-- An extension that was required is handed out. -/
  | handed (number : Nat) (loaded : Bool)

namespace LoadEvent

def isBeginOf (number : Nat) : LoadEvent → Bool
  | .begins other _ => other == number
  | .runs .. | .ran .. | .ends .. | .handed .. => false

/-- An extension begins to be loaded, or is handed out. -/
def Concerns (number : Nat) : LoadEvent → Prop
  | .begins other _ | .handed other _ => other = number
  | .runs .. | .ran .. | .ends .. => False

/-- No extension begins to be loaded while it is being loaded. -/
def IsAcyclic : LoadEvent → Prop
  | .begins number during => number ∉ during
  | .runs .. | .ran .. | .ends .. | .handed .. => True

/-- What is noted of it. -/
def note : LoadEvent → StartNote
  | .begins number _ => .begins number
  | .runs number stage => .runs number stage
  | .ran number stage failure => .ran number stage failure
  | .ends number failure => .ends number failure
  | .handed number loaded => .handed number loaded

/-- A later event does not concern an extension whose load failed before. -/
def SparesFailed (earlier later : LoadEvent) : Prop :=
  ∀ number failure, earlier = .ends number (some failure) → ¬ later.Concerns number

theorem eq_runs_of_note {number : Nat} {stage : Stage} {event : LoadEvent}
    (same : event.note = .runs number stage) : event = .runs number stage := by
  cases event <;> cases same <;> rfl

theorem eq_ran_of_note {number : Nat} {stage : Stage} {failure : Option Failure}
    {event : LoadEvent} (same : event.note = .ran number stage failure) :
    event = .ran number stage failure := by
  cases event <;> cases same <;> rfl

theorem isBeginOf_iff {number : Nat} {event : LoadEvent} :
    event.isBeginOf number = true ↔ ∃ during, event = .begins number during := by
  cases event <;> simp [isBeginOf]

end LoadEvent

/-- Every extension begins to be loaded at most once, and is loaded whenever it is handed
out. -/
structure LoadsOnce (events : List LoadEvent) : Prop where
  once : ∀ number, events.countP (LoadEvent.isBeginOf number) ≤ 1
  honest : ∀ number loaded, .handed number loaded ∈ events → loaded = true

namespace LoadsOnce

theorem tail {event : LoadEvent} {events : List LoadEvent}
    (once : LoadsOnce (event :: events)) : LoadsOnce events := by
  refine ⟨?_, fun number loaded member => once.honest number loaded (List.mem_cons_of_mem _ member)⟩
  intro number
  exact Nat.le_trans (by rw [List.countP_cons]; omega) (once.once number)

/-- What begins does not begin later. -/
theorem head {number : Nat} {during : List Nat} {events : List LoadEvent}
    (once : LoadsOnce (.begins number during :: events)) :
    ∀ event ∈ events, ¬ event.isBeginOf number = true := by
  have bound := once.once number
  rw [List.countP_cons, if_pos (by simp [LoadEvent.isBeginOf])] at bound
  exact List.countP_eq_zero.1 (by omega)

end LoadsOnce

/-- How far loading is. -/
structure LoadState where
  /-- Which extensions are loaded, by number. -/
  marks : List Bool
  /-- The extensions that failed to load. -/
  failed : List Nat
  /-- The extensions that are being loaded, the innermost first. -/
  during : List Nat

namespace LoadState

/-- One event takes a state to another.  Only what is not loaded begins to be loaded, and only then
does its own part of loading run.  It is loaded when that has succeeded.  What is handed out is
loaded or has failed. -/
inductive Step : LoadState → LoadEvent → LoadState → Prop where
  | begins (marks : List Bool) (failed during : List Nat) (number : Nat)
      (unloaded : marks[number]? = some false) :
      Step ⟨marks, failed, during⟩ (.begins number during) ⟨marks, failed, number :: during⟩
  | runs (state : LoadState) (number : Nat) (stage : Stage)
      (isOpen : stage = .load → number ∈ state.during) : Step state (.runs number stage) state
  | succeeds (marks : List Bool) (failed during : List Nat) (number : Nat) :
      Step ⟨marks, failed, number :: during⟩ (.ran number .load none)
        ⟨marks.set number true, failed, during⟩
  | ran (state : LoadState) (number : Nat) (stage : Stage) (failure : Option Failure)
      (further : stage = .load → failure ≠ none) : Step state (.ran number stage failure) state
  | ends (state : LoadState) (number : Nat) (loaded : state.marks[number]? = some true) :
      Step state (.ends number none) state
  | fails (marks : List Bool) (failed during : List Nat) (number : Nat) (failure : Failure) :
      Step ⟨marks, failed, number :: during⟩ (.ends number (some failure))
        ⟨marks, number :: failed, during⟩
  | handed (state : LoadState) (number : Nat) (loaded : Bool)
      (mark : state.marks[number]? = some loaded)
      (known : loaded = true ∨ number ∈ state.failed) :
      Step state (.handed number loaded) state

inductive Reaches : LoadState → List LoadEvent → LoadState → Prop where
  | refl (state : LoadState) : Reaches state [] state
  | step {before middle after : LoadState} {event : LoadEvent} {events : List LoadEvent}
      (first : Step before event middle) (rest : Reaches middle events after) :
      Reaches before (event :: events) after

variable {before middle after : LoadState} {event : LoadEvent} {events later : List LoadEvent}
  {number : Nat}

namespace Reaches

theorem single (step : Step before event after) : Reaches before [event] after := by
  exact .step step (.refl after)

theorem trans (first : Reaches before events middle) (rest : Reaches middle later after) :
    Reaches before (events ++ later) after := by
  induction first with
  | refl => exact rest
  | step first _ ih => exact .step first (ih rest)

end Reaches

/-- Whatever is being loaded is not loaded yet, and is being loaded once. -/
structure Sound (state : LoadState) : Prop where
  distinct : state.during.Nodup
  unloaded : ∀ number ∈ state.during, state.marks[number]? = some false

theorem Sound.step (sound : before.Sound) (step : Step before event after)
    (acyclic : event.IsAcyclic) : after.Sound := by
  cases step with
  | begins marks failed during number unloaded =>
      refine ⟨List.nodup_cons.2 ⟨acyclic, sound.distinct⟩, ?_⟩
      intro other member
      rcases List.mem_cons.1 member with rfl | member
      · exact unloaded
      · exact sound.unloaded other member
  | succeeds marks failed during number =>
      rcases List.nodup_cons.1 sound.distinct with ⟨isNew, distinct⟩
      refine ⟨distinct, ?_⟩
      intro other member
      have apart : number ≠ other := fun same => isNew (same ▸ member)
      rw [List.getElem?_set_ne apart]
      exact sound.unloaded other (List.mem_cons_of_mem _ member)
  | fails marks failed during number failure =>
      exact ⟨(List.nodup_cons.1 sound.distinct).2,
        fun other member => sound.unloaded other (List.mem_cons_of_mem _ member)⟩
  | runs | ran | ends | handed => exact sound

theorem Step.length_marks (step : Step before event after) :
    after.marks.length = before.marks.length := by
  cases step <;> simp

/-! ## If failed loads are left alone -/

/-- An extension has begun to be loaded, or is loaded. -/
def IsBegun (state : LoadState) (number : Nat) : Prop :=
  number ∈ state.during ∨ state.marks[number]? = some true ∨ number ∈ state.failed

theorem IsBegun.step (begun : before.IsBegun number) (step : Step before event after)
    (sound : before.Sound) : after.IsBegun number := by
  cases step with
  | begins marks failed during other unloaded =>
      rcases begun with member | loaded | isFailed
      · exact .inl (List.mem_cons_of_mem _ member)
      · exact .inr (.inl loaded)
      · exact .inr (.inr isFailed)
  | succeeds marks failed during other =>
      rcases begun with member | loaded | isFailed
      · rcases List.mem_cons.1 member with rfl | member
        · have unloaded := sound.unloaded number List.mem_cons_self
          have bound : number < marks.length := (List.getElem?_eq_some_iff.1 unloaded).1
          exact .inr (.inl (List.getElem?_set_self bound))
        · exact .inl member
      · refine .inr (.inl ?_)
        by_cases same : other = number
        · subst same
          exact List.getElem?_set_self (List.getElem?_eq_some_iff.1 loaded).1
        · exact (List.getElem?_set_ne same).trans loaded
      · exact .inr (.inr isFailed)
  | fails marks failed during other failure =>
      rcases begun with member | loaded | isFailed
      · rcases List.mem_cons.1 member with rfl | member
        · exact .inr (.inr List.mem_cons_self)
        · exact .inl member
      · exact .inr (.inl loaded)
      · exact .inr (.inr (List.mem_cons_of_mem _ isFailed))
  | runs | ran | ends | handed => exact begun

/-- Events from a state on that never concern an extension that has failed. -/
structure Spares (state : LoadState) (events : List LoadEvent) : Prop where
  sound : state.Sound
  acyclic : ∀ event ∈ events, event.IsAcyclic
  later : events.Pairwise LoadEvent.SparesFailed
  failed : ∀ number ∈ state.failed, ∀ event ∈ events, ¬ event.Concerns number

theorem Spares.step (spares : before.Spares (event :: events)) (step : Step before event after) :
    after.Spares events := by
  rcases List.pairwise_cons.1 spares.later with ⟨first, later⟩
  refine ⟨spares.sound.step step (spares.acyclic event List.mem_cons_self),
    fun other member => spares.acyclic other (List.mem_cons_of_mem _ member), later, ?_⟩
  intro number isFailed other member
  have kept : number ∈ before.failed → ¬ other.Concerns number := fun earlier =>
    spares.failed number earlier other (List.mem_cons_of_mem _ member)
  cases step with
  | begins | runs | succeeds | ran | ends => exact kept isFailed
  | fails marks failed during failing failure =>
      rcases List.mem_cons.1 isFailed with rfl | isFailed
      · exact first other member number failure rfl
      · exact kept isFailed
  | handed => exact kept isFailed

/-- What has begun does not begin again. -/
theorem Reaches.not_isBeginOf (reaches : Reaches before events after)
    (spares : before.Spares events) (begun : before.IsBegun number) :
    ∀ event ∈ events, ¬ event.isBeginOf number = true := by
  induction reaches with
  | refl => simp
  | @step _ _ _ event events first rest ih =>
      intro other member
      rcases List.mem_cons.1 member with rfl | member
      · intro isBegin
        rcases LoadEvent.isBeginOf_iff.1 isBegin with ⟨during, rfl⟩
        cases first with
        | begins marks failed during number unloaded =>
            rcases begun with member | loaded | isFailed
            · exact spares.acyclic _ List.mem_cons_self member
            · cases unloaded.symm.trans loaded
            · exact spares.failed number isFailed _ List.mem_cons_self rfl
      · exact ih (spares.step first) (begun.step first spares.sound) other member

theorem Reaches.loadsOnce (reaches : Reaches before events after)
    (spares : before.Spares events) : LoadsOnce events := by
  induction reaches with
  | refl => exact ⟨by simp, by simp⟩
  | @step _ _ _ event events first rest ih =>
      rcases ih (spares.step first) with ⟨once, honest⟩
      constructor
      · intro number
        rw [List.countP_cons]
        split
        · rename_i isBegin
          rcases LoadEvent.isBeginOf_iff.1 isBegin with ⟨during, rfl⟩
          have never : ∀ later ∈ events, ¬ later.isBeginOf number = true := by
            cases first with
            | begins marks failed during number unloaded =>
                exact rest.not_isBeginOf (spares.step (.begins marks failed during number unloaded))
                  (.inl List.mem_cons_self)
          have none : events.countP (LoadEvent.isBeginOf number) = 0 := List.countP_eq_zero.2 never
          omega
        · exact once number
      · intro number loaded member
        rcases List.mem_cons.1 member with rfl | member
        · cases first with
          | handed state number loaded mark known =>
              rcases known with isLoaded | isFailed
              · exact isLoaded
              · exact absurd rfl (spares.failed number isFailed _ List.mem_cons_self)
        · exact honest number loaded member

/-! ## If every extension is loaded once -/

/-- Events from a state on that load every extension once. -/
structure Singly (state : LoadState) (events : List LoadEvent) : Prop where
  sound : state.Sound
  acyclic : ∀ event ∈ events, event.IsAcyclic
  loadsOnce : LoadsOnce events
  /-- What is being loaded or has failed does not begin again. -/
  never : ∀ number, number ∈ state.during ∨ number ∈ state.failed →
    ∀ event ∈ events, ¬ event.isBeginOf number = true
  /-- What has failed is over, and is not loaded. -/
  failed : ∀ number ∈ state.failed,
    number ∉ state.during ∧ state.marks[number]? ≠ some true

theorem Singly.step (singly : before.Singly (event :: events)) (step : Step before event after) :
    after.Singly events := by
  refine ⟨singly.sound.step step (singly.acyclic event List.mem_cons_self),
    fun other member => singly.acyclic other (List.mem_cons_of_mem _ member),
    singly.loadsOnce.tail, ?_, ?_⟩
  · intro number occupied other member
    have kept : number ∈ before.during ∨ number ∈ before.failed →
        ¬ other.isBeginOf number = true := fun earlier =>
      singly.never number earlier other (List.mem_cons_of_mem _ member)
    cases step with
    | begins marks failed during begun unloaded =>
        rcases occupied with occupied | isFailed
        · rcases List.mem_cons.1 occupied with rfl | occupied
          · exact singly.loadsOnce.head other member
          · exact kept (.inl occupied)
        · exact kept (.inr isFailed)
    | succeeds marks failed during ended =>
        exact kept (occupied.imp_left (List.mem_cons_of_mem _))
    | fails marks failed during ended failure =>
        rcases occupied with occupied | isFailed
        · exact kept (.inl (List.mem_cons_of_mem _ occupied))
        · rcases List.mem_cons.1 isFailed with rfl | isFailed
          · exact kept (.inl List.mem_cons_self)
          · exact kept (.inr isFailed)
    | runs | ran | ends | handed => exact kept occupied
  · intro number isFailed
    cases step with
    | begins marks failed during begun unloaded =>
        rcases singly.failed number isFailed with ⟨isOver, notLoaded⟩
        refine ⟨?_, notLoaded⟩
        intro member
        rcases List.mem_cons.1 member with rfl | member
        · exact singly.never number (.inr isFailed) _ List.mem_cons_self (by
            simp [LoadEvent.isBeginOf])
        · exact isOver member
    | succeeds marks failed during ended =>
        rcases singly.failed number isFailed with ⟨isOver, notLoaded⟩
        rw [List.mem_cons, not_or] at isOver
        exact ⟨isOver.2, by rwa [List.getElem?_set_ne (Ne.symm isOver.1)]⟩
    | fails marks failed during ended failure =>
        rcases List.mem_cons.1 isFailed with rfl | isFailed
        · refine ⟨(List.nodup_cons.1 singly.sound.distinct).1, ?_⟩
          rw [singly.sound.unloaded number List.mem_cons_self]
          simp
        · rcases singly.failed number isFailed with ⟨isOver, notLoaded⟩
          exact ⟨fun member => isOver (List.mem_cons_of_mem _ member), notLoaded⟩
    | runs | ran | ends | handed => exact singly.failed number isFailed

theorem Reaches.not_handed (reaches : Reaches before events after)
    (singly : before.Singly events) (isFailed : number ∈ before.failed) (loaded : Bool) :
    .handed number loaded ∉ events := by
  induction reaches with
  | refl => simp
  | @step _ _ _ event events first rest ih =>
      intro member
      rcases List.mem_cons.1 member with rfl | member
      · cases first with
        | handed state number loaded mark known =>
            have isLoaded := singly.loadsOnce.honest number loaded List.mem_cons_self
            subst isLoaded
            exact (singly.failed number isFailed).2 mark
      · refine ih (singly.step first) ?_ member
        cases first with
        | begins | runs | succeeds | ran | ends | handed => exact isFailed
        | fails => exact List.mem_cons_of_mem _ isFailed

theorem Reaches.pairwise (reaches : Reaches before events after)
    (singly : before.Singly events) : events.Pairwise LoadEvent.SparesFailed := by
  induction reaches with
  | refl => exact .nil
  | @step _ _ _ event events first rest ih =>
      have onward := singly.step first
      refine .cons ?_ (ih onward)
      rintro later member number failure rfl concerns
      cases first with
      | fails marks failed during number failure =>
          cases later with
          | begins other during =>
              cases concerns
              exact onward.never number (.inr List.mem_cons_self) _ member (by
                simp [LoadEvent.isBeginOf])
          | runs | ran | ends => exact concerns
          | handed other loaded =>
              cases concerns
              exact rest.not_handed onward List.mem_cons_self loaded member

/-- Where nothing is being loaded and nothing has failed, every extension is loaded once exactly if
nothing concerns an extension again that fails to load. -/
theorem Reaches.loadsOnce_iff {marks : List Bool} (reaches : Reaches ⟨marks, [], []⟩ events after)
    (acyclic : ∀ event ∈ events, event.IsAcyclic) :
    LoadsOnce events ↔ events.Pairwise LoadEvent.SparesFailed := by
  have sound : Sound ⟨marks, [], []⟩ := ⟨.nil, by simp⟩
  constructor
  · intro once
    exact reaches.pairwise ⟨sound, acyclic, once, by simp, by simp⟩
  · intro later
    exact reaches.loadsOnce ⟨sound, acyclic, later, by simp⟩

end LoadState

end Steward
