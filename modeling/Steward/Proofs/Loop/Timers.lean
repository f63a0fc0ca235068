import Steward.Proofs.Loop.Orderly

/-!
# Timers

A timer that is set runs its job when its time has come, unless it is taken back before.  It is off
when nothing of it is left.  Whatever else a loop does spares it: what is set stays set, and what is
off stays off.

Where timers are set only for known jobs, and for times that are numbers, the loop `Plans` those
jobs and `IsPunctual`.
-/

namespace Steward.Loop

variable {σ J : Type} {loop before middle after : Loop σ J} {timer other : TimerId} {job : J}
  {task : TaskId}

/-- A timer is set that runs a job, perhaps in this round. -/
def IsSet (loop : Loop σ J) (job : J) (timer : TimerId) : Prop :=
  (∃ entry ∈ loop.timers, entry.item = .run job timer ∧ entry.id = timer) ∨
    .run job timer ∈ loop.round

/-- Nothing is left of a timer. -/
structure IsOff (loop : Loop σ J) (timer : TimerId) : Prop where
  timers : ∀ entry ∈ loop.timers, entry.id ≠ timer ∧ entry.item.timer? ≠ some timer
  round : ∀ item ∈ loop.round, item.timer? ≠ some timer
  scheduled : ∀ item ∈ loop.scheduled, item.timer? ≠ some timer

/-- Nothing becomes of a timer. -/
structure SparesTimer (timer : TimerId) (before after : Loop σ J) : Prop where
  set : ∀ job, before.IsSet job timer → after.IsSet job timer
  off : before.IsOff timer → after.IsOff timer

theorem SparesTimer.refl (timer : TimerId) (loop : Loop σ J) : SparesTimer timer loop loop := by
  exact ⟨fun _ => id, id⟩

theorem SparesTimer.trans (first : SparesTimer timer before middle)
    (second : SparesTimer timer middle after) : SparesTimer timer before after := by
  exact ⟨fun job isSet => second.set job (first.set job isSet), second.off ∘ first.off⟩

/-! ## What only wakes tasks -/

/-- Tasks go on, and nothing else is scheduled or set. -/
structure Wakes (before after : Loop σ J) : Prop where
  state : after.state = before.state
  now : after.now = before.now
  timers : after.timers = before.timers
  timersSet : after.timersSet = before.timersSet
  round : after.round = before.round
  length : after.tasks.length = before.tasks.length
  scheduled : ∀ item ∈ after.scheduled, item ∈ before.scheduled ∨ ∃ task, item = .resume task

namespace Wakes

theorem refl (loop : Loop σ J) : Wakes loop loop := by
  exact ⟨rfl, rfl, rfl, rfl, rfl, rfl, fun _ => .inl⟩

theorem trans (first : Wakes before middle) (second : Wakes middle after) :
    Wakes before after where
  state := second.state.trans first.state
  now := second.now.trans first.now
  timers := second.timers.trans first.timers
  timersSet := second.timersSet.trans first.timersSet
  round := second.round.trans first.round
  length := second.length.trans first.length
  scheduled item member := (second.scheduled item member).elim (first.scheduled item) .inr

theorem sparesTimer (wakes : Wakes before after) (timer : TimerId) :
    SparesTimer timer before after where
  set job isSet := by
    rw [IsSet, wakes.timers, wakes.round]
    exact isSet
  off isOff := by
    constructor
    · rw [wakes.timers]
      exact isOff.timers
    · rw [wakes.round]
      exact isOff.round
    · intro item member
      rcases wakes.scheduled item member with there | ⟨task, rfl⟩
      · exact isOff.scheduled item there
      · exact nofun

theorem setStatus (loop : Loop σ J) (task : TaskId) (status : Status σ J) :
    Wakes loop (loop.setStatus task status) := by
  exact ⟨rfl, rfl, rfl, rfl, rfl, List.length_set, fun _ => .inl⟩

theorem withJoins (loop : Loop σ J) (joins : List (TaskId × TaskId)) :
    Wakes loop { loop with joins := joins } := by
  exact ⟨rfl, rfl, rfl, rfl, rfl, rfl, fun _ => .inl⟩

theorem resume (loop : Loop σ J) (task : TaskId) : Wakes loop (loop.schedule (.resume task)) where
  state := rfl
  now := rfl
  timers := rfl
  timersSet := rfl
  round := rfl
  length := rfl
  scheduled := by
    intro item member
    rcases List.mem_append.1 member with there | new
    · exact .inl there
    · exact .inr ⟨task, List.mem_singleton.1 new⟩

theorem release (loop : Loop σ J) (task : TaskId) (answer : Exit Value) :
    Wakes loop (loop.release task answer) := by
  unfold Loop.release
  split
  · exact (setStatus loop task _).trans (resume _ task)
  · exact refl loop

theorem releaseAll (loop : Loop σ J) (waiting : List (TaskId × TaskId)) (answer : Exit Value) :
    Wakes loop (loop.releaseAll waiting answer) := by
  induction waiting generalizing loop with
  | nil =>
      exact refl loop
  | cons first rest ih =>
      rw [releaseAll_cons]
      exact (release loop first.1 answer).trans (ih _)

theorem finish (loop : Loop σ J) (task : TaskId) (exit : Exit Value) :
    Wakes loop (loop.finish task exit) := by
  rw [finish_eq]
  exact ((setStatus loop task _).trans (withJoins _ _)).trans (releaseAll _ _ exit)

theorem settle (loop : Loop σ J) (promise : TaskId) (exit : Exit Value) :
    Wakes loop (loop.settle promise exit) := by
  unfold Loop.settle
  split
  · exact finish loop promise exit
  · exact refl loop

end Wakes

/-! ## Setting timers and taking them back -/

namespace SparesTimer

theorem withState (timer : TimerId) (loop : Loop σ J) (state : σ) :
    SparesTimer timer loop { loop with state := state } := by
  exact ⟨fun _ => id, fun isOff => ⟨isOff.timers, isOff.round, isOff.scheduled⟩⟩

theorem concat (timer : TimerId) (loop : Loop σ J) (status : Status σ J) :
    SparesTimer timer loop { loop with tasks := loop.tasks ++ [status] } := by
  exact ⟨fun _ => id, fun isOff => ⟨isOff.timers, isOff.round, isOff.scheduled⟩⟩

/-- Another timer is set. -/
theorem addTimer (loop : Loop σ J) (seconds : Binary64) {item : TimerId → Item J}
    (own : (item loop.timersSet).timer? = some loop.timersSet) (differs : loop.timersSet ≠ timer) :
    SparesTimer timer loop (loop.addTimer seconds item).2 where
  set job isSet := by
    refine isSet.imp_left ?_
    rintro ⟨entry, member, isEntry⟩
    exact ⟨entry, mem_insertTimer.2 (.inr member), isEntry⟩
  off isOff := by
    refine ⟨?_, isOff.round, isOff.scheduled⟩
    intro entry member
    rcases mem_insertTimer.1 member with rfl | there
    · refine ⟨differs, ?_⟩
      rw [own]
      exact fun same => differs (Option.some.inj same)
    · exact isOff.timers entry there

/-- Another timer is taken back. -/
theorem removeTimer (loop : Loop σ J) (differs : other ≠ timer) :
    SparesTimer timer loop (loop.removeTimer other) where
  set job isSet := by
    rcases isSet with ⟨entry, member, isEntry, rfl⟩ | member
    · exact .inl ⟨entry, List.mem_filter.2 ⟨member, bne_iff_ne.2 (Ne.symm differs)⟩, isEntry, rfl⟩
    · refine .inr (List.mem_filter.2 ⟨member, bne_iff_ne.2 ?_⟩)
      exact fun same => differs (Option.some.inj same).symm
  off isOff := by
    constructor
    · exact fun entry member => isOff.timers entry (List.mem_filter.1 member).1
    · exact fun item member => isOff.round item (List.mem_filter.1 member).1
    · exact fun item member => isOff.scheduled item (List.mem_filter.1 member).1

/-- An item is taken from the round that is not the timer's. -/
theorem take {item : Item J} {rest : List (Item J)} (round : loop.round = item :: rest)
    (differs : item.timer? ≠ some timer) : SparesTimer timer loop { loop with round := rest } where
  set job isSet := by
    refine isSet.imp_right fun member => ?_
    rw [round] at member
    rcases List.mem_cons.1 member with rfl | later
    · exact absurd rfl differs
    · exact later
  off isOff := by
    refine ⟨isOff.timers, ?_, isOff.scheduled⟩
    intro other member
    apply isOff.round
    rw [round]
    exact List.mem_cons_of_mem item member

theorem beginRound (timer : TimerId) (empty : loop.round = []) (time : Binary64) :
    SparesTimer timer loop (loop.beginRound time) where
  set job isSet := by
    rcases isSet with ⟨entry, member, isEntry, sameId⟩ | member
    · rw [← List.takeWhile_append_dropWhile (p := (·.time.atMost time)) (l := loop.timers)]
        at member
      rcases List.mem_append.1 member with due | later
      · exact .inr (List.mem_append_right _ (List.mem_map.2 ⟨entry, due, isEntry⟩))
      · exact .inl ⟨entry, later, isEntry, sameId⟩
    · rw [empty] at member
      cases member
  off isOff := by
    constructor
    · exact fun entry member => isOff.timers entry ((List.dropWhile_suffix _).subset member)
    · intro item member
      rcases List.mem_append.1 member with next | due
      · exact isOff.scheduled item next
      · rcases List.mem_map.1 due with ⟨entry, first, rfl⟩
        exact (isOff.timers entry ((List.takeWhile_prefix _).subset first)).2
    · exact fun _ absurdity => nomatch absurdity

end SparesTimer

/-- A timer that is taken back is off, where timers run under their own numbers. -/
theorem isOff_removeTimer (own : ∀ entry ∈ loop.timers, entry.item.timer? = some entry.id)
    (timer : TimerId) : (loop.removeTimer timer).IsOff timer where
  timers := by
    intro entry member
    rcases List.mem_filter.1 member with ⟨there, differs⟩
    rw [own entry there]
    exact ⟨bne_iff_ne.1 differs, fun same => bne_iff_ne.1 differs (Option.some.inj same)⟩
  round item member := bne_iff_ne.1 (List.mem_filter.1 member).2
  scheduled item member := bne_iff_ne.1 (List.mem_filter.1 member).2

/-! ## What timers are there for -/

/-- Nothing is scheduled but to go on with tasks, and all timers are set for known jobs and run
under their own numbers. -/
structure Plans (jobs : J → TimerId → Prop) (loop : Loop σ J) : Prop where
  round : ∀ item ∈ loop.round,
    (∃ task, item = .resume task) ∨ ∃ job timer, item = .run job timer ∧ jobs job timer
  scheduled : ∀ item ∈ loop.scheduled, ∃ task, item = .resume task
  timers : ∀ entry ∈ loop.timers, ∃ job, entry.item = .run job entry.id ∧ jobs job entry.id

namespace Plans

variable {jobs : J → TimerId → Prop}

theorem mono {more : J → TimerId → Prop} (plans : loop.Plans jobs)
    (known : ∀ job timer, jobs job timer → more job timer) : loop.Plans more where
  round item member := (plans.round item member).imp_right fun ⟨job, timer, runs, isJob⟩ =>
    ⟨job, timer, runs, known job timer isJob⟩
  scheduled := plans.scheduled
  timers entry member := (plans.timers entry member).imp fun job =>
    And.imp_right (known job entry.id)

theorem same (plans : before.Plans jobs) (round : after.round = before.round)
    (scheduled : after.scheduled = before.scheduled) (timers : after.timers = before.timers) :
    after.Plans jobs where
  round := round ▸ plans.round
  scheduled := scheduled ▸ plans.scheduled
  timers := timers ▸ plans.timers

theorem wakes (plans : before.Plans jobs) (wakes : Wakes before after) : after.Plans jobs where
  round := wakes.round ▸ plans.round
  scheduled item member := (wakes.scheduled item member).elim (plans.scheduled item) id
  timers := wakes.timers ▸ plans.timers

theorem take (plans : loop.Plans jobs) {item : Item J} {rest : List (Item J)}
    (round : loop.round = item :: rest) : Plans jobs { loop with round := rest } where
  round other member := plans.round other (round ▸ List.mem_cons_of_mem item member)
  scheduled := plans.scheduled
  timers := plans.timers

theorem addTimer (plans : loop.Plans jobs) (seconds : Binary64) (isJob : jobs job loop.timersSet) :
    (loop.addTimer seconds (.run job)).2.Plans jobs where
  round := plans.round
  scheduled := plans.scheduled
  timers := by
    intro entry member
    rcases mem_insertTimer.1 member with rfl | there
    · exact ⟨job, rfl, isJob⟩
    · exact plans.timers entry there

theorem removeTimer (plans : loop.Plans jobs) (timer : TimerId) :
    (loop.removeTimer timer).Plans jobs where
  round item member := plans.round item (List.mem_filter.1 member).1
  scheduled item member := plans.scheduled item (List.mem_filter.1 member).1
  timers entry member := plans.timers entry (List.mem_filter.1 member).1

theorem beginRound (plans : loop.Plans jobs) (time : Binary64) :
    (loop.beginRound time).Plans jobs where
  round := by
    intro item member
    rcases List.mem_append.1 member with next | due
    · exact .inl (plans.scheduled item next)
    · rcases List.mem_map.1 due with ⟨entry, first, rfl⟩
      rcases plans.timers entry ((List.takeWhile_prefix _).subset first) with ⟨job, runs, isJob⟩
      exact .inr ⟨job, entry.id, runs, isJob⟩
  scheduled _ absurdity := nomatch absurdity
  timers entry member := plans.timers entry ((List.dropWhile_suffix _).subset member)

/-- Timers that run known jobs run under their own numbers. -/
theorem isOff_removeTimer (plans : loop.Plans jobs) (timer : TimerId) :
    (loop.removeTimer timer).IsOff timer := by
  apply Loop.isOff_removeTimer
  intro entry member
  rcases plans.timers entry member with ⟨job, runs, -⟩
  rw [runs]
  rfl

end Plans

/-! ## Times that are numbers -/

theorem isNaN_ofRatio (negative : Bool) (numerator denominator : Nat) :
    (Binary64.ofRatio negative numerator denominator).isNaN = false := by
  rw [Binary64.ofRatio]
  split
  · rfl
  · dsimp only
    split
    all_goals
      split
      · rfl
      · rfl

theorem isNaN_ofScaled (negative : Bool) (magnitude : Nat) (power : Int) :
    (Binary64.ofScaled negative magnitude power).isNaN = false := by
  rw [Binary64.ofScaled]
  split
  · exact isNaN_ofRatio ..
  · exact isNaN_ofRatio ..

/-- Some seconds from now there is a time. -/
theorem isNaN_add {time seconds : Binary64} (isTime : time.isNaN = false)
    (isFinite : seconds.isFinite = true) : (time + seconds).isNaN = false := by
  show (Binary64.add time seconds).isNaN = false
  cases seconds with
  | nan | infinite =>
      cases isFinite
  | finite =>
      cases time with
      | nan =>
          cases isTime
      | infinite =>
          rfl
      | finite =>
          rw [Binary64.add]
          split
          · rfl
          · exact isNaN_ofScaled ..

/-- Numbers are at most what they are. -/
theorem atMost_self {time : Binary64} (isTime : time.isNaN = false) : time.atMost time = true := by
  cases time with
  | nan =>
      cases isTime
  | infinite | finite =>
      simp [Binary64.atMost, Binary64.compare?]

/-- The clock shows a number, and so do all timers. -/
structure IsPunctual (loop : Loop σ J) : Prop where
  now : loop.now.isNaN = false
  timers : ∀ entry ∈ loop.timers, entry.time.isNaN = false

namespace IsPunctual

theorem same (punctual : before.IsPunctual) (now : after.now = before.now)
    (timers : after.timers = before.timers) : after.IsPunctual where
  now := now ▸ punctual.now
  timers := timers ▸ punctual.timers

theorem addTimer (punctual : loop.IsPunctual) {seconds : Binary64}
    (isFinite : seconds.isFinite = true)
    (item : TimerId → Item J) : (loop.addTimer seconds item).2.IsPunctual where
  now := punctual.now
  timers := by
    intro entry member
    rcases mem_insertTimer.1 member with rfl | there
    · exact isNaN_add punctual.now isFinite
    · exact punctual.timers entry there

theorem removeTimer (punctual : loop.IsPunctual) (timer : TimerId) :
    (loop.removeTimer timer).IsPunctual where
  now := punctual.now
  timers entry member := punctual.timers entry (List.mem_filter.1 member).1

theorem beginRound (punctual : loop.IsPunctual) {time : Binary64} (isTime : time.isNaN = false) :
    (loop.beginRound time).IsPunctual where
  now := isTime
  timers entry member := punctual.timers entry ((List.dropWhile_suffix _).subset member)

end IsPunctual

/-! ## Steps that run nothing -/

/-- A task that is not ready does not go on. -/
theorem step_of_unready {run : J → Activity σ J (Exit Value)} {rest : List (Item J)}
    (stepped : loop.step run = some after) (round : loop.round = .resume task :: rest)
    (idle : loop.turn? = none) : after = { loop with round := rest } := by
  rw [step, round] at stepped
  cases stepped
  rw [runItem]
  split
  · rename_i found
    cases idle.symm.trans (turn?_eq_some_iff.2 ⟨⟨rest, round⟩, found⟩)
  · rfl

/-- A round that begins has something to run. -/
theorem step_of_empty {run : J → Activity σ J (Exit Value)} (stepped : loop.step run = some after)
    (empty : loop.round = []) :
    ∃ time, after = loop.beginRound time ∧ (loop.IsPunctual →
      time.isNaN = false ∧ (loop.scheduled ≠ [] ∨ (dueAt time loop.timers).1 ≠ [])) := by
  rw [step, empty] at stepped
  dsimp only at stepped
  split at stepped
  · rename_i busy
    cases stepped
    refine ⟨loop.now, rfl, fun punctual => ⟨punctual.now, ?_⟩⟩
    simp only [isIdle, empty, List.isEmpty_nil, Bool.true_and, Bool.not_eq_true',
      Bool.and_eq_false_iff, List.isEmpty_eq_false_iff] at busy
    exact busy
  · cases timers : loop.timers with
    | nil =>
        rw [timers] at stepped
        cases stepped
    | cons timer rest =>
        rw [timers] at stepped
        cases stepped
        refine ⟨timer.time, rfl, fun punctual => ?_⟩
        have isTime : timer.time.isNaN = false :=
          punctual.timers timer (timers ▸ List.mem_cons_self)
        refine ⟨isTime, .inr ?_⟩
        simp [dueAt, atMost_self isTime]

end Steward.Loop
