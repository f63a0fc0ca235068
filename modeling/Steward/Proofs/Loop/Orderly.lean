import Steward.Proofs.Loop.Performing

/-!
# Orderly loops

In an orderly loop nothing is scheduled but to go on with tasks, every task that is over was
followed to its end, and none has been cancelled unless there is leave to cancel.  It stays so while
no jobs are postponed and nobody cancels anything: tasks that end with something else release those
that wait for them with something else.
-/

namespace Steward

variable {σ J : Type}

/-- What a task goes on with or has ended with is fair. -/
def Status.IsFair (cancels : Prop) : Status σ J → Prop
  | .ready answer _ => Exit.IsFair cancels answer
  | .finished exit => Exit.IsFair cancels exit
  | .blocked .. | .open => True

/-- A status that is not a sleep. -/
def Status.IsAwake (status : Status σ J) : Prop :=
  ∀ timer next, status ≠ .blocked (.timer timer) next

namespace Status

theorem isAwake_ready (answer : Exit Value) (next : Exit Value → Activity σ J (Exit Value)) :
    (ready answer next).IsAwake := by
  intro timer other absurdity
  cases absurdity

theorem isAwake_finished (exit : Exit Value) : (finished exit : Status σ J).IsAwake := by
  intro timer next absurdity
  cases absurdity

theorem isAwake_open : (Status.open : Status σ J).IsAwake := by
  intro timer next absurdity
  cases absurdity

theorem isAwake_join (awaited : TaskId) (next : Exit Value → Activity σ J (Exit Value)) :
    (blocked (.task awaited) next).IsAwake := by
  intro timer other absurdity
  cases absurdity

end Status

/-- To go on with a task. -/
def Item.IsOfTask : Item J → Prop
  | .resume _ | .wake .. => True
  | .run .. => False

namespace Loop

variable {cancels : Prop} {loop after : Loop σ J} {task : TaskId} {exit : Exit Value}

/-- A timer is set that ends a sleep. -/
def HasWake (loop : Loop σ J) (task : TaskId) (timer : TimerId) : Prop :=
  (∃ entry ∈ loop.timers, entry.item = .wake task timer ∧ entry.id = timer) ∨
    .wake task timer ∈ loop.round

/-- A task sleeps until a timer ends its sleep. -/
def SleepsOn (loop : Loop σ J) (task : TaskId) (timer : TimerId) : Prop :=
  ∃ next, loop.tasks[task]? = some (.blocked (.timer timer) next)

/-- Each sleep has a timer of its own, which ends it. -/
structure IsTimed (loop : Loop σ J) : Prop where
  set : ∀ task timer, loop.SleepsOn task timer →
    timer < loop.timersSet ∧ loop.HasWake task timer
  apart : ∀ task other timer, loop.SleepsOn task timer → loop.SleepsOn other timer →
    task = other

theorem SleepsOn.of_setStatus {status : Status σ J} {other : TaskId} {timer : TimerId}
    (awake : status.IsAwake) (sleeps : (loop.setStatus task status).SleepsOn other timer) :
    loop.SleepsOn other timer ∧ other ≠ task := by
  rcases sleeps with ⟨next, found⟩
  by_cases same : task = other
  · subst same
    have present := (List.getElem?_eq_some_iff.1 found).1
    rw [setStatus, List.length_set] at present
    have there : (loop.setStatus task status).tasks[task]? = some status :=
      List.getElem?_set_self present
    exact absurd (Option.some.inj (there.symm.trans found)) (awake timer next)
  · rw [setStatus, List.getElem?_set_ne same] at found
    exact ⟨⟨next, found⟩, Ne.symm same⟩

theorem SleepsOn.of_sleep {seconds : Binary64} {other : TaskId} {timer : TimerId}
    {next : Exit Value → Activity σ J (Exit Value)}
    (asleep : ((loop.addTimer seconds (.wake task)).2.setStatus task
      (.blocked (.timer loop.timersSet) next)).SleepsOn other timer) :
    timer = loop.timersSet ∧ other = task ∨ loop.SleepsOn other timer := by
  rcases asleep with ⟨more, found⟩
  by_cases same : task = other
  · subst same
    have present := (List.getElem?_eq_some_iff.1 found).1
    rw [setStatus, List.length_set] at present
    have there : ((loop.addTimer seconds (.wake task)).2.setStatus task
        (.blocked (.timer loop.timersSet) next)).tasks[task]? = _ :=
      List.getElem?_set_self present
    cases there.symm.trans found
    exact .inl ⟨rfl, rfl⟩
  · rw [setStatus, List.getElem?_set_ne same] at found
    exact .inr ⟨more, found⟩

namespace IsTimed

theorem start (state : σ) : (Loop.start state : Loop σ J).IsTimed where
  set := by
    rintro task timer ⟨next, absurdity⟩
    cases absurdity
  apart := by
    rintro task other timer ⟨next, absurdity⟩
    cases absurdity

/-- Nobody falls asleep, and who sleeps keeps the timer. -/
theorem frame (timed : loop.IsTimed)
    (sleeps : ∀ task timer, after.SleepsOn task timer → loop.SleepsOn task timer)
    (set : after.timersSet = loop.timersSet)
    (wakes : ∀ task timer, after.SleepsOn task timer → loop.HasWake task timer →
      after.HasWake task timer) : after.IsTimed where
  set := by
    intro task timer asleep
    rcases timed.set task timer (sleeps task timer asleep) with ⟨known, wake⟩
    exact ⟨set ▸ known, wakes task timer asleep wake⟩
  apart task other timer asleep again :=
    timed.apart task other timer (sleeps task timer asleep) (sleeps other timer again)

theorem setStatus (timed : loop.IsTimed) {status : Status σ J} (awake : status.IsAwake)
    (task : TaskId) : (loop.setStatus task status).IsTimed := by
  refine timed.frame ?_ rfl fun _ _ _ => id
  exact fun other timer sleeps => (sleeps.of_setStatus awake).1

end IsTimed

theorem mem_insertTimer {timer other : Timer J} {timers : List (Timer J)} :
    other ∈ insertTimer timer timers ↔ other = timer ∨ other ∈ timers := by
  induction timers with
  | nil =>
      simp [insertTimer]
  | cons first rest ih =>
      rw [insertTimer]
      split
      · exact List.mem_cons
      · rw [List.mem_cons, ih, List.mem_cons]
        exact or_left_comm

/-- Nothing but tasks goes on, no sleep goes on for good, and tasks come to fair ends. -/
structure IsOrderly (cancels : Prop) (loop : Loop σ J) : Prop where
  calm : ∀ status ∈ loop.tasks, status.IsFair cancels
  timed : loop.IsTimed
  round : ∀ item ∈ loop.round, item.IsOfTask
  scheduled : ∀ item ∈ loop.scheduled, item.IsOfTask
  timers : ∀ timer ∈ loop.timers, timer.item.IsOfTask

namespace IsOrderly

theorem start (state : σ) : (Loop.start state : Loop σ J).IsOrderly cancels where
  calm _ member := nomatch member
  timed := .start state
  round _ member := nomatch member
  scheduled _ member := nomatch member
  timers _ member := nomatch member

theorem withState (orderly : loop.IsOrderly cancels) (state : σ) :
    IsOrderly cancels { loop with state := state } where
  calm := orderly.calm
  timed := orderly.timed.frame (fun _ _ => id) rfl fun _ _ _ => id
  round := orderly.round
  scheduled := orderly.scheduled
  timers := orderly.timers

theorem withJoins (orderly : loop.IsOrderly cancels) (joins : List (TaskId × TaskId)) :
    IsOrderly cancels { loop with joins := joins } where
  calm := orderly.calm
  timed := orderly.timed.frame (fun _ _ => id) rfl fun _ _ _ => id
  round := orderly.round
  scheduled := orderly.scheduled
  timers := orderly.timers

/-- An item is taken from the round that nobody's sleep depends on. -/
theorem withRound (orderly : loop.IsOrderly cancels) {item : Item J} {rest : List (Item J)}
    (round : loop.round = item :: rest)
    (idle : ∀ task timer, item = .wake task timer → ¬ loop.SleepsOn task timer) :
    IsOrderly cancels { loop with round := rest } where
  calm := orderly.calm
  timed := by
    refine orderly.timed.frame (fun _ _ => id) rfl ?_
    intro task timer asleep wake
    refine wake.imp id fun member => ?_
    rw [round] at member
    rcases List.mem_cons.1 member with first | later
    · exact absurd asleep (idle task timer first.symm)
    · exact later
  round other member := orderly.round other (by
    rw [round]
    exact List.mem_cons_of_mem item member)
  scheduled := orderly.scheduled
  timers := orderly.timers

theorem setStatus (orderly : loop.IsOrderly cancels) {status : Status σ J}
    (awake : status.IsAwake) (fine : status.IsFair cancels) (task : TaskId) :
    (loop.setStatus task status).IsOrderly cancels where
  calm := by
    intro other member
    rcases List.mem_or_eq_of_mem_set member with there | rfl
    · exact orderly.calm other there
    · exact fine
  timed := orderly.timed.setStatus awake task
  round := orderly.round
  scheduled := orderly.scheduled
  timers := orderly.timers

theorem concat (orderly : loop.IsOrderly cancels) {status : Status σ J}
    (awake : status.IsAwake) (fine : status.IsFair cancels) :
    IsOrderly cancels { loop with tasks := loop.tasks ++ [status] } where
  calm := by
    intro other member
    rcases List.mem_append.1 member with there | new
    · exact orderly.calm other there
    · cases List.mem_singleton.1 new
      exact fine
  timed := by
    refine orderly.timed.frame ?_ rfl fun _ _ _ => id
    rintro task timer ⟨next, found⟩
    rcases getElem?_concat_eq_some found with there | ⟨-, same⟩
    · exact ⟨next, there⟩
    · exact absurd same.symm (Ne.symm (awake timer next))
  round := orderly.round
  scheduled := orderly.scheduled
  timers := orderly.timers

theorem schedule (orderly : loop.IsOrderly cancels) (task : TaskId) :
    (loop.schedule (.resume task)).IsOrderly cancels where
  calm := orderly.calm
  timed := orderly.timed.frame (fun _ _ => id) rfl fun _ _ _ => id
  round := orderly.round
  scheduled := by
    intro item member
    rcases List.mem_append.1 member with there | new
    · exact orderly.scheduled item there
    · cases List.mem_singleton.1 new
      trivial
  timers := orderly.timers

theorem rouse (orderly : loop.IsOrderly cancels) (task : TaskId)
    (next : Exit Value → Activity σ J (Exit Value)) : (loop.rouse task next).IsOrderly cancels :=
  orderly.setStatus (Status.isAwake_ready _ _) (Exit.isFair_ok cancels .null) task

theorem yield (orderly : loop.IsOrderly cancels) (task : TaskId)
    (next : Exit Value → Activity σ J (Exit Value)) : (loop.yield task next).IsOrderly cancels :=
  (orderly.rouse task next).schedule task

theorem join (orderly : loop.IsOrderly cancels) (task awaited : TaskId)
    (next : Exit Value → Activity σ J (Exit Value)) :
    (loop.join task awaited next).IsOrderly cancels := by
  apply withJoins
  exact orderly.setStatus (Status.isAwake_join _ _) trivial task

/-- A task falls asleep. -/
theorem fallAsleep (orderly : loop.IsOrderly cancels) (seconds : Binary64) (task : TaskId)
    (next : Exit Value → Activity σ J (Exit Value)) :
    ((loop.addTimer seconds (.wake task)).2.setStatus task
      (.blocked (.timer loop.timersSet) next)).IsOrderly cancels where
  calm := by
    intro other member
    rcases List.mem_or_eq_of_mem_set member with there | rfl
    · exact orderly.calm other there
    · trivial
  timed := by
    constructor
    · intro other timer asleep
      rcases asleep.of_sleep with ⟨rfl, rfl⟩ | there
      · exact ⟨Nat.lt_succ_self _, .inl ⟨_, mem_insertTimer.2 (.inl rfl), rfl, rfl⟩⟩
      · rcases orderly.timed.set other timer there with ⟨known, wake⟩
        refine ⟨Nat.lt_succ_of_lt known, wake.imp_left ?_⟩
        rintro ⟨entry, member, rest⟩
        exact ⟨entry, mem_insertTimer.2 (.inr member), rest⟩
    · intro first second timer asleep again
      rcases asleep.of_sleep with ⟨rfl, rfl⟩ | there
      · rcases again.of_sleep with ⟨-, rfl⟩ | too
        · rfl
        · exact absurd (orderly.timed.set _ _ too).1 (Nat.lt_irrefl _)
      · rcases again.of_sleep with ⟨rfl, -⟩ | too
        · exact absurd (orderly.timed.set _ _ there).1 (Nat.lt_irrefl _)
        · exact orderly.timed.apart _ _ _ there too
  round := orderly.round
  scheduled := orderly.scheduled
  timers := by
    intro timer member
    rcases mem_insertTimer.1 member with rfl | there
    · trivial
    · exact orderly.timers timer there

theorem sleep (orderly : loop.IsOrderly cancels) (task : TaskId) (seconds : Binary64)
    (next : Exit Value → Activity σ J (Exit Value)) :
    (loop.sleep task seconds next).IsOrderly cancels := by
  unfold Loop.sleep
  split
  · exact orderly.yield task next
  · exact orderly.fallAsleep seconds task next

theorem suspend (orderly : loop.IsOrderly cancels) (task : TaskId) (on : Wait)
    (next : Exit Value → Activity σ J (Exit Value)) :
    (loop.suspend task on next).IsOrderly cancels := by
  cases on with
  | turn =>
      exact orderly.yield task next
  | sleep seconds =>
      exact orderly.sleep task seconds next
  | task awaited =>
      exact orderly.join task awaited next

theorem release (orderly : loop.IsOrderly cancels) (fine : Exit.IsFair cancels exit)
    (task : TaskId) : (loop.release task exit).IsOrderly cancels := by
  unfold Loop.release
  split
  · apply schedule
    exact orderly.setStatus (Status.isAwake_ready _ _) fine _
  · exact orderly

theorem finish (orderly : loop.IsOrderly cancels) (fine : Exit.IsFair cancels exit)
    (task : TaskId) : (loop.finish task exit).IsOrderly cancels := by
  rw [finish_eq]
  generalize loop.joins.filter (·.2 == task) = waiting
  have ended : IsOrderly cancels { loop.setStatus task (.finished exit) with
      joins := loop.joins.filter (·.2 != task) } := by
    apply withJoins
    exact orderly.setStatus (Status.isAwake_finished exit) fine _
  revert ended
  generalize ({ loop.setStatus task (.finished exit) with
      joins := loop.joins.filter (·.2 != task) } : Loop σ J) = loop
  intro ended
  induction waiting generalizing loop with
  | nil =>
      exact ended
  | cons first rest ih =>
      exact ih _ (ended.release fine first.1)

theorem settle (orderly : loop.IsOrderly cancels) (fine : Exit.IsFair cancels exit)
    (task : TaskId) : (loop.settle task exit).IsOrderly cancels := by
  unfold Loop.settle
  split
  · exact orderly.finish fine task
  · exact orderly

/-- A sleep is interrupted, and its timer is removed. -/
theorem interrupt (orderly : loop.IsOrderly cancels) (leave : cancels) {timer : TimerId}
    {next : Exit Value → Activity σ J (Exit Value)}
    (found : loop.tasks[task]? = some (.blocked (.timer timer) next)) :
    ((loop.removeTimer timer).release task (.error .cancelled)).IsOrderly cancels := by
  have released : (loop.removeTimer timer).release task (.error .cancelled) =
      ((loop.removeTimer timer).setStatus task (.ready (.error .cancelled) next)).schedule
        (.resume task) := by
    have there : (loop.removeTimer timer).tasks[task]? = some (.blocked (.timer timer) next) :=
      found
    rw [Loop.release, there]
  rw [released]
  apply schedule
  constructor
  · intro other member
    rcases List.mem_or_eq_of_mem_set member with there | rfl
    · exact orderly.calm other there
    · exact Exit.isFair_cancelled leave
  · refine orderly.timed.frame ?_ rfl ?_
    · exact fun other another asleep => (asleep.of_setStatus (Status.isAwake_ready _ _)).1
    · intro other another asleep wake
      rcases asleep.of_setStatus (Status.isAwake_ready _ _) with ⟨there, differs⟩
      -- The timer that is removed is nobody else's.
      have apart : another ≠ timer := by
        rintro rfl
        exact differs (orderly.timed.apart _ _ _ there ⟨next, found⟩)
      rcases wake with ⟨entry, member, wakes, same⟩ | member
      · refine .inl ⟨entry, List.mem_filter.2 ⟨member, ?_⟩, wakes, same⟩
        rw [same]
        exact bne_iff_ne.2 apart
      · refine .inr (List.mem_filter.2 ⟨member, ?_⟩)
        exact bne_iff_ne.2 fun absurdity => apart (Option.some.inj absurdity)
  · exact fun item member => orderly.round item (List.mem_filter.1 member).1
  · exact fun item member => orderly.scheduled item (List.mem_filter.1 member).1
  · exact fun other member => orderly.timers other (List.mem_filter.1 member).1

theorem cancel (orderly : loop.IsOrderly cancels) (leave : cancels) (task : TaskId) (fuel : Nat) :
    (loop.cancel task fuel).IsOrderly cancels := by
  induction fuel generalizing task with
  | zero =>
      exact orderly
  | succ fuel ih =>
      rw [Loop.cancel]
      split
      · exact orderly.setStatus (Status.isAwake_ready _ _) (Exit.isFair_cancelled leave) task
      · rename_i found
        exact orderly.interrupt leave found
      · exact ih _
      · exact orderly.finish (Exit.isFair_cancelled leave) task
      · exact orderly
      · exact orderly

/-- Nobody is interrupted without leave. -/
theorem leave_of_interrupted (orderly : loop.IsOrderly cancels)
    (interrupted : loop.isInterrupted task = true) : cancels := by
  unfold isInterrupted at interrupted
  split at interrupted
  · rename_i found
    exact Exit.IsFair.allowed (orderly.calm _ (List.mem_of_getElem? found)) rfl
  · cases interrupted

theorem isFair_ending (orderly : loop.IsOrderly cancels) (fine : Exit.IsFair cancels exit)
    (task : TaskId) : Exit.IsFair cancels (loop.ending task exit) := by
  cases exit with
  | error interrupt =>
      exact fine
  | ok value =>
      rw [ending]
      split
      · rename_i interrupted
        exact Exit.isFair_cancelled (orderly.leave_of_interrupted interrupted)
      · exact fine

theorem addTask (orderly : loop.IsOrderly cancels) (body : Activity σ J (Exit Value)) :
    (loop.addTask body).2.IsOrderly cancels := by
  apply schedule
  exact orderly.concat (Status.isAwake_ready _ _) (Exit.isFair_ok cancels .null)

theorem addPromise (orderly : loop.IsOrderly cancels) :
    loop.addPromise.2.IsOrderly cancels := by
  exact orderly.concat Status.isAwake_open trivial

theorem beginRound (orderly : loop.IsOrderly cancels) (empty : loop.round = [])
    (time : Binary64) : (loop.beginRound time).IsOrderly cancels where
  calm := orderly.calm
  timed := by
    refine orderly.timed.frame (fun _ _ => id) rfl ?_
    rintro task timer - (⟨entry, member, wakes, same⟩ | member)
    · have whole : loop.timers.takeWhile (·.time.atMost time) ++
          loop.timers.dropWhile (·.time.atMost time) = loop.timers := List.takeWhile_append_dropWhile
      rw [← whole] at member
      rcases List.mem_append.1 member with due | later
      · refine .inr (List.mem_append_right _ ?_)
        rw [← wakes]
        exact List.mem_map_of_mem due
      · exact .inl ⟨entry, later, wakes, same⟩
    · rw [empty] at member
      cases member
  round := by
    intro item member
    rcases List.mem_append.1 member with scheduled | due
    · exact orderly.scheduled item scheduled
    · rcases List.mem_map.1 due with ⟨timer, first, rfl⟩
      exact orderly.timers timer ((List.takeWhile_prefix _).subset first)
  scheduled _ member := nomatch member
  timers timer later := orderly.timers timer ((List.dropWhile_suffix _).subset later)

/-- Whoever goes on is told of a fair end. -/
theorem isFair_of_ready (orderly : loop.IsOrderly cancels)
    {next : Exit Value → Activity σ J (Exit Value)}
    (found : loop.tasks[task]? = some (.ready exit next)) : Exit.IsFair cancels exit := by
  exact orderly.calm _ (List.mem_of_getElem? found)

theorem isFair_of_exit (orderly : loop.IsOrderly cancels) (ended : loop.exit? task = some exit) :
    Exit.IsFair cancels exit := by
  exact orderly.calm _ (List.mem_of_getElem? (exit?_eq_some_iff.1 ended))

end IsOrderly

end Loop

end Steward
