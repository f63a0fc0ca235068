import Steward.Loop.Basic

/-!
# Invariants of the shared state

Tasks of a loop share a state and are interleaved only where they wait.  An activity
respects an invariant from a state on if the state has it whenever the activity
waits, whatever the others make of it meanwhile, as long as they respect the
invariant too.  Between two waits the state is the activity's own, and the invariant
may be broken and mended there.

If all that is scheduled in a loop respects an invariant, then so does every run of
the loop.  What an activity begins counts as well: the jobs it spawns have to be
among some jobs, each of which respects the invariant.
-/

namespace Steward

variable {σ J α β : Type}

namespace Activity

/-- From a state on, an activity has an invariant whenever it waits, begins only some
jobs, and ends with an answer and a state as expected. -/
def Respects (inv : σ → Prop) (jobs : J → Prop) (post : α → σ → Prop) :
    Activity σ J α → σ → Prop
  | .done answer, state => post answer state
  | .get next, state => (next state).Respects inv jobs post state
  | .put after next, _ => next.Respects inv jobs post after
  | .clock next, state => ∀ time, (next time).Respects inv jobs post state
  | .wait _ next, state =>
    inv state ∧ ∀ exit after, inv after → (next exit).Respects inv jobs post after
  | .spawn job next, state => jobs job ∧ ∀ task, (next task).Respects inv jobs post state
  | .promise next, state => ∀ task, (next task).Respects inv jobs post state
  | .settle _ _ next, state => next.Respects inv jobs post state
  | .cancel _ next, state => next.Respects inv jobs post state
  | .later _ job next, state => jobs job ∧ ∀ timer, (next timer).Respects inv jobs post state
  | .withdraw _ next, state => next.Respects inv jobs post state
  | .peek _ next, state => ∀ exit, (next exit).Respects inv jobs post state

variable {inv : σ → Prop} {jobs : J → Prop} {state : σ}

theorem Respects.bind
    {activity : Activity σ J α} {next : α → Activity σ J β}
    {middle : α → σ → Prop} {post : β → σ → Prop}
    (first : activity.Respects inv jobs middle state)
    (rest : ∀ value after, middle value after → (next value).Respects inv jobs post after) :
    (activity.bind next).Respects inv jobs post state := by
  induction activity generalizing state with
  | done value =>
      exact rest value state first
  | get after ih =>
      exact ih state first
  | put left after ih =>
      exact ih first
  | wait on after ih =>
      exact ⟨first.1, fun exit left kept => ih exit (first.2 exit left kept)⟩
  | spawn job after ih | later seconds job after ih =>
      exact ⟨first.1, fun task => ih task (first.2 task)⟩
  | clock after ih | promise after ih | peek task after ih =>
      exact fun answer => ih answer (first answer)
  | settle task exit after ih | cancel task after ih | withdraw timer after ih =>
      exact ih first

theorem Respects.mono
    {activity : Activity σ J α} {post weaker : α → σ → Prop}
    (respects : activity.Respects inv jobs post state)
    (implies : ∀ value after, post value after → weaker value after) :
    activity.Respects inv jobs weaker state := by
  induction activity generalizing state with
  | done value =>
      exact implies value state respects
  | get after ih =>
      exact ih state respects
  | put left after ih =>
      exact ih respects
  | wait on after ih =>
      exact ⟨respects.1, fun exit left kept => ih exit (respects.2 exit left kept)⟩
  | spawn job after ih | later seconds job after ih =>
      exact ⟨respects.1, fun task => ih task (respects.2 task)⟩
  | clock after ih | promise after ih | peek task after ih =>
      exact fun answer => ih answer (respects answer)
  | settle task exit after ih | cancel task after ih | withdraw timer after ih =>
      exact ih respects

end Activity

namespace Course

variable {inv : σ → Prop} {jobs : J → Prop} {state : σ}

/-- A process that goes on after another only if that one was not interrupted. -/
theorem respects_seq
    {course : Course σ J α} {next : α → Course σ J β}
    {middle : Exit α → σ → Prop} {post : Exit β → σ → Prop}
    (first : course.run.Respects inv jobs middle state)
    (rest : ∀ value after, middle (.ok value) after →
      (next value).run.Respects inv jobs post after)
    (stops : ∀ interrupt after, middle (.error interrupt) after →
      post (.error interrupt) after) :
    (course >>= next).run.Respects inv jobs post state := by
  apply Activity.Respects.bind first
  rintro (interrupt | value) after reached
  · exact stops interrupt after reached
  · exact rest value after reached

/-- A process in a coroutine of its own. -/
theorem respects_enclosed {course : Course σ J α} {post : Exit α → σ → Prop}
    (respects : course.run.Respects inv jobs
      (fun exit => post (exit.mapError Interrupt.outside)) state) :
    course.enclosed.run.Respects inv jobs post state := by
  exact respects.bind fun _ _ reached => reached

theorem respects_ofActivity
    {activity : Activity σ J α} {post : Exit α → σ → Prop}
    (respects : activity.Respects inv jobs (fun value => post (.ok value)) state) :
    (ofActivity activity).run.Respects inv jobs post state := by
  exact Activity.Respects.bind respects fun _ _ reached => reached

/-- An activity that can not be interrupted, and a process after it. -/
theorem respects_ofActivity_seq
    {activity : Activity σ J α} {next : α → Course σ J β}
    {middle : α → σ → Prop} {post : Exit β → σ → Prop}
    (first : activity.Respects inv jobs middle state)
    (rest : ∀ value after, middle value after →
      (next value).run.Respects inv jobs post after) :
    (ofActivity activity >>= next).run.Respects inv jobs post state := by
  have lifted : (ofActivity activity).run.Respects inv jobs
      (fun exit after => ∃ value, exit = .ok value ∧ middle value after) state :=
    respects_ofActivity (first.mono fun value _ reached => ⟨value, rfl, reached⟩)
  apply respects_seq lifted
  · rintro value after ⟨_, ⟨⟩, reached⟩
    exact rest value after reached
  · rintro interrupt after ⟨_, absurdity, -⟩
    cases absurdity

theorem respects_atomically {change : σ → Except Failure α × σ} {post : Exit α → σ → Prop}
    (reached : post ((change state).1.mapError .failed) (change state).2) :
    (Course.atomically (J := J) change).run.Respects inv jobs post state := by
  exact reached

theorem respects_atomically_seq {f : σ → α × σ} {next : α → Course σ J β}
    {post : Exit β → σ → Prop}
    (rest : (next (f state).1).run.Respects inv jobs post (f state).2) :
    (Course.ofActivity (.atomically f) >>= next).run.Respects inv jobs post state := by
  exact rest

theorem respects_read_seq {f : σ → α} {next : α → Course σ J β} {post : Exit β → σ → Prop}
    (rest : (next (f state)).run.Respects inv jobs post state) :
    (Course.read f >>= next).run.Respects inv jobs post state := by
  exact rest

theorem respects_modify_seq {f : σ → σ} {next : Unit → Course σ J β}
    {post : Exit β → σ → Prop}
    (rest : (next ()).run.Respects inv jobs post (f state)) :
    (Course.modify f >>= next).run.Respects inv jobs post state := by
  exact rest

theorem respects_begin_seq {job : J} {next : TaskId → Course σ J β}
    {post : Exit β → σ → Prop} (allowed : jobs job)
    (rest : ∀ task, (next task).run.Respects inv jobs post state) :
    (Course.begin job >>= next).run.Respects inv jobs post state := by
  exact ⟨allowed, rest⟩

theorem respects_cancel_seq {task : TaskId} {next : Unit → Course σ J β}
    {post : Exit β → σ → Prop}
    (rest : (next ()).run.Respects inv jobs post state) :
    (Course.cancel task >>= next).run.Respects inv jobs post state := by
  exact rest

/-- A process that is cancelled in its sleep goes no further. -/
theorem respects_sleep_seq {seconds : Binary64} {next : Unit → Course σ J β}
    {post : Exit β → σ → Prop} (holds : inv state)
    (wakes : ∀ after, inv after → (next ()).run.Respects inv jobs post after)
    (stops : ∀ interrupt after, inv after → post (.error interrupt) after) :
    (Course.sleep seconds >>= next).run.Respects inv jobs post state := by
  refine ⟨holds, ?_⟩
  rintro (interrupt | value) after kept
  · exact stops interrupt after kept
  · exact wakes after kept

end Course

/-! ## What is scheduled -/

/-- A body of a task respects an invariant from a state on. -/
def Activity.Sustains (inv : σ → Prop) (jobs : J → Prop)
    (body : Activity σ J (Exit Value)) (state : σ) : Prop :=
  body.Respects inv jobs (fun _ after => inv after) state

/-- What is left of a task respects an invariant, whatever the task is answered. -/
def Status.Sustains (inv : σ → Prop) (jobs : J → Prop) : Status σ J → Prop
  | .ready _ next | .blocked _ next =>
    ∀ exit state, inv state → (next exit).Sustains inv jobs state
  | .open | .finished _ => True

/-- An item for a round begins only some jobs. -/
def Item.Begins (jobs : J → Prop) : Item J → Prop
  | .run job _ => jobs job
  | .resume _ | .wake .. => True

namespace Loop

/-- All that is scheduled in a loop respects an invariant, except what is left of
some busy tasks. -/
structure Kept (inv : σ → Prop) (jobs : J → Prop) (busy : TaskId → Prop) (loop : Loop σ J) :
    Prop where
  tasks : ∀ task status, loop.tasks[task]? = some status → ¬ busy task →
    status.Sustains inv jobs
  round : ∀ item ∈ loop.round, item.Begins jobs
  scheduled : ∀ item ∈ loop.scheduled, item.Begins jobs
  timers : ∀ timer ∈ loop.timers, timer.item.Begins jobs

namespace Kept

variable {inv : σ → Prop} {jobs : J → Prop} {busy : TaskId → Prop} {loop : Loop σ J}

theorem setStatus (kept : loop.Kept inv jobs busy) (task : TaskId) {status : Status σ J}
    (keeps : ¬ busy task → status.Sustains inv jobs) :
    (loop.setStatus task status).Kept inv jobs busy where
  tasks := by
    intro other found at_ free
    simp only [Loop.setStatus, List.getElem?_set] at at_
    split at at_
    · rename_i same
      subst same
      split at at_
      · cases at_
        exact keeps free
      · cases at_
    · exact kept.tasks other found at_ free
  round := kept.round
  scheduled := kept.scheduled
  timers := kept.timers

/-- A task that is given a new status is not busy any more. -/
theorem setStatus_self {task : TaskId} (kept : loop.Kept inv jobs (· = task))
    {status : Status σ J} (keeps : status.Sustains inv jobs) :
    (loop.setStatus task status).Kept inv jobs fun _ => False where
  tasks := by
    intro other found at_ _
    simp only [Loop.setStatus, List.getElem?_set] at at_
    split at at_
    · split at at_
      · cases at_
        exact keeps
      · cases at_
    · rename_i distinct
      exact kept.tasks other found at_ (Ne.symm distinct)
  round := kept.round
  scheduled := kept.scheduled
  timers := kept.timers

theorem schedule (kept : loop.Kept inv jobs busy) {item : Item J} (begins : item.Begins jobs) :
    (loop.schedule item).Kept inv jobs busy where
  tasks := kept.tasks
  round := kept.round
  scheduled := by
    intro other member
    rcases List.mem_append.1 member with earlier | added
    · exact kept.scheduled other earlier
    · rw [List.mem_singleton.1 added]
      exact begins
  timers := kept.timers

theorem withState (kept : loop.Kept inv jobs busy) (state : σ) :
    Kept inv jobs busy { loop with state := state } where
  tasks := kept.tasks
  round := kept.round
  scheduled := kept.scheduled
  timers := kept.timers

theorem withJoins (kept : loop.Kept inv jobs busy) (joins : List (TaskId × TaskId)) :
    Kept inv jobs busy { loop with joins := joins } where
  tasks := kept.tasks
  round := kept.round
  scheduled := kept.scheduled
  timers := kept.timers

/-- Add a task or a promise. -/
theorem addStatus (kept : loop.Kept inv jobs busy) {status : Status σ J}
    (keeps : status.Sustains inv jobs) :
    Kept inv jobs busy { loop with tasks := loop.tasks ++ [status] } where
  tasks := by
    intro task found at_ free
    rw [List.getElem?_append] at at_
    split at at_
    · exact kept.tasks task found at_ free
    · rw [List.getElem?_singleton] at at_
      split at at_
      · cases at_
        exact keeps
      · cases at_
  round := kept.round
  scheduled := kept.scheduled
  timers := kept.timers

theorem addTask (kept : loop.Kept inv jobs busy) {body : Activity σ J (Exit Value)}
    (sustains : ∀ state, inv state → body.Sustains inv jobs state) :
    (loop.addTask body).2.Kept inv jobs busy := by
  apply Kept.schedule
  · apply kept.addStatus
    intro exit state holds
    cases exit with
    | ok value =>
        exact sustains state holds
    | error interrupt =>
        exact holds
  · trivial

theorem insertTimer {timer : Timer J} {timers : List (Timer J)}
    (begins : timer.item.Begins jobs) (others : ∀ other ∈ timers, other.item.Begins jobs) :
    ∀ other ∈ Loop.insertTimer timer timers, other.item.Begins jobs := by
  induction timers with
  | nil =>
      simpa [Loop.insertTimer] using begins
  | cons first rest ih =>
      intro other member
      rw [Loop.insertTimer] at member
      split at member
      · rcases List.mem_cons.1 member with rfl | later
        · exact begins
        · exact others other later
      · rcases List.mem_cons.1 member with rfl | later
        · exact others _ List.mem_cons_self
        · exact ih (fun other member => others other (List.mem_cons_of_mem _ member)) other
            later

theorem addTimer (kept : loop.Kept inv jobs busy) (seconds : Binary64)
    {item : TimerId → Item J} (begins : ∀ timer, (item timer).Begins jobs) :
    (loop.addTimer seconds item).2.Kept inv jobs busy where
  tasks := kept.tasks
  round := kept.round
  scheduled := kept.scheduled
  timers := insertTimer (begins _) kept.timers

theorem removeTimer (kept : loop.Kept inv jobs busy) (timer : TimerId) :
    (loop.removeTimer timer).Kept inv jobs busy where
  tasks := kept.tasks
  round item member := kept.round item (List.mem_filter.1 member).1
  scheduled item member := kept.scheduled item (List.mem_filter.1 member).1
  timers other member := kept.timers other (List.mem_filter.1 member).1

theorem release (kept : loop.Kept inv jobs busy) (task : TaskId) (answer : Exit Value) :
    (loop.release task answer).Kept inv jobs busy := by
  unfold Loop.release
  split
  · rename_i next found
    have keeps := kept.tasks task _ found
    apply Kept.schedule
    · exact kept.setStatus task keeps
    · trivial
  · exact kept

theorem releaseAll (kept : loop.Kept inv jobs busy) (waiting : List (TaskId × TaskId))
    (exit : Exit Value) :
    (waiting.foldl (fun loop (waiter, _) => loop.release waiter exit) loop).Kept inv jobs
      busy := by
  induction waiting generalizing loop with
  | nil =>
      exact kept
  | cons waiter rest ih =>
      exact ih (kept.release waiter.1 exit)

theorem finish (kept : loop.Kept inv jobs busy) (task : TaskId) (exit : Exit Value) :
    (loop.finish task exit).Kept inv jobs busy := by
  apply releaseAll
  apply withJoins
  exact kept.setStatus task fun _ => trivial

theorem finish_self {task : TaskId} (kept : loop.Kept inv jobs (· = task)) (exit : Exit Value) :
    (loop.finish task exit).Kept inv jobs fun _ => False := by
  apply releaseAll
  apply withJoins
  apply kept.setStatus_self
  trivial

theorem cancel (kept : loop.Kept inv jobs busy) (task : TaskId) (fuel : Nat) :
    (loop.cancel task fuel).Kept inv jobs busy := by
  induction fuel generalizing task with
  | zero =>
      exact kept
  | succ fuel ih =>
      rw [Loop.cancel]
      split
      · rename_i found
        have keeps := kept.tasks task _ found
        exact kept.setStatus task keeps
      · exact (kept.removeTimer _).release task _
      · exact ih _
      · exact kept.finish task _
      · exact kept
      · exact kept

theorem pass (kept : loop.Kept inv jobs busy) (task : TaskId) (interrupted : Bool) :
    (loop.pass task interrupted).Kept inv jobs busy := by
  unfold Loop.pass
  split
  · exact kept.cancel task _
  · exact kept

/-- What a task that gives way leaves to do is all that counts of it from then on. -/
theorem yield {task : TaskId} (kept : loop.Kept inv jobs (· = task))
    {next : Exit Value → Activity σ J (Exit Value)}
    (keeps : ∀ exit state, inv state → (next exit).Sustains inv jobs state) :
    (loop.yield task next).Kept inv jobs fun _ => False := by
  apply Kept.schedule
  · exact kept.setStatus_self keeps
  · trivial

theorem sleep {task : TaskId} (kept : loop.Kept inv jobs (· = task)) (seconds : Binary64)
    {next : Exit Value → Activity σ J (Exit Value)}
    (keeps : ∀ exit state, inv state → (next exit).Sustains inv jobs state) :
    (loop.sleep task seconds next).Kept inv jobs fun _ => False := by
  unfold Loop.sleep
  split
  · exact kept.yield keeps
  · apply setStatus_self
    · exact kept.addTimer seconds fun _ => trivial
    · exact keeps

theorem join {task : TaskId} (kept : loop.Kept inv jobs (· = task)) (awaited : TaskId)
    {next : Exit Value → Activity σ J (Exit Value)}
    (keeps : ∀ exit state, inv state → (next exit).Sustains inv jobs state) :
    (loop.join task awaited next).Kept inv jobs fun _ => False := by
  apply withJoins
  exact kept.setStatus_self keeps

end Kept

/-! ## What changes the state -/

@[simp]
theorem removeTimer_state (loop : Loop σ J) (timer : TimerId) :
    (loop.removeTimer timer).state = loop.state :=
  rfl

@[simp]
theorem release_state (loop : Loop σ J) (task : TaskId) (answer : Exit Value) :
    (loop.release task answer).state = loop.state := by
  unfold Loop.release
  split <;> rfl

theorem releaseAll_state (loop : Loop σ J) (waiting : List (TaskId × TaskId))
    (exit : Exit Value) :
    (waiting.foldl (fun loop (waiter, _) => loop.release waiter exit) loop).state =
      loop.state := by
  induction waiting generalizing loop with
  | nil =>
      rfl
  | cons waiter rest ih =>
      rw [List.foldl_cons, ih, release_state]

@[simp]
theorem finish_state (loop : Loop σ J) (task : TaskId) (exit : Exit Value) :
    (loop.finish task exit).state = loop.state := by
  exact releaseAll_state _ _ _

@[simp]
theorem cancel_state (loop : Loop σ J) (task : TaskId) (fuel : Nat) :
    (loop.cancel task fuel).state = loop.state := by
  induction fuel generalizing task with
  | zero =>
      rfl
  | succ fuel ih =>
      rw [Loop.cancel]
      split
      · rfl
      · rw [release_state, removeTimer_state]
      · exact ih _
      · exact finish_state _ _ _
      · rfl
      · rfl

@[simp]
theorem pass_state (loop : Loop σ J) (task : TaskId) (interrupted : Bool) :
    (loop.pass task interrupted).state = loop.state := by
  unfold pass
  split
  · exact cancel_state _ _ _
  · rfl

@[simp]
theorem sleep_state (loop : Loop σ J) (task : TaskId) (seconds : Binary64)
    (next : Exit Value → Activity σ J (Exit Value)) :
    (loop.sleep task seconds next).state = loop.state := by
  unfold sleep
  split <;> rfl

variable {inv : σ → Prop} {jobs : J → Prop}

/-- Running an activity from one wait to the next leaves the state that it sustains. -/
theorem perform_state {run : J → Activity σ J (Exit Value)} {task : TaskId}
    {activity : Activity σ J (Exit Value)} {loop : Loop σ J}
    (sustains : activity.Sustains inv jobs loop.state) :
    inv (perform run task loop activity).state := by
  induction activity generalizing loop with
  | done exit =>
      rw [perform, finish_state]
      exact sustains
  | get next ih =>
      exact ih _ sustains
  | put state next ih =>
      exact ih sustains
  | clock next ih =>
      exact ih _ (sustains _)
  | wait on next ih =>
      rcases sustains with ⟨holds, later⟩
      cases on with
      | turn =>
          rw [perform, pass_state]
          exact holds
      | sleep seconds =>
          rw [perform, pass_state, sleep_state]
          exact holds
      | task awaited =>
          rw [perform]
          split
          · exact ih _ (later _ _ holds)
          · rw [pass_state]
            exact holds
  | spawn job next ih =>
      exact ih _ (sustains.2 _)
  | promise next ih =>
      exact ih _ (sustains _)
  | settle promise exit next ih =>
      rw [perform]
      split
      · apply ih
        rw [finish_state]
        exact sustains
      · exact ih sustains
  | cancel other next ih =>
      apply ih
      rw [cancel_state]
      exact sustains
  | later seconds job next ih =>
      exact ih _ (sustains.2 _)
  | withdraw timer next ih =>
      exact ih sustains
  | peek other next ih =>
      exact ih _ (sustains _)

/-- Beginning a task and running it to its first wait leaves the state that the task
sustains. -/
theorem launch_state {run : J → Activity σ J (Exit Value)}
    {body : Activity σ J (Exit Value)} {loop : Loop σ J}
    (sustains : body.Sustains inv jobs loop.state) :
    inv (loop.launch run body).2.state := by
  exact perform_state sustains

theorem runItem_state {run : J → Activity σ J (Exit Value)} {loop : Loop σ J}
    (runs : ∀ job, jobs job → ∀ state, inv state → (run job).Sustains inv jobs state)
    (kept : loop.Kept inv jobs fun _ => False) (holds : inv loop.state) {item : Item J}
    (begins : item.Begins jobs) : inv (loop.runItem run item).state := by
  cases item with
  | resume task =>
      rw [runItem]
      split
      · rename_i found
        apply perform_state
        exact kept.tasks task _ found id _ _ holds
      · exact holds
  | wake task timer =>
      rw [runItem]
      split
      · split
        · rw [release_state]
          exact holds
        · exact holds
      · exact holds
  | run job timer =>
      exact launch_state (runs job begins _ holds)

namespace Kept

variable {busy : TaskId → Prop} {loop : Loop σ J}

/-- What is scheduled after a task has run from one wait to the next respects an
invariant if the task does. -/
theorem perform {run : J → Activity σ J (Exit Value)} {task : TaskId}
    {activity : Activity σ J (Exit Value)}
    (runs : ∀ job, jobs job → ∀ state, inv state → (run job).Sustains inv jobs state)
    (kept : loop.Kept inv jobs (· = task)) (sustains : activity.Sustains inv jobs loop.state) :
    (Loop.perform run task loop activity).Kept inv jobs fun _ => False := by
  induction activity generalizing loop with
  | done exit =>
      exact kept.finish_self _
  | get next ih =>
      exact ih _ kept sustains
  | put state next ih =>
      exact ih (kept.withState state) sustains
  | clock next ih =>
      exact ih _ kept (sustains _)
  | wait on next ih =>
      rcases sustains with ⟨holds, later⟩
      cases on with
      | turn =>
          exact (kept.yield later).pass task _
      | sleep seconds =>
          exact (kept.sleep seconds later).pass task _
      | task awaited =>
          rw [Loop.perform]
          split
          · exact ih _ kept (later _ _ holds)
          · exact (kept.join awaited later).pass task _
  | spawn job next ih =>
      exact ih _ (kept.addTask (runs job sustains.1)) (sustains.2 _)
  | promise next ih =>
      exact ih _ (kept.addStatus trivial) (sustains _)
  | settle promise exit next ih =>
      rw [Loop.perform]
      split
      · apply ih (kept.finish promise exit)
        rw [finish_state]
        exact sustains
      · exact ih kept sustains
  | cancel other next ih =>
      apply ih (kept.cancel other _)
      rw [cancel_state]
      exact sustains
  | later seconds job next ih =>
      exact ih _ (kept.addTimer seconds fun _ => sustains.1) (sustains.2 _)
  | withdraw timer next ih =>
      exact ih (kept.removeTimer timer) sustains
  | peek other next ih =>
      exact ih _ kept (sustains _)

/-- A task that is about to run may have any status. -/
theorem addBusy (kept : loop.Kept inv jobs fun _ => False) (status : Status σ J) :
    Kept inv jobs (· = loop.tasks.length) { loop with tasks := loop.tasks ++ [status] } where
  tasks := by
    intro task found at_ free
    rw [List.getElem?_append] at at_
    split at at_
    · exact kept.tasks task found at_ id
    · rw [List.getElem?_singleton] at at_
      split at at_
      · rename_i least first
        exact absurd (Nat.le_antisymm (Nat.sub_eq_zero_iff_le.1 first) (Nat.not_lt.1 least)) free
      · cases at_
  round := kept.round
  scheduled := kept.scheduled
  timers := kept.timers

/-- What is scheduled after a task has begun respects an invariant if the task
does. -/
theorem launch {run : J → Activity σ J (Exit Value)} {body : Activity σ J (Exit Value)}
    (runs : ∀ job, jobs job → ∀ state, inv state → (run job).Sustains inv jobs state)
    (kept : loop.Kept inv jobs fun _ => False) (sustains : body.Sustains inv jobs loop.state) :
    (loop.launch run body).2.Kept inv jobs fun _ => False := by
  exact perform runs (kept.addBusy _) sustains

/-- A task that runs is busy. -/
theorem asBusy (kept : loop.Kept inv jobs fun _ => False) (busy : TaskId → Prop) :
    loop.Kept inv jobs busy where
  tasks := fun task status found _ => kept.tasks task status found id
  round := kept.round
  scheduled := kept.scheduled
  timers := kept.timers

theorem runItem {run : J → Activity σ J (Exit Value)} {item : Item J}
    (runs : ∀ job, jobs job → ∀ state, inv state → (run job).Sustains inv jobs state)
    (kept : loop.Kept inv jobs fun _ => False) (holds : inv loop.state)
    (begins : item.Begins jobs) :
    (loop.runItem run item).Kept inv jobs fun _ => False := by
  cases item with
  | resume task =>
      rw [Loop.runItem]
      split
      · rename_i found
        refine perform runs ?_ (kept.tasks task _ found id _ _ holds)
        exact (kept.asBusy _).setStatus task fun idle => absurd rfl idle
      · exact kept
  | wake task timer =>
      rw [Loop.runItem]
      split
      · split
        · exact kept.release task _
        · exact kept
      · exact kept
  | run job timer =>
      exact launch runs kept (runs job begins _ holds)

theorem beginRound (kept : loop.Kept inv jobs busy) (time : Binary64) :
    (loop.beginRound time).Kept inv jobs busy where
  tasks := kept.tasks
  round := by
    intro item member
    rcases List.mem_append.1 member with scheduled | due
    · exact kept.scheduled item scheduled
    · rcases List.mem_map.1 due with ⟨timer, first, rfl⟩
      exact kept.timers timer ((List.takeWhile_prefix _).subset first)
  scheduled := by
    intro item member
    cases member
  timers := by
    intro timer later
    exact kept.timers timer ((List.dropWhile_suffix _).subset later)

/-- A step of a loop respects an invariant that all that is scheduled respects. -/
theorem step {run : J → Activity σ J (Exit Value)} {next : Loop σ J}
    (runs : ∀ job, jobs job → ∀ state, inv state → (run job).Sustains inv jobs state)
    (kept : loop.Kept inv jobs fun _ => False) (holds : inv loop.state)
    (stepped : loop.step run = some next) :
    next.Kept inv jobs (fun _ => False) ∧ inv next.state := by
  unfold Loop.step at stepped
  split at stepped
  · rename_i item rest round
    cases stepped
    have shorter : Kept inv jobs (fun _ => False) { loop with round := rest } := {
      tasks := kept.tasks
      round := fun other member =>
        kept.round other (by rw [round]; exact List.mem_cons_of_mem _ member)
      scheduled := kept.scheduled
      timers := kept.timers }
    have begins := kept.round item (by rw [round]; exact List.mem_cons_self)
    exact ⟨shorter.runItem runs holds begins, runItem_state runs shorter holds begins⟩
  · split at stepped
    · cases stepped
      exact ⟨kept.beginRound _, holds⟩
    · split at stepped
      · cases stepped
      · cases stepped
        exact ⟨kept.beginRound _, holds⟩

/-- Nothing is scheduled in a loop that has just started. -/
theorem start (state : σ) : (Loop.start state).Kept (J := J) inv jobs fun _ => False where
  tasks := by
    intro task status found
    simp [Loop.start] at found
  round := by
    intro item member
    cases member
  scheduled := by
    intro item member
    cases member
  timers := by
    intro timer member
    cases member

end Kept

end Loop

end Steward
