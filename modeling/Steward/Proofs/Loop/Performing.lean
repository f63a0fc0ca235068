import Mathlib.Logic.Relation
import Steward.Proofs.Loop.Coherence

/-!
# What performing a task does

A task that is performed goes from one wait to the next.  Meanwhile the loop stays coherent,
and afterwards the loop stands for what is left of the task: if the task is over, so is its
entry in the loop, and if it waits, the entry waits for the same thing or has its answer.
-/

namespace Steward.Loop

variable {σ J : Type}

variable {loop before middle after : Loop σ J} {busy still : Option TaskId} {task : TaskId}

/-! ## The status of one task -/

/-- A loop sets the status of one task anew, and schedules it if it is to go on. -/
structure Resets (busy still : Option TaskId) (before after : Loop σ J) (task : TaskId)
    (old new : Status σ J) : Prop where
  present : before.tasks[task]? = some old
  tasks : after.tasks = before.tasks.set task new
  free : ∀ awaited next, old ≠ .blocked (.task awaited) next
  runs : ∀ exit, old ≠ .finished exit ∧ new ≠ .finished exit
  joins : ∀ waiter awaited, (waiter, awaited) ∈ after.joins ↔
    (waiter, awaited) ∈ before.joins ∨
      waiter = task ∧ ∃ next, new = .blocked (.task awaited) next
  awaits : ∀ awaited next, new = .blocked (.task awaited) next → before.exit? awaited = none
  round : ∀ task, .resume task ∈ before.round → .resume task ∈ after.round
  scheduled : ∀ task, .resume task ∈ before.scheduled → .resume task ∈ after.scheduled
  shrinks : after.round.length ≤ before.round.length
  resumes : (∃ answer next, new = .ready answer next) → still ≠ some task →
    .resume task ∈ after.round ∨ .resume task ∈ after.scheduled
  turns : busy ≠ some task → old.Turns after new
  stays : still = busy ∧ (busy = some task → ∃ answer next, new = .ready answer next) ∨
    busy = some task ∧ still = none

namespace Resets

variable {old new : Status σ J}

theorem getElem?_self (resets : Resets busy still before after task old new) :
    after.tasks[task]? = some new := by
  rw [resets.tasks]
  exact List.getElem?_set_self (List.getElem?_eq_some_iff.1 resets.present).1

theorem getElem?_ne (resets : Resets busy still before after task old new) {other : TaskId}
    (differs : other ≠ task) : after.tasks[other]? = before.tasks[other]? := by
  rw [resets.tasks]
  exact List.getElem?_set_ne (Ne.symm differs)

theorem exit?_eq (resets : Resets busy still before after task old new) (other : TaskId) :
    after.exit? other = before.exit? other := by
  by_cases same : other = task
  · subst same
    have ended : ∀ {status : Status σ J} {loop : Loop σ J}, loop.tasks[other]? = some status →
        (∀ exit, status ≠ .finished exit) → loop.exit? other = none := by
      intro status loop found runs
      apply Option.eq_none_iff_forall_ne_some.2
      intro exit stops
      rw [exit?_eq_some_iff, found] at stops
      exact runs exit (Option.some.inj stops)
    rw [ended resets.getElem?_self fun exit => (resets.runs exit).2,
      ended resets.present fun exit => (resets.runs exit).1]
  · rw [exit?, exit?, resets.getElem?_ne same]

/-- Whoever is busy afterwards was busy before. -/
theorem busy_of_still (resets : Resets busy still before after task old new) {other : TaskId}
    (isBusy : still = some other) :
    busy = some other ∧ (other = task → ∃ answer next, new = .ready answer next) := by
  rcases resets.stays with ⟨rfl, ready⟩ | ⟨-, rfl⟩
  · refine ⟨isBusy, ?_⟩
    rintro rfl
    exact ready isBusy
  · cases isBusy

theorem idle_of_ne (resets : Resets busy still before after task old new) {other : TaskId}
    (idle : still ≠ some other) (differs : other ≠ task) : busy ≠ some other := by
  rcases resets.stays with ⟨rfl, -⟩ | ⟨isTask, -⟩
  · exact idle
  · intro isOther
    exact differs (Option.some.inj (isOther.symm.trans isTask))

theorem coherent (resets : Resets busy still before after task old new)
    (coherent : before.Coherent busy) : after.Coherent still := by
  constructor
  · intro other isBusy
    rcases resets.busy_of_still isBusy with ⟨wasBusy, readies⟩
    by_cases same : other = task
    · rcases readies same with ⟨answer, next, rfl⟩
      subst same
      exact ⟨answer, next, resets.getElem?_self⟩
    · rcases coherent.runs other wasBusy with ⟨answer, next, found⟩
      exact ⟨answer, next, (resets.getElem?_ne same).trans found⟩
  · rintro other ⟨answer, next, found⟩ idle
    by_cases same : other = task
    · subst same
      rw [resets.getElem?_self] at found
      exact resets.resumes ⟨answer, next, Option.some.inj found⟩ idle
    · rw [resets.getElem?_ne same] at found
      exact (coherent.scheduled other ⟨answer, next, found⟩ (resets.idle_of_ne idle same)).imp
        (resets.round other) (resets.scheduled other)
  · intro other awaited next found
    rw [resets.exit?_eq]
    by_cases same : other = task
    · subst same
      rw [resets.getElem?_self] at found
      have waits := Option.some.inj found
      exact ⟨(resets.joins other awaited).2 (.inr ⟨rfl, next, waits⟩),
        resets.awaits awaited next waits⟩
    · rw [resets.getElem?_ne same] at found
      rcases coherent.waits other awaited next found with ⟨noted, running⟩
      exact ⟨(resets.joins other awaited).2 (.inl noted), running⟩
  · intro other awaited noted
    rcases (resets.joins other awaited).1 noted with already | ⟨rfl, next, waits⟩
    · rcases coherent.joins other awaited already with ⟨next, found⟩
      have differs : other ≠ task := by
        rintro rfl
        rw [resets.present] at found
        exact resets.free awaited next (Option.some.inj found)
      exact ⟨next, (resets.getElem?_ne differs).trans found⟩
    · exact ⟨next, resets.getElem?_self.trans (congrArg some waits)⟩

theorem leads (resets : Resets busy still before after task old new)
    (coherent : before.Coherent busy) : Leads busy still before after where
  coherent := resets.coherent coherent
  turns := by
    intro other status idle found
    by_cases same : other = task
    · subst same
      cases resets.present.symm.trans found
      exact ⟨new, resets.getElem?_self, resets.turns idle⟩
    · exact ⟨status, (resets.getElem?_ne same).trans found, .stays status⟩
  round := resets.round
  scheduled := resets.scheduled
  shrinks := resets.shrinks

end Resets

/-! ## Cancelling -/

theorem Coherent.refl (coherent : loop.Coherent busy) : Leads busy busy loop loop := by
  exact coherent.same rfl rfl (fun _ => id) (fun _ => id) (Nat.le_refl _)

/-- A task that has not ended, and waits for no other one, is to go on with an answer. -/
theorem Coherent.readies (coherent : before.Coherent busy) {old : Status σ J}
    {next : Exit Value → Activity σ J (Exit Value)} {answer : Exit Value}
    (present : before.tasks[task]? = some old)
    (tasks : after.tasks = before.tasks.set task (.ready answer next))
    (joins : after.joins = before.joins) (round : after.round = before.round)
    (free : ∀ awaited next, old ≠ .blocked (.task awaited) next)
    (runs : ∀ exit, old ≠ .finished exit)
    (scheduled : ∀ task, .resume task ∈ before.scheduled → .resume task ∈ after.scheduled)
    (resumes : busy ≠ some task → .resume task ∈ after.round ∨ .resume task ∈ after.scheduled)
    (turns : busy ≠ some task → old.Turns after (.ready answer next)) :
    Leads busy busy before after := by
  have resets : Resets busy busy before after task old (.ready answer next) := {
    present := present
    tasks := tasks
    free := free
    runs := fun exit => ⟨runs exit, nofun⟩
    joins := by simp [joins]
    awaits := by simp
    round := by simp [round]
    scheduled := scheduled
    shrinks := Nat.le_of_eq (congrArg List.length round)
    resumes := fun _ => resumes
    turns := turns
    stays := .inl ⟨rfl, fun _ => ⟨answer, next, rfl⟩⟩ }
  exact resets.leads coherent

/-- A task that sleeps goes on. -/
theorem Coherent.release (coherent : loop.Coherent busy) {timer : TimerId}
    {next : Exit Value → Activity σ J (Exit Value)} {answer : Exit Value}
    (found : loop.tasks[task]? = some (.blocked (.timer timer) next))
    (answered : answer = .error .cancelled ∨ answer = .ok .null) :
    Leads busy busy loop (loop.release task answer) := by
  have released : loop.release task answer =
      (loop.setStatus task (.ready answer next)).schedule (.resume task) := by
    rw [Loop.release, found]
  rw [released]
  refine coherent.readies found rfl rfl rfl ?_ ?_ ?_ ?_ fun _ => .wakes answered
  · intro awaited next absurdity
    cases absurdity
  · intro exit absurdity
    cases absurdity
  · intro other member
    exact List.mem_append_left _ member
  · intro idle
    exact .inr (List.mem_append_right _ List.mem_cons_self)

/-- A task that is ready finds out that it was cancelled. -/
theorem Coherent.interrupt (coherent : loop.Coherent busy)
    {next : Exit Value → Activity σ J (Exit Value)} {answer : Exit Value}
    (found : loop.tasks[task]? = some (.ready answer next)) :
    Leads busy busy loop (loop.setStatus task (.ready (.error .cancelled) next)) := by
  refine coherent.readies found rfl rfl rfl ?_ ?_ ?_ ?_ fun _ => .cancelled
  · intro awaited next absurdity
    cases absurdity
  · intro exit absurdity
    cases absurdity
  · exact fun _ => id
  · intro idle
    exact coherent.scheduled task ⟨answer, next, found⟩ idle

/-- The busy task is not cancelled, as far as it knows. -/
theorem Coherent.rouse (coherent : loop.Coherent (some task))
    (next : Exit Value → Activity σ J (Exit Value)) :
    Leads (some task) (some task) loop (loop.rouse task next) := by
  rcases coherent.runs task rfl with ⟨answer, old, found⟩
  refine coherent.readies found rfl rfl rfl ?_ ?_ ?_ ?_ ?_
  · intro awaited next absurdity
    cases absurdity
  · intro exit absurdity
    cases absurdity
  · exact fun _ => id
  · exact fun idle => absurd rfl idle
  · exact fun idle => absurd rfl idle

theorem Coherent.cancel (coherent : loop.Coherent busy) (task : TaskId) (fuel : Nat) :
    Leads busy busy loop (loop.cancel task fuel) := by
  induction fuel generalizing task with
  | zero =>
      exact coherent.refl
  | succ fuel ih =>
      rw [Loop.cancel]
      split
      · rename_i found
        exact coherent.interrupt found
      · rename_i timer next found
        have removed := coherent.removeTimer timer
        exact removed.trans (removed.coherent.release found (.inl rfl))
      · rename_i awaited _ _
        exact ih awaited
      · rename_i found
        exact coherent.finish _ (.inl ⟨found, rfl⟩)
      · exact coherent.refl
      · exact coherent.refl

theorem Coherent.pass (coherent : loop.Coherent busy) (task : TaskId) (interrupted : Bool) :
    Leads busy busy loop (loop.pass task interrupted) := by
  unfold Loop.pass
  split
  · exact coherent.cancel task _
  · exact coherent.refl

/-! ## Who is alive -/

/-- A task has begun or is to begin, and has not ended. -/
def IsAlive (loop : Loop σ J) (task : TaskId) : Prop :=
  loop.IsReady task ∨ ∃ on next, loop.tasks[task]? = some (.blocked on next)

theorem IsAlive.exit? (alive : loop.IsAlive task) : loop.exit? task = none := by
  rw [Loop.exit?]
  rcases alive with ⟨_, _, found⟩ | ⟨_, _, found⟩
  all_goals rw [found]

/-- Whoever is alive stays so while others end. -/
theorem Leads.isAlive (leads : Leads busy busy before after) (alive : before.IsAlive task) :
    after.IsAlive task := by
  by_cases isBusy : busy = some task
  · exact .inl (leads.coherent.runs task isBusy)
  · rcases alive with ⟨_, _, found⟩ | ⟨_, _, found⟩
    all_goals
      rcases leads.turns task _ isBusy found with ⟨turned, there, turns⟩
      cases turns
    · exact .inl ⟨_, _, there⟩
    · exact .inl ⟨_, _, there⟩
    · exact .inr ⟨_, _, there⟩
    · exact .inl ⟨_, _, there⟩
    · exact .inl ⟨_, _, there⟩

/-! ## Who is interrupted -/

theorem isInterrupted_eq_true_iff :
    loop.isInterrupted task = true ↔
      ∃ next, loop.tasks[task]? = some (.ready (.error .cancelled) next) := by
  unfold isInterrupted
  split
  · rename_i next found
    exact ⟨fun _ => ⟨next, found⟩, fun _ => rfl⟩
  · rename_i other
    refine ⟨nofun, ?_⟩
    rintro ⟨next, found⟩
    exact absurd found (other next)

theorem isInterrupted_concat {status : Status σ J}
    (interrupted : loop.isInterrupted task = true)
    (tasks : after.tasks = loop.tasks ++ [status]) : after.isInterrupted task = true := by
  rcases isInterrupted_eq_true_iff.1 interrupted with ⟨next, found⟩
  refine isInterrupted_eq_true_iff.2 ⟨next, ?_⟩
  rw [tasks]
  exact getElem?_concat_of_some status found

/-- A task that is scheduled or being performed stays as it is while another one ends. -/
theorem getElem?_finish_of_ready {answer : Exit Value}
    {next : Exit Value → Activity σ J (Exit Value)} {other : TaskId} (exit : Exit Value)
    (found : loop.tasks[task]? = some (.ready answer next)) (differs : task ≠ other) :
    (loop.finish other exit).tasks[task]? = some (.ready answer next) := by
  rw [getElem?_finish, List.getElem?_set_ne differs.symm, found]
  split <;> rfl

theorem getElem?_settle_of_ready {answer : Exit Value}
    {next : Exit Value → Activity σ J (Exit Value)} (promise : TaskId) (exit : Exit Value)
    (found : loop.tasks[task]? = some (.ready answer next)) :
    (loop.settle promise exit).tasks[task]? = some (.ready answer next) := by
  unfold Loop.settle
  split
  · rename_i promised
    apply getElem?_finish_of_ready exit found
    rintro rfl
    cases promised.symm.trans found
  · exact found

theorem isInterrupted_settle (promise : TaskId) (exit : Exit Value)
    (interrupted : loop.isInterrupted task = true) :
    (loop.settle promise exit).isInterrupted task = true := by
  rcases isInterrupted_eq_true_iff.1 interrupted with ⟨next, found⟩
  exact isInterrupted_eq_true_iff.2 ⟨next, getElem?_settle_of_ready promise exit found⟩

/-- Whoever is interrupted stays so when somebody is cancelled. -/
theorem isInterrupted_cancel (other : TaskId) (fuel : Nat)
    (interrupted : loop.isInterrupted task = true) :
    (loop.cancel other fuel).isInterrupted task = true := by
  rcases isInterrupted_eq_true_iff.1 interrupted with ⟨next, found⟩
  induction fuel generalizing other with
  | zero =>
      exact interrupted
  | succ fuel ih =>
      rw [Loop.cancel]
      split
      · rename_i answer resumed there
        refine isInterrupted_eq_true_iff.2 ?_
        by_cases same : other = task
        · subst same
          exact ⟨resumed, List.getElem?_set_self (List.getElem?_eq_some_iff.1 there).1⟩
        · exact ⟨next, (List.getElem?_set_ne same).trans found⟩
      · rename_i timer resumed there
        have differs : other ≠ task := by
          rintro rfl
          cases there.symm.trans found
        refine isInterrupted_eq_true_iff.2 ⟨next, ?_⟩
        rw [getElem?_release, if_neg differs]
        exact found
      · exact ih _
      · rename_i promised
        have differs : task ≠ other := by
          rintro rfl
          cases promised.symm.trans found
        exact isInterrupted_eq_true_iff.2 ⟨next, getElem?_finish_of_ready _ found differs⟩
      · exact interrupted
      · exact interrupted

theorem Coherent.settle (coherent : loop.Coherent busy) (promise : TaskId) (exit : Exit Value) :
    Leads busy busy loop (loop.settle promise exit) := by
  unfold Loop.settle
  split
  · rename_i found
    exact coherent.finish exit (.inl ⟨found, rfl⟩)
  · exact coherent.refl

/-! ## How many tasks there are -/

theorem length_release (loop : Loop σ J) (task : TaskId) (answer : Exit Value) :
    (loop.release task answer).tasks.length = loop.tasks.length := by
  unfold Loop.release
  split
  · exact List.length_set
  · rfl

theorem length_releaseAll (loop : Loop σ J) (waiting : List (TaskId × TaskId))
    (answer : Exit Value) :
    (loop.releaseAll waiting answer).tasks.length = loop.tasks.length := by
  induction waiting generalizing loop with
  | nil =>
      rfl
  | cons first rest ih =>
      rw [releaseAll_cons, ih, length_release]

theorem length_finish (loop : Loop σ J) (task : TaskId) (exit : Exit Value) :
    (loop.finish task exit).tasks.length = loop.tasks.length := by
  rw [finish_eq, length_releaseAll]
  exact List.length_set

theorem length_settle (loop : Loop σ J) (promise : TaskId) (exit : Exit Value) :
    (loop.settle promise exit).tasks.length = loop.tasks.length := by
  unfold Loop.settle
  split
  · exact length_finish loop promise exit
  · rfl

theorem length_cancel (loop : Loop σ J) (task : TaskId) (fuel : Nat) :
    (loop.cancel task fuel).tasks.length = loop.tasks.length := by
  induction fuel generalizing task with
  | zero =>
      rfl
  | succ fuel ih =>
      rw [Loop.cancel]
      split
      · exact List.length_set
      · exact length_release _ task _
      · exact ih _
      · exact length_finish loop task _
      · rfl
      · rfl

/-! ## From one wait to the next -/

end Loop

/-- What a task may end with that has come to an exit: one that was cancelled on the way has no
value. -/
inductive Exit.MayEnd : Exit Value → Exit Value → Prop where
  | itself (exit : Exit Value) : Exit.MayEnd exit exit
  | cancelled (value : Value) : Exit.MayEnd (.ok value) (.error .cancelled)

namespace Loop

variable {loop before middle after : Loop σ J} {busy still : Option TaskId} {task : TaskId}

theorem ending_mayEnd (loop : Loop σ J) (task : TaskId) (exit : Exit Value) :
    exit.MayEnd (loop.ending task exit) := by
  cases exit with
  | error interrupt =>
      exact .itself _
  | ok value =>
      rw [ending]
      split
      · exact .cancelled value
      · exact .itself _

theorem ending_of_interrupted (interrupted : loop.isInterrupted task = true) :
    ∀ value, loop.ending task (.ok value) = .error .cancelled := by
  intro value
  rw [ending, if_pos interrupted]

/-- A task is being performed and was not cancelled meanwhile. -/
def IsRoused (loop : Loop σ J) (task : TaskId) : Prop :=
  ∃ next, loop.tasks[task]? = some (.ready (.ok .null) next)

theorem length_rouse (loop : Loop σ J) (task : TaskId)
    (next : Exit Value → Activity σ J (Exit Value)) :
    (loop.rouse task next).tasks.length = loop.tasks.length := List.length_set

theorem isRoused_rouse (known : task < loop.tasks.length)
    (next : Exit Value → Activity σ J (Exit Value)) : (loop.rouse task next).IsRoused task :=
  ⟨next, List.getElem?_set_self known⟩

namespace IsRoused

theorem isInterrupted (roused : loop.IsRoused task) : loop.isInterrupted task = false := by
  rcases roused with ⟨next, found⟩
  rw [Loop.isInterrupted, found]

/-- It ends as it comes to an end. -/
theorem ending (roused : loop.IsRoused task) (exit : Exit Value) :
    loop.ending task exit = exit := by
  cases exit with
  | error interrupt =>
      rfl
  | ok value =>
      rw [Loop.ending, roused.isInterrupted]
      rfl

theorem concat (roused : loop.IsRoused task) (status : Status σ J) :
    IsRoused { loop with tasks := loop.tasks ++ [status] } task :=
  roused.imp fun _ found => getElem?_concat_of_some status found

theorem settle (roused : loop.IsRoused task) (promise : TaskId) (exit : Exit Value) :
    (loop.settle promise exit).IsRoused task :=
  roused.imp fun _ => getElem?_settle_of_ready promise exit

end IsRoused

/-- The entry of a task in a loop is that of a task of which something is left. -/
def Stands (loop : Loop σ J) (task : TaskId) : Activity σ J (Exit Value) → Prop
  | .done exit => ∃ ended, exit.MayEnd ended ∧ loop.exit? task = some ended
  | .wait on next =>
    (∃ answer, loop.tasks[task]? = some (.ready answer next) ∧ on.Answered loop answer) ∨
      (∃ seconds timer, on = .sleep seconds ∧
        loop.tasks[task]? = some (.blocked (.timer timer) next)) ∨
      ∃ awaited, on = .task awaited ∧
        loop.tasks[task]? = some (.blocked (.task awaited) next)
  | _ => False

/-- While the loop goes on with other tasks, a task stands for the same. -/
theorem Leads.stands (leads : Leads busy still before after) (coherent : before.Coherent busy)
    (idle : busy ≠ some task) {left : Activity σ J (Exit Value)}
    (stands : before.Stands task left) : after.Stands task left := by
  cases left with
  | done exit =>
      rcases stands with ⟨ended, mayEnd, isOver⟩
      exact ⟨ended, mayEnd, leads.exit? coherent isOver⟩
  | wait on next =>
      rcases stands with ⟨answer, found, answered⟩ | ⟨seconds, timer, rfl, found⟩ |
        ⟨awaited, rfl, found⟩
      · rcases leads.turns task _ idle found with ⟨turned, there, turns⟩
        cases turns with
        | stays =>
            exact .inl ⟨answer, there, answered.mono (leads.exit? coherent)⟩
        | cancelled =>
            refine .inl ⟨_, there, ?_⟩
            cases on <;> exact .inl rfl
      · rcases leads.turns task _ idle found with ⟨turned, there, turns⟩
        cases turns with
        | stays =>
            exact .inr (.inl ⟨seconds, timer, rfl, there⟩)
        | wakes answered =>
            exact .inl ⟨_, there, answered⟩
      · rcases leads.turns task _ idle found with ⟨turned, there, turns⟩
        cases turns with
        | stays =>
            exact .inr (.inr ⟨awaited, rfl, there⟩)
        | joins answered =>
            exact .inl ⟨_, there, answered⟩
  | _ =>
      exact stands.elim

/-- A task that waits has not ended. -/
theorem exit?_of_stands {on : Wait} {next : Exit Value → Activity σ J (Exit Value)}
    (stands : loop.Stands task (.wait on next)) : loop.exit? task = none := by
  rw [exit?]
  rcases stands with ⟨_, found, -⟩ | ⟨_, _, _, found⟩ | ⟨_, _, found⟩
  all_goals rw [found]

/-- A task that waits is alive. -/
theorem isAlive_of_stands {on : Wait} {next : Exit Value → Activity σ J (Exit Value)}
    (stands : loop.Stands task (.wait on next)) : loop.IsAlive task := by
  rcases stands with ⟨_, found, -⟩ | ⟨_, _, -, found⟩ | ⟨_, -, found⟩
  · exact .inl ⟨_, _, found⟩
  · exact .inr ⟨_, _, found⟩
  · exact .inr ⟨_, _, found⟩

/-- A task that is ready goes on with the answer to its wait. -/
theorem answered_of_stands {on : Wait} {next resumed : Exit Value → Activity σ J (Exit Value)}
    {answer : Exit Value} (stands : loop.Stands task (.wait on next))
    (found : loop.tasks[task]? = some (.ready answer resumed)) :
    next = resumed ∧ on.Answered loop answer := by
  rcases stands with ⟨_, there, answered⟩ | ⟨_, _, -, there⟩ | ⟨_, -, there⟩
  · cases found.symm.trans there
    exact ⟨rfl, answered⟩
  · cases found.symm.trans there
  · cases found.symm.trans there

/-- A promise stays open until it is kept or cancelled. -/
theorem Leads.promise (leads : Leads busy still before after) (idle : busy ≠ some task)
    (promised : before.tasks[task]? = some .open) :
    after.tasks[task]? = some .open ∨ ∃ exit, after.exit? task = some exit := by
  rcases leads.turns task _ idle promised with ⟨turned, there, turns⟩
  cases turns with
  | stays =>
      exact .inl there
  | settles =>
      exact .inr ⟨_, exit?_eq_some_iff.2 there⟩

/-- What a task has done when it waits again or is over: the loop stands for what is left
of it, and each wait on the way was answered as it had to be. -/
structure Performed (task : TaskId) (before after : Loop σ J)
    (account : List (Happening σ J) × Activity σ J (Exit Value)) : Prop where
  leads : Leads (some task) none before after
  stands : after.Stands task account.2
  answered : ∀ on answer, .waited on answer ∈ account.1 → on.Answered after answer

namespace Performed

variable {account : List (Happening σ J) × Activity σ J (Exit Value)}

theorem since (rest : Performed task middle after account)
    (first : Leads (some task) (some task) before middle) :
    Performed task before after account where
  leads := first.trans rest.leads
  stands := rest.stands
  answered := rest.answered

theorem note (rest : Performed task before after account) {happening : Happening σ J}
    (answered : ∀ on answer, happening = .waited on answer → on.Answered after answer) :
    Performed task before after (account.map (happening :: ·) id) where
  leads := rest.leads
  stands := rest.stands
  answered := by
    intro on answer member
    rcases List.mem_cons.1 member with here | later
    · exact answered on answer here.symm
    · exact rest.answered on answer later

theorem pass (rest : Performed task before after account) {happening : Happening σ J}
    (quiet : ∀ on answer, happening ≠ .waited on answer) :
    Performed task before after (account.map (happening :: ·) id) := by
  apply rest.note
  intro on answer waited
  exact absurd waited (quiet on answer)

end Performed

/-- What a task has done stays so when it finds out that it was cancelled. -/
theorem Performed.told {account : List (Happening σ J) × Activity σ J (Exit Value)}
    (performed : Performed task before after account) (interrupted : Bool) :
    Performed task before (after.pass task interrupted) account := by
  have leads := performed.leads.coherent.pass task interrupted
  constructor
  · exact performed.leads.andThen leads fun _ _ _ _ => nofun
  · exact leads.stands performed.leads.coherent nofun performed.stands
  · intro on answer member
    exact (performed.answered on answer member).mono (leads.exit? performed.leads.coherent)

/-- The busy task gives way. -/
theorem Coherent.giveWay (coherent : before.Coherent (some task)) {new : Status σ J}
    (tasks : after.tasks = before.tasks.set task new) (round : after.round = before.round)
    (runs : ∀ exit, new ≠ .finished exit)
    (joins : ∀ waiter awaited, (waiter, awaited) ∈ after.joins ↔
      (waiter, awaited) ∈ before.joins ∨
        waiter = task ∧ ∃ next, new = .blocked (.task awaited) next)
    (awaits : ∀ awaited next, new = .blocked (.task awaited) next → before.exit? awaited = none)
    (scheduled : ∀ task, .resume task ∈ before.scheduled → .resume task ∈ after.scheduled)
    (resumes : (∃ answer next, new = .ready answer next) → .resume task ∈ after.scheduled)
    {left : Activity σ J (Exit Value)} (stands : after.tasks[task]? = some new →
      after.Stands task left) : Performed task before after ([], left) := by
  rcases coherent.runs task rfl with ⟨answer, next, found⟩
  have resets : Resets (some task) none before after task (.ready answer next) new := {
    present := found
    tasks := tasks
    free := by simp
    runs := fun exit => ⟨nofun, runs exit⟩
    joins := joins
    awaits := awaits
    round := by simp [round]
    scheduled := scheduled
    shrinks := Nat.le_of_eq (congrArg List.length round)
    resumes := fun ready _ => .inr (resumes ready)
    turns := fun idle => absurd rfl idle
    stays := .inr ⟨rfl, rfl⟩ }
  refine ⟨resets.leads coherent, stands resets.getElem?_self, ?_⟩
  intro on answer member
  cases member

/-- The busy task goes on in the next round. -/
theorem Coherent.yield (coherent : loop.Coherent (some task)) {on : Wait}
    {next : Exit Value → Activity σ J (Exit Value)}
    (answered : on.Answered (loop.yield task next) (.ok .null)) :
    Performed task loop (loop.yield task next) ([], .wait on next) := by
  refine coherent.giveWay ?_ ?_ ?_ ?_ ?_ ?_ ?_ fun found => .inl ⟨_, found, answered⟩
  · rfl
  · rfl
  · intro exit absurdity
    cases absurdity
  · intro waiter awaited
    show (waiter, awaited) ∈ loop.joins ↔ _
    simp
  · intro awaited next absurdity
    cases absurdity
  · intro other member
    exact List.mem_append_left _ member
  · intro _
    exact List.mem_append_right _ List.mem_cons_self

/-- The busy task is blocked. -/
theorem Coherent.block (coherent : before.Coherent (some task)) (blocker : Blocker) {on : Wait}
    {next : Exit Value → Activity σ J (Exit Value)}
    (tasks : after.tasks = before.tasks.set task (.blocked blocker next))
    (round : after.round = before.round) (scheduled : after.scheduled = before.scheduled)
    (joins : ∀ waiter awaited, (waiter, awaited) ∈ after.joins ↔
      (waiter, awaited) ∈ before.joins ∨ waiter = task ∧ blocker = .task awaited)
    (blocks : (∃ seconds timer, on = .sleep seconds ∧ blocker = .timer timer) ∨
      ∃ awaited, on = .task awaited ∧ blocker = .task awaited ∧ before.exit? awaited = none) :
    Performed task before after ([], .wait on next) := by
  refine coherent.giveWay tasks round ?_ ?_ ?_ ?_ ?_ ?_
  · intro exit absurdity
    cases absurdity
  · intro waiter awaited
    rw [joins]
    simp
  · rintro awaited _ ⟨⟩
    rcases blocks with ⟨_, _, -, absurdity⟩ | ⟨_, -, same, running⟩
    · cases absurdity
    · cases same
      exact running
  · intro other member
    rw [scheduled]
    exact member
  · rintro ⟨answer, next, absurdity⟩
    cases absurdity
  · intro found
    rcases blocks with ⟨seconds, timer, rfl, rfl⟩ | ⟨awaited, rfl, rfl, -⟩
    · exact .inr (.inl ⟨seconds, timer, rfl, found⟩)
    · exact .inr (.inr ⟨awaited, rfl, found⟩)

theorem Coherent.sleep (coherent : loop.Coherent (some task)) (seconds : Binary64)
    (next : Exit Value → Activity σ J (Exit Value)) :
    Performed task loop (loop.sleep task seconds next) ([], .wait (.sleep seconds) next) := by
  unfold Loop.sleep
  split
  · exact coherent.yield (.inr rfl)
  · have first := coherent.addTimer seconds (.wake task)
    apply Performed.since _ first
    refine first.coherent.block (.timer loop.timersSet) ?_ ?_ ?_ ?_ ?_
    · rfl
    · rfl
    · rfl
    · intro waiter awaited
      show (waiter, awaited) ∈ loop.joins ↔ (waiter, awaited) ∈ loop.joins ∨ _
      simp
    · exact .inl ⟨seconds, _, rfl, rfl⟩

theorem Coherent.join (coherent : loop.Coherent (some task)) {awaited : TaskId}
    (running : loop.exit? awaited = none) (next : Exit Value → Activity σ J (Exit Value)) :
    Performed task loop (loop.join task awaited next) ([], .wait (.task awaited) next) := by
  refine coherent.block (.task awaited) ?_ ?_ ?_ ?_ (.inr ⟨awaited, rfl, rfl, running⟩)
  · rfl
  · rfl
  · rfl
  · intro waiter other
    show (waiter, other) ∈ loop.joins ++ [(task, awaited)] ↔ _
    simp [eq_comm]

/-- Let a task wait. -/
def suspend (loop : Loop σ J) (task : TaskId) :
    Wait → (Exit Value → Activity σ J (Exit Value)) → Loop σ J
  | .turn, next => loop.yield task next
  | .sleep seconds, next => loop.sleep task seconds next
  | .task awaited, next => loop.join task awaited next

/-- A task that has to wait does so, and finds out then that it was cancelled. -/
theorem perform_wait (run : J → Activity σ J (Exit Value)) {on : Wait}
    (waits : ∀ awaited, on = .task awaited → loop.exit? awaited = none)
    (next : Exit Value → Activity σ J (Exit Value)) :
    account run task loop (.wait on next) = ([], .wait on next) ∧
      perform run task loop (.wait on next) =
        (loop.suspend task on next).pass task (loop.isInterrupted task) := by
  cases on with
  | turn | sleep =>
      exact ⟨rfl, rfl⟩
  | task awaited =>
      simp only [perform, account, waits awaited rfl]
      exact ⟨trivial, rfl⟩

theorem suspend_state (loop : Loop σ J) (task : TaskId) (on : Wait)
    (next : Exit Value → Activity σ J (Exit Value)) :
    (loop.suspend task on next).state = loop.state := by
  cases on with
  | turn | task =>
      rfl
  | sleep seconds =>
      exact sleep_state loop task seconds next

theorem length_suspend (loop : Loop σ J) (task : TaskId) (on : Wait)
    (next : Exit Value → Activity σ J (Exit Value)) :
    (loop.suspend task on next).tasks.length = loop.tasks.length := by
  cases on with
  | turn | task =>
      exact List.length_set
  | sleep seconds =>
      rw [suspend, Loop.sleep]
      split
      · exact List.length_set
      · exact List.length_set

theorem Coherent.suspend (coherent : loop.Coherent (some task)) {on : Wait}
    (waits : ∀ awaited, on = .task awaited → loop.exit? awaited = none)
    (next : Exit Value → Activity σ J (Exit Value)) :
    Performed task loop (loop.suspend task on next) ([], .wait on next) := by
  cases on with
  | turn =>
      exact coherent.yield (.inr rfl)
  | sleep seconds =>
      exact coherent.sleep seconds next
  | task awaited =>
      exact coherent.join (waits awaited rfl) next

/-- A task that is performed keeps the loop coherent, and comes to a wait or to its end. -/
theorem Coherent.perform (coherent : loop.Coherent (some task))
    (run : J → Activity σ J (Exit Value)) (activity : Activity σ J (Exit Value)) :
    Performed task loop (perform run task loop activity) (account run task loop activity) := by
  induction activity generalizing loop with
  | done exit =>
      rcases coherent.runs task rfl with ⟨answer, next, found⟩
      refine ⟨coherent.finish _ (.inr ⟨rfl, rfl⟩), ⟨_, loop.ending_mayEnd task exit, ?_⟩, ?_⟩
      · exact exit?_eq_some_iff.2 (coherent.getElem?_finish_self found (by simp) _)
      · intro on answer member
        cases member
  | get next ih =>
      exact (ih loop.state coherent).pass (by simp)
  | put state next ih =>
      have first := coherent.withState state
      exact ((ih first.coherent).since first).pass (by simp)
  | clock next ih =>
      exact (ih loop.now coherent).pass (by simp)
  | wait on next ih =>
      by_cases isOver : ∃ awaited exit, on = .task awaited ∧ loop.exit? awaited = some exit
      · rcases isOver with ⟨awaited, exit, rfl, ended⟩
        simp only [Loop.perform, account, ended]
        have rest := ih exit coherent
        refine rest.note ?_
        rintro _ _ ⟨⟩
        exact .inr (rest.leads.exit? coherent ended)
      · have waits : ∀ awaited, on = .task awaited → loop.exit? awaited = none := by
          intro awaited same
          rw [Option.eq_none_iff_forall_ne_some]
          exact fun exit ended => isOver ⟨awaited, exit, same, ended⟩
        rw [(perform_wait run waits next).1, (perform_wait run waits next).2]
        exact (coherent.suspend waits next).told _
  | spawn job next ih =>
      have first := coherent.addTask (run job)
      exact ((ih _ first.coherent).since first).pass (by simp)
  | promise next ih =>
      have first := coherent.addPromise
      exact ((ih _ first.coherent).since first).pass (by simp)
  | settle promise exit next ih =>
      have first := coherent.settle promise exit
      rw [perform_settle]
      exact ((ih first.coherent).since first).pass (by simp)
  | cancel other next ih =>
      have first := coherent.cancel other (loop.tasks.length + 1)
      exact ((ih first.coherent).since first).pass (by simp)
  | later seconds job next ih =>
      have first := coherent.addTimer seconds (.run job)
      exact ((ih _ first.coherent).since first).pass (by simp)
  | withdraw timer next ih =>
      have first := coherent.removeTimer timer
      exact ((ih first.coherent).since first).pass (by simp)
  | peek other next ih =>
      exact (ih (loop.exit? other) coherent).pass (by simp)

theorem Coherent.launch (coherent : loop.Coherent none) (run : J → Activity σ J (Exit Value))
    (body : Activity σ J (Exit Value)) : Leads none none loop (loop.launch run body).2 := by
  have first := coherent.begin body
  apply first.andThen (first.coherent.perform run body).leads
  rintro task status - found ⟨⟩
  rw [List.getElem?_eq_none (Nat.le_refl _)] at found
  cases found

end Loop

/-! ## One instruction after the other -/

/-- A task that is being performed, and what is left for it to do. -/
structure Turn (σ J : Type) where
  loop : Loop σ J
  task : TaskId
  left : Activity σ J (Exit Value)

namespace Turn

variable {run : J → Activity σ J (Exit Value)} {turn after : Turn σ J}

/-- The next instruction, unless the task gives way or is over. -/
def next (run : J → Activity σ J (Exit Value)) (turn : Turn σ J) : Option (Turn σ J) :=
  match turn.left with
  | .done _ | .wait .turn _ | .wait (.sleep _) _ => none
  | .get next => some { turn with left := next turn.loop.state }
  | .put state next => some { turn with loop := { turn.loop with state := state }, left := next }
  | .clock next => some { turn with left := next turn.loop.now }
  | .wait (.task awaited) next =>
    (turn.loop.exit? awaited).map fun exit => { turn with left := next exit }
  | .spawn job next =>
    some { turn with loop := (turn.loop.addTask (run job)).2, left := next turn.loop.tasks.length }
  | .promise next =>
    some { turn with loop := turn.loop.addPromise.2, left := next turn.loop.tasks.length }
  | .settle promise exit next =>
    some { turn with loop := turn.loop.settle promise exit, left := next }
  | .cancel other next =>
    some { turn with loop := turn.loop.cancel other (turn.loop.tasks.length + 1), left := next }
  | .later seconds job next =>
    some { turn with
      loop := (turn.loop.addTimer seconds (.run job)).2, left := next turn.loop.timersSet }
  | .withdraw timer next => some { turn with loop := turn.loop.removeTimer timer, left := next }
  | .peek other next => some { turn with left := next (turn.loop.exit? other) }

/-- One turn comes to another one in which some instructions have been performed. -/
def Passes (run : J → Activity σ J (Exit Value)) : Turn σ J → Turn σ J → Prop :=
  Relation.ReflTransGen fun before after => before.next run = some after

/-- The loop when the turn is over. -/
def result (run : J → Activity σ J (Exit Value)) (turn : Turn σ J) : Loop σ J :=
  turn.loop.perform run turn.task turn.left

theorem result_of_next (next : turn.next run = some after) : turn.result run = after.result run := by
  rcases turn with ⟨loop, task, left⟩
  cases left with
  | done =>
      cases next
  | wait on =>
      cases on with
      | turn | sleep =>
          cases next
      | task awaited =>
          rcases Option.map_eq_some_iff.1 next with ⟨exit, ended, rfl⟩
          simp only [result, Loop.perform, ended]
  | settle promise exit =>
      cases next
      exact Loop.perform_settle ..
  | _ =>
      cases next
      rfl

theorem result_of_passes (passes : turn.Passes run after) : turn.result run = after.result run := by
  induction passes with
  | refl =>
      rfl
  | tail _ next ih =>
      exact ih.trans (result_of_next next)

/-- A turn comes to where its task gives way or is over. -/
theorem exists_last (run : J → Activity σ J (Exit Value)) (turn : Turn σ J) :
    ∃ last, turn.Passes run last ∧ last.next run = none := by
  rcases turn with ⟨loop, task, left⟩
  induction left generalizing loop with
  | done exit =>
      exact ⟨_, .refl, rfl⟩
  | wait on following ih =>
      cases on with
      | turn | sleep =>
          exact ⟨_, .refl, rfl⟩
      | task awaited =>
          cases ended : loop.exit? awaited with
          | none =>
              exact ⟨_, .refl, by simp only [next, ended, Option.map_none]⟩
          | some exit =>
              rcases ih exit loop with ⟨last, passes, isLast⟩
              refine ⟨last, .head ?_ passes, isLast⟩
              simp only [next, ended, Option.map_some]
  | get following ih | clock following ih | spawn job following ih | promise following ih
  | later seconds job following ih | peek other following ih =>
      rcases ih _ _ with ⟨last, passes, isLast⟩
      exact ⟨last, .head rfl passes, isLast⟩
  | put state following ih | settle promise exit following ih | cancel other following ih
  | withdraw timer following ih =>
      rcases ih _ with ⟨last, passes, isLast⟩
      exact ⟨last, .head rfl passes, isLast⟩

end Turn

namespace Loop

variable {loop before middle after : Loop σ J} {busy still : Option TaskId} {task : TaskId}

/-! ## Steps of a loop -/

/-- The task that the next step goes on with, with its answer. -/
def turn? (loop : Loop σ J) :
    Option (TaskId × Exit Value × (Exit Value → Activity σ J (Exit Value))) :=
  match loop.round with
  | .resume task :: _ =>
    match loop.tasks[task]? with
    | some (.ready answer next) => some (task, answer, next)
    | _ => none
  | _ => none

theorem turn?_eq_some_iff {answer : Exit Value}
    {next : Exit Value → Activity σ J (Exit Value)} :
    loop.turn? = some (task, answer, next) ↔
      (∃ rest, loop.round = .resume task :: rest) ∧
        loop.tasks[task]? = some (.ready answer next) := by
  unfold turn?
  constructor
  · intro turn
    split at turn
    · rename_i first rest round
      split at turn
      · rename_i found
        cases turn
        exact ⟨⟨rest, round⟩, found⟩
      · cases turn
    · cases turn
  · rintro ⟨⟨rest, round⟩, found⟩
    simp only [round, found]

/-- Whoever is busy while an item of the round is run. -/
def busy? (loop : Loop σ J) : Option TaskId :=
  loop.turn?.map Prod.fst

theorem busy?_eq_some_iff :
    loop.busy? = some task ↔ (∃ rest, loop.round = .resume task :: rest) ∧ loop.IsReady task := by
  rw [busy?, Option.map_eq_some_iff]
  constructor
  · rintro ⟨⟨_, answer, next⟩, turn, rfl⟩
    rcases turn?_eq_some_iff.1 turn with ⟨first, found⟩
    exact ⟨first, answer, next, found⟩
  · rintro ⟨first, answer, next, found⟩
    exact ⟨_, turn?_eq_some_iff.2 ⟨first, found⟩, rfl⟩

variable {item : Item J} {rest : List (Item J)}

/-- An item is taken from the round. -/
theorem Coherent.take (coherent : loop.Coherent none) (round : loop.round = item :: rest) :
    Coherent loop.busy? { loop with round := rest } where
  runs task isBusy := (busy?_eq_some_iff.1 isBusy).2
  scheduled := by
    intro task ready idle
    apply (coherent.scheduled task ready nofun).imp_left
    intro member
    rw [round] at member
    rcases List.mem_cons.1 member with first | later
    · have isBusy : loop.busy? = some task :=
        busy?_eq_some_iff.2 ⟨⟨rest, first ▸ round⟩, ready⟩
      exact absurd isBusy idle
    · exact later
  waits := coherent.waits
  joins := coherent.joins

theorem Coherent.runItem (coherent : loop.Coherent none) (round : loop.round = item :: rest)
    (run : J → Activity σ J (Exit Value)) :
    Leads loop.busy? none { loop with round := rest }
      (runItem run { loop with round := rest } item) := by
  have taken := coherent.take round
  cases item with
  | resume task =>
      rw [Loop.runItem]
      split
      · rename_i answer next found
        have busy := busy?_eq_some_iff.2 ⟨⟨rest, round⟩, answer, next, found⟩
        rw [busy] at taken ⊢
        have roused := taken.rouse next
        exact roused.trans (roused.coherent.perform run (next answer)).leads
      · rename_i unready
        have idle : loop.busy? = none := by
          apply Option.eq_none_iff_forall_ne_some.2
          intro other isBusy
          rcases busy?_eq_some_iff.1 isBusy with ⟨⟨_, first⟩, answer, next, found⟩
          cases round.symm.trans first
          exact unready answer next found
        rw [idle] at taken ⊢
        exact taken.refl
  | wake task timer =>
      have idle : loop.busy? = none := by
        rw [busy?, turn?, round]
        rfl
      rw [idle] at taken ⊢
      rw [Loop.runItem]
      split
      · rename_i found
        split
        · exact taken.release found (.inr rfl)
        · exact taken.refl
      · exact taken.refl
  | run job timer =>
      have idle : loop.busy? = none := by
        rw [busy?, turn?, round]
        rfl
      rw [idle] at taken ⊢
      exact taken.launch run (run job)

/-- What is scheduled runs in the round that begins. -/
theorem mem_beginRound (loop : Loop σ J) (time : Binary64) {item : Item J}
    (scheduled : item ∈ loop.scheduled) : item ∈ (loop.beginRound time).round := by
  exact List.mem_append_left _ scheduled

theorem Coherent.beginRound (coherent : loop.Coherent none) (empty : loop.round = [])
    (time : Binary64) : (loop.beginRound time).Coherent none where
  runs _ isBusy := nomatch isBusy
  scheduled := by
    intro task ready idle
    rcases coherent.scheduled task ready idle with current | next
    · rw [empty] at current
      cases current
    · exact .inl (mem_beginRound loop time next)
  waits := coherent.waits
  joins := coherent.joins

/-- A step runs an item of the round, or begins a round when there is none left. -/
theorem step_cases {run : J → Activity σ J (Exit Value)} (steps : loop.step run = some after) :
    (∃ item rest, loop.round = item :: rest ∧
        after = runItem run { loop with round := rest } item) ∨
      loop.round = [] ∧ ∃ time, after = loop.beginRound time := by
  unfold step at steps
  split at steps
  · rename_i item rest round
    cases steps
    exact .inl ⟨item, rest, round, rfl⟩
  · rename_i empty
    refine .inr ⟨empty, ?_⟩
    split at steps
    · cases steps
      exact ⟨_, rfl⟩
    · split at steps
      · cases steps
      · cases steps
        exact ⟨_, rfl⟩

theorem Coherent.step (coherent : loop.Coherent none) {run : J → Activity σ J (Exit Value)}
    (steps : loop.step run = some after) :
    after.Coherent none ∧ ∀ {task exit}, loop.exit? task = some exit →
      after.exit? task = some exit := by
  rcases step_cases steps with ⟨item, rest, round, rfl⟩ | ⟨empty, time, rfl⟩
  · have leads := coherent.runItem round run
    exact ⟨leads.coherent, leads.exit? (coherent.take round)⟩
  · exact ⟨coherent.beginRound empty time, id⟩

/-- The task whose turn it is is performed. -/
theorem step_of_turn {run : J → Activity σ J (Exit Value)} {answer : Exit Value}
    {next : Exit Value → Activity σ J (Exit Value)} (steps : loop.step run = some after)
    (turn : loop.turn? = some (task, answer, next)) :
    after = perform run task (rouse { loop with round := loop.round.tail } task next)
      (next answer) := by
  rcases turn?_eq_some_iff.1 turn with ⟨⟨rest, round⟩, found⟩
  rcases step_cases steps with ⟨_, _, again, rfl⟩ | ⟨empty, -⟩
  · cases round.symm.trans again
    simp only [runItem, found, round, List.tail_cons]
  · cases round.symm.trans empty

/-- There is a step as long as something is scheduled. -/
theorem exists_step (run : J → Activity σ J (Exit Value)) {item : Item J}
    (member : item ∈ loop.round ∨ item ∈ loop.scheduled) : ∃ after, loop.step run = some after := by
  unfold step
  split
  · exact ⟨_, rfl⟩
  · rename_i empty
    rw [empty] at member
    have later := member.resolve_left List.not_mem_nil
    have busy : loop.isIdle = false := by
      cases scheduled : loop.scheduled with
      | nil =>
          rw [scheduled] at later
          cases later
      | cons first rest =>
          simp [isIdle, scheduled]
    rw [busy]
    exact ⟨_, rfl⟩

end Steward.Loop
