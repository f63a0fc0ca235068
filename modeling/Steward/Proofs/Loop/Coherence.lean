import Steward.Proofs.Loop.Pieces

/-!
# Coherent loops

In a loop every task that is ready is scheduled to go on, and every task that waits for
another one is noted down with it until that one ends.  One task may be busy: it is being
performed, and its status is out of date until it waits or ends.

Whatever a loop does leads from a coherent loop to a coherent one.  It turns the status of
a task that is not busy only as the task has to expect: a wait is answered with how it came
out, or that the task was cancelled, and what has ended stays as it is.
-/

namespace Steward

variable {σ J : Type}

/-- How a wait may be answered: with how it came out, or that the task was cancelled. -/
def Wait.Answered (loop : Loop σ J) : Wait → Exit Value → Prop
  | .task awaited, answer => answer = .error .cancelled ∨ loop.exit? awaited = some answer
  | .turn, answer | .sleep _, answer => answer = .error .cancelled ∨ answer = .ok .null

/-- An end that a task may come to: it was followed there, and not cancelled without leave. -/
structure Exit.IsFair (cancels : Prop) (exit : Exit Value) : Prop where
  allowed : exit = .error .cancelled → cancels
  followed : exit ≠ .error .endless

theorem Exit.isFair_ok (cancels : Prop) (value : Value) : Exit.IsFair cancels (.ok value) where
  allowed := nofun
  followed := nofun

theorem Exit.isFair_cancelled {cancels : Prop} (leave : cancels) :
    Exit.IsFair cancels (.error .cancelled) where
  allowed _ := leave
  followed := nofun

/-- What may become of the status of a task while the loop goes on to another one. -/
inductive Status.Turns (after : Loop σ J) : Status σ J → Status σ J → Prop where
  | stays (status : Status σ J) : Turns after status status
  | cancelled {answer : Exit Value} {next : Exit Value → Activity σ J (Exit Value)} :
      Turns after (.ready answer next) (.ready (.error .cancelled) next)
  | wakes {timer : TimerId} {answer : Exit Value}
      {next : Exit Value → Activity σ J (Exit Value)}
      (answered : answer = .error .cancelled ∨ answer = .ok .null) :
      Turns after (.blocked (.timer timer) next) (.ready answer next)
  | joins {awaited : TaskId} {answer : Exit Value}
      {next : Exit Value → Activity σ J (Exit Value)}
      (answered : Wait.Answered after (.task awaited) answer) :
      Turns after (.blocked (.task awaited) next) (.ready answer next)
  | settles {exit : Exit Value} : Turns after .open (.finished exit)

namespace Loop

variable {loop before middle after : Loop σ J} {busy still : Option TaskId} {task : TaskId}

theorem exit?_eq_some_iff {exit : Exit Value} :
    loop.exit? task = some exit ↔ loop.tasks[task]? = some (.finished exit) := by
  unfold exit?
  split
  · rename_i ended found
    simp [found]
  · rename_i running
    constructor
    · intro absurdity
      cases absurdity
    · intro found
      exact absurd found (running exit)

/-- A task is scheduled to go on. -/
def IsReady (loop : Loop σ J) (task : TaskId) : Prop :=
  ∃ answer next, loop.tasks[task]? = some (.ready answer next)

/-- Every task that is ready is scheduled, unless it is busy, and the tasks that wait for
another one are noted down, and no others. -/
structure Coherent (busy : Option TaskId) (loop : Loop σ J) : Prop where
  runs : ∀ task, busy = some task → loop.IsReady task
  scheduled : ∀ task, loop.IsReady task → busy ≠ some task →
    .resume task ∈ loop.round ∨ .resume task ∈ loop.scheduled
  waits : ∀ task awaited next, loop.tasks[task]? = some (.blocked (.task awaited) next) →
    (task, awaited) ∈ loop.joins ∧ loop.exit? awaited = none
  joins : ∀ task awaited, (task, awaited) ∈ loop.joins →
    ∃ next, loop.tasks[task]? = some (.blocked (.task awaited) next)

theorem Coherent.start (state : σ) : (Loop.start state : Loop σ J).Coherent none where
  runs _ isBusy := nomatch isBusy
  scheduled := by
    rintro task ⟨answer, next, found⟩
    cases found
  waits := by
    intro task awaited next found
    cases found
  joins := by
    intro task awaited noted
    cases noted

/-- A loop goes on to another one, while a task is busy, and perhaps after that. -/
structure Leads (busy still : Option TaskId) (before after : Loop σ J) : Prop where
  coherent : after.Coherent still
  turns : ∀ task status, busy ≠ some task → before.tasks[task]? = some status →
    ∃ turned, after.tasks[task]? = some turned ∧ status.Turns after turned
  round : ∀ task, .resume task ∈ before.round → .resume task ∈ after.round
  scheduled : ∀ task, .resume task ∈ before.scheduled → .resume task ∈ after.scheduled
  shrinks : after.round.length ≤ before.round.length

theorem Coherent.exit?_of_busy (coherent : loop.Coherent (some task)) : loop.exit? task = none := by
  rcases coherent.runs task rfl with ⟨answer, next, found⟩
  rw [exit?, found]

namespace Leads

theorem exit? (leads : Leads busy still before after) (coherent : before.Coherent busy)
    {exit : Exit Value} (ended : before.exit? task = some exit) :
    after.exit? task = some exit := by
  have idle : busy ≠ some task := by
    rintro rfl
    rw [coherent.exit?_of_busy] at ended
    cases ended
  rw [exit?_eq_some_iff] at ended ⊢
  rcases leads.turns task _ idle ended with ⟨turned, found, turns⟩
  cases turns with
  | stays =>
      exact found

end Leads

end Loop

theorem Wait.Answered.mono {before after : Loop σ J} {on : Wait} {answer : Exit Value}
    (answered : on.Answered before answer)
    (ended : ∀ {task exit}, before.exit? task = some exit → after.exit? task = some exit) :
    on.Answered after answer := by
  cases on with
  | turn | sleep =>
      exact answered
  | task awaited =>
      exact answered.imp_right ended

/-- Two turns come to one. -/
theorem Status.Turns.trans {middle after : Loop σ J} {first second third : Status σ J}
    (turns : first.Turns middle second) (again : second.Turns after third)
    (ended : ∀ {task exit}, middle.exit? task = some exit → after.exit? task = some exit) :
    first.Turns after third := by
  cases turns with
  | stays =>
      exact again
  | settles =>
      cases again with
      | stays =>
          exact .settles
  | cancelled =>
      cases again with
      | stays | cancelled =>
          exact .cancelled
  | wakes answered =>
      cases again with
      | stays =>
          exact .wakes answered
      | cancelled =>
          exact .wakes (.inl rfl)
  | joins answered =>
      cases again with
      | stays =>
          exact .joins (answered.mono ended)
      | cancelled =>
          exact .joins (.inl rfl)

namespace Loop

variable {loop before middle after : Loop σ J} {busy still : Option TaskId} {task : TaskId}

/-- A loop goes on twice; a task that was not busy at first has to be idle throughout. -/
theorem Leads.andThen {between : Option TaskId} (first : Leads busy between before middle)
    (second : Leads between still middle after)
    (idle : ∀ task status, busy ≠ some task → before.tasks[task]? = some status →
      between ≠ some task) : Leads busy still before after where
  coherent := second.coherent
  turns := by
    intro task status free found
    rcases first.turns task status free found with ⟨turned, there, turns⟩
    rcases second.turns task turned (idle task status free found) there with ⟨last, stands, again⟩
    exact ⟨last, stands, turns.trans again (second.exit? first.coherent)⟩
  round task member := second.round task (first.round task member)
  scheduled task member := second.scheduled task (first.scheduled task member)
  shrinks := Nat.le_trans second.shrinks first.shrinks

theorem Leads.trans (first : Leads busy busy before middle)
    (second : Leads busy still middle after) : Leads busy still before after := by
  exact first.andThen second fun _ _ free _ => free

/-! ## What leaves the tasks alone -/

/-- A loop goes on to one with the same tasks if what was to be resumed still is. -/
theorem Coherent.same (coherent : before.Coherent busy) (tasks : after.tasks = before.tasks)
    (joins : after.joins = before.joins)
    (round : ∀ task, .resume task ∈ before.round → .resume task ∈ after.round)
    (scheduled : ∀ task, .resume task ∈ before.scheduled → .resume task ∈ after.scheduled)
    (shrinks : after.round.length ≤ before.round.length) : Leads busy busy before after where
  coherent := by
    constructor
    · intro task isBusy
      rw [IsReady, tasks]
      exact coherent.runs task isBusy
    · intro task ready idle
      rw [IsReady, tasks] at ready
      exact (coherent.scheduled task ready idle).imp (round task) (scheduled task)
    · intro task awaited next found
      rw [tasks] at found
      rw [joins, exit?, tasks]
      exact coherent.waits task awaited next found
    · intro task awaited noted
      rw [joins] at noted
      rw [tasks]
      exact coherent.joins task awaited noted
  turns := by
    intro task status _ found
    rw [tasks]
    exact ⟨status, found, .stays status⟩
  round := round
  scheduled := scheduled
  shrinks := shrinks

theorem Coherent.withState (coherent : loop.Coherent busy) (state : σ) :
    Leads busy busy loop { loop with state := state } := by
  exact coherent.same rfl rfl (fun _ => id) (fun _ => id) (Nat.le_refl _)

theorem Coherent.addTimer (coherent : loop.Coherent busy) (seconds : Binary64)
    (item : TimerId → Item J) : Leads busy busy loop (loop.addTimer seconds item).2 := by
  exact coherent.same rfl rfl (fun _ => id) (fun _ => id) (Nat.le_refl _)

theorem Coherent.removeTimer (coherent : loop.Coherent busy) (timer : TimerId) :
    Leads busy busy loop (loop.removeTimer timer) := by
  refine coherent.same rfl rfl ?_ ?_ ?_
  · intro task member
    exact List.mem_filter.2 ⟨member, rfl⟩
  · intro task member
    exact List.mem_filter.2 ⟨member, rfl⟩
  · exact List.length_filter_le _ _

/-! ## New tasks -/

theorem getElem?_concat_eq_some {α : Type} {items : List α} {last item : α} {place : Nat}
    (found : (items ++ [last])[place]? = some item) :
    items[place]? = some item ∨ place = items.length ∧ last = item := by
  rw [List.getElem?_append] at found
  split at found
  · exact .inl found
  · rw [List.getElem?_singleton] at found
    split at found
    · exact .inr ⟨by omega, by simpa using found⟩
    · cases found

theorem getElem?_concat_of_some {α : Type} {items : List α} {item : α} {place : Nat} (last : α)
    (found : items[place]? = some item) : (items ++ [last])[place]? = some item := by
  rw [List.getElem?_append_left (List.getElem?_eq_some_iff.1 found).1]
  exact found

/-- A loop gets a task that is scheduled to begin or begins at once, or a promise. -/
theorem Coherent.append (coherent : before.Coherent busy) {status : Status σ J}
    (tasks : after.tasks = before.tasks ++ [status]) (joins : after.joins = before.joins)
    (round : after.round = before.round)
    (scheduled : ∀ task, .resume task ∈ before.scheduled → .resume task ∈ after.scheduled)
    (begins : (∃ answer next, status = .ready answer next) ∧
      (.resume before.tasks.length ∈ after.scheduled ∨ still = some before.tasks.length) ∨
      status = .open ∧ still ≠ some before.tasks.length)
    (stays : still = busy ∨ busy = none ∧ still = some before.tasks.length) :
    Leads busy still before after := by
  have kept : ∀ {task : TaskId} {found : Status σ J}, before.tasks[task]? = some found →
      after.tasks[task]? = some found := by
    intro task found present
    rw [tasks]
    exact getElem?_concat_of_some status present
  have old : ∀ {task : TaskId} {found : Status σ J}, after.tasks[task]? = some found →
      before.tasks[task]? = some found ∨ task = before.tasks.length ∧ status = found := by
    intro task found present
    rw [tasks] at present
    exact getElem?_concat_eq_some present
  refine ⟨⟨?_, ?_, ?_, ?_⟩, ?_, ?_, scheduled, ?_⟩
  · intro task isBusy
    rcases stays with rfl | ⟨-, starts⟩
    · rcases coherent.runs task isBusy with ⟨answer, next, found⟩
      exact ⟨answer, next, kept found⟩
    · cases starts.symm.trans isBusy
      rcases begins with ⟨⟨answer, next, rfl⟩, -⟩ | ⟨-, idle⟩
      · refine ⟨answer, next, ?_⟩
        rw [tasks]
        exact List.getElem?_concat_length
      · exact absurd starts idle
  · rintro task ⟨answer, next, found⟩ idle
    rw [round]
    rcases old found with present | ⟨rfl, new⟩
    · have wasIdle : busy ≠ some task := by
        rcases stays with rfl | ⟨rfl, -⟩
        · exact idle
        · intro absurdity
          cases absurdity
      exact (coherent.scheduled task ⟨answer, next, present⟩ wasIdle).imp_right (scheduled task)
    · rcases begins with ⟨-, begins⟩ | ⟨promised, -⟩
      · exact .inr (begins.resolve_right idle)
      · cases new.symm.trans promised
  · intro task awaited next found
    rcases old found with present | ⟨-, new⟩
    · rcases coherent.waits task awaited next present with ⟨noted, running⟩
      rw [joins]
      refine ⟨noted, Option.eq_none_iff_forall_ne_some.2 ?_⟩
      intro exit ended
      rw [exit?_eq_some_iff] at ended
      rcases old ended with already | ⟨-, finished⟩
      · rw [← exit?_eq_some_iff, running] at already
        cases already
      · rcases begins with ⟨⟨_, _, begins⟩, -⟩ | ⟨promised, -⟩
        · cases finished.symm.trans begins
        · cases finished.symm.trans promised
    · rcases begins with ⟨⟨_, _, begins⟩, -⟩ | ⟨promised, -⟩
      · cases new.symm.trans begins
      · cases new.symm.trans promised
  · intro task awaited noted
    rw [joins] at noted
    rcases coherent.joins task awaited noted with ⟨next, found⟩
    exact ⟨next, kept found⟩
  · intro task found _ present
    exact ⟨found, kept present, .stays found⟩
  · intro task member
    rw [round]
    exact member
  · exact Nat.le_of_eq (congrArg List.length round)

theorem Coherent.addTask (coherent : loop.Coherent busy) (body : Activity σ J (Exit Value)) :
    Leads busy busy loop (loop.addTask body).2 := by
  refine coherent.append rfl rfl rfl ?_ ?_ (.inl rfl)
  · intro task member
    exact List.mem_append_left _ member
  · exact .inl ⟨⟨_, _, rfl⟩, .inl (List.mem_append_right _ List.mem_cons_self)⟩

theorem Coherent.not_busy_length (coherent : loop.Coherent busy) :
    busy ≠ some loop.tasks.length := by
  intro isBusy
  rcases coherent.runs _ isBusy with ⟨answer, next, found⟩
  rw [List.getElem?_eq_none (Nat.le_refl _)] at found
  cases found

theorem Coherent.addPromise (coherent : loop.Coherent busy) :
    Leads busy busy loop loop.addPromise.2 := by
  refine coherent.append rfl rfl rfl ?_ ?_ (.inl rfl)
  · exact fun _ => id
  · exact .inr ⟨rfl, coherent.not_busy_length⟩

/-- A task that begins at once is busy. -/
theorem Coherent.begin (coherent : loop.Coherent none) (body : Activity σ J (Exit Value)) :
    Leads none (some loop.tasks.length) loop
      { loop with tasks := loop.tasks ++ [Status.ready (.ok .null) fun _ => body] } := by
  refine coherent.append rfl rfl rfl ?_ ?_ (.inr ⟨rfl, rfl⟩)
  · exact fun _ => id
  · exact .inl ⟨⟨_, _, rfl⟩, .inr rfl⟩

/-! ## Releasing tasks -/

end Loop

/-- What an answer makes of the status of a task: one that is blocked goes on. -/
def Status.awake (answer : Exit Value) : Status σ J → Status σ J
  | .blocked _ next => .ready answer next
  | other => other

theorem Status.awake_awake (answer : Exit Value) (status : Status σ J) :
    (status.awake answer).awake answer = status.awake answer := by
  cases status <;> rfl

namespace Loop

variable {loop before middle after : Loop σ J} {busy still : Option TaskId} {task : TaskId}

theorem getElem?_release (loop : Loop σ J) (task other : TaskId) (answer : Exit Value) :
    (loop.release task answer).tasks[other]? =
      if task = other then loop.tasks[other]?.map (·.awake answer) else loop.tasks[other]? := by
  unfold release
  split
  · rename_i next found
    show (loop.tasks.set task _)[other]? = _
    rw [List.getElem?_set]
    split
    · rename_i same
      subst same
      rw [if_pos (List.getElem?_eq_some_iff.1 found).1, found]
      rfl
    · rfl
  · rename_i free
    split
    · rename_i same
      subst same
      rcases found : loop.tasks[task]? with _ | status
      · rfl
      · cases status with
        | blocked on next =>
            exact absurd found (free on next)
        | _ =>
            rfl
    · rfl

/-- Release some tasks with an answer. -/
def releaseAll (loop : Loop σ J) (waiting : List (TaskId × TaskId)) (answer : Exit Value) :
    Loop σ J :=
  waiting.foldl (fun loop (waiter, _) => loop.release waiter answer) loop

theorem releaseAll_cons (loop : Loop σ J) (first : TaskId × TaskId)
    (rest : List (TaskId × TaskId)) (answer : Exit Value) :
    loop.releaseAll (first :: rest) answer =
      (loop.release first.1 answer).releaseAll rest answer := by
  rfl

theorem getElem?_releaseAll (loop : Loop σ J) (waiting : List (TaskId × TaskId))
    (other : TaskId) (answer : Exit Value) :
    (loop.releaseAll waiting answer).tasks[other]? =
      if other ∈ waiting.map Prod.fst then loop.tasks[other]?.map (·.awake answer)
      else loop.tasks[other]? := by
  induction waiting generalizing loop with
  | nil =>
      rfl
  | cons first rest ih =>
      rw [releaseAll_cons, ih, getElem?_release]
      by_cases here : first.1 = other
      · simp [here, Function.comp_def, Status.awake_awake]
      · simp only [if_neg here, List.map_cons, List.mem_cons, Ne.symm here, false_or]

theorem release_round (loop : Loop σ J) (task : TaskId) (answer : Exit Value) :
    (loop.release task answer).round = loop.round := by
  unfold release
  split <;> rfl

theorem release_joins (loop : Loop σ J) (task : TaskId) (answer : Exit Value) :
    (loop.release task answer).joins = loop.joins := by
  unfold release
  split <;> rfl

theorem release_scheduled (loop : Loop σ J) (task : TaskId) (answer : Exit Value) :
    loop.scheduled ⊆ (loop.release task answer).scheduled := by
  unfold release
  split
  · exact List.subset_append_left _ _
  · exact List.Subset.refl _

theorem releaseAll_round (loop : Loop σ J) (waiting : List (TaskId × TaskId))
    (answer : Exit Value) : (loop.releaseAll waiting answer).round = loop.round := by
  induction waiting generalizing loop with
  | nil =>
      rfl
  | cons first rest ih =>
      rw [releaseAll_cons, ih, release_round]

theorem releaseAll_joins (loop : Loop σ J) (waiting : List (TaskId × TaskId))
    (answer : Exit Value) : (loop.releaseAll waiting answer).joins = loop.joins := by
  induction waiting generalizing loop with
  | nil =>
      rfl
  | cons first rest ih =>
      rw [releaseAll_cons, ih, release_joins]

theorem releaseAll_scheduled (loop : Loop σ J) (waiting : List (TaskId × TaskId))
    (answer : Exit Value) : loop.scheduled ⊆ (loop.releaseAll waiting answer).scheduled := by
  induction waiting generalizing loop with
  | nil =>
      exact List.Subset.refl _
  | cons first rest ih =>
      exact List.Subset.trans (release_scheduled loop first.1 answer) (ih _)

/-- A task that was blocked is scheduled to go on when it is released. -/
theorem resume_mem_releaseAll {waiting : List (TaskId × TaskId)} {answer : Exit Value}
    {on : Blocker} {next : Exit Value → Activity σ J (Exit Value)}
    (found : loop.tasks[task]? = some (.blocked on next))
    (member : task ∈ waiting.map Prod.fst) :
    .resume task ∈ (loop.releaseAll waiting answer).scheduled := by
  induction waiting generalizing loop with
  | nil =>
      cases member
  | cons first rest ih =>
      rw [releaseAll_cons]
      by_cases here : first.1 = task
      · apply releaseAll_scheduled
        rw [here, release, found]
        exact List.mem_append_right _ List.mem_cons_self
      · apply ih
        · rw [getElem?_release, if_neg here]
          exact found
        · exact (List.mem_cons.1 member).resolve_left (Ne.symm here)

/-! ## Ending tasks -/

theorem finish_eq (loop : Loop σ J) (task : TaskId) (exit : Exit Value) :
    loop.finish task exit =
      releaseAll { loop.setStatus task (.finished exit) with
        joins := loop.joins.filter (·.2 != task) } (loop.joins.filter (·.2 == task)) exit := by
  rfl

theorem getElem?_finish (loop : Loop σ J) (task other : TaskId) (exit : Exit Value) :
    (loop.finish task exit).tasks[other]? =
      if (other, task) ∈ loop.joins then
        (loop.tasks.set task (.finished exit))[other]?.map (·.awake exit)
      else (loop.tasks.set task (.finished exit))[other]? := by
  have noted : other ∈ (loop.joins.filter (·.2 == task)).map Prod.fst ↔
      (other, task) ∈ loop.joins := by
    constructor
    · intro member
      rcases List.mem_map.1 member with ⟨⟨waiter, awaited⟩, isNoted, rfl⟩
      rw [List.mem_filter, beq_iff_eq] at isNoted
      rcases isNoted with ⟨isNoted, rfl⟩
      exact isNoted
    · intro member
      exact List.mem_map.2 ⟨_, List.mem_filter.2 ⟨member, beq_self_eq_true task⟩, rfl⟩
  rw [finish_eq, getElem?_releaseAll]
  simp only [noted]
  rfl

namespace Coherent

variable {exit : Exit Value}

/-- Of the other tasks, those that waited for the task that ends go on, and the rest stay
as they are. -/
theorem finish_cases (coherent : loop.Coherent busy) (exit : Exit Value) {other : TaskId}
    (differs : other ≠ task) :
    (∃ next, loop.tasks[other]? = some (.blocked (.task task) next) ∧
        (loop.finish task exit).tasks[other]? = some (.ready exit next) ∧
        .resume other ∈ (loop.finish task exit).scheduled) ∨
      (∀ next, loop.tasks[other]? ≠ some (.blocked (.task task) next)) ∧
        (loop.finish task exit).tasks[other]? = loop.tasks[other]? := by
  have beside : (loop.tasks.set task (.finished exit))[other]? = loop.tasks[other]? :=
    List.getElem?_set_ne (Ne.symm differs)
  rw [getElem?_finish, beside]
  split
  · rename_i noted
    rcases coherent.joins other task noted with ⟨next, found⟩
    refine .inl ⟨next, found, by rw [found]; rfl, ?_⟩
    rw [finish_eq]
    apply resume_mem_releaseAll (beside.trans found)
    exact List.mem_map.2 ⟨_, List.mem_filter.2 ⟨noted, beq_self_eq_true task⟩, rfl⟩
  · rename_i unnoted
    refine .inr ⟨?_, rfl⟩
    intro next found
    exact unnoted (coherent.waits other task next found).1

theorem getElem?_finish_self (coherent : loop.Coherent busy) {status : Status σ J}
    (present : loop.tasks[task]? = some status) (free : ∀ on next, status ≠ .blocked on next)
    (exit : Exit Value) : (loop.finish task exit).tasks[task]? = some (.finished exit) := by
  rw [getElem?_finish, if_neg]
  · exact List.getElem?_set_self (List.getElem?_eq_some_iff.1 present).1
  · intro noted
    rcases coherent.joins task task noted with ⟨next, found⟩
    rw [present] at found
    exact free _ next (Option.some.inj found)

theorem exit?_finish_ne (coherent : loop.Coherent busy) (exit : Exit Value) {other : TaskId}
    (differs : other ≠ task) : (loop.finish task exit).exit? other = loop.exit? other := by
  rcases coherent.finish_cases exit differs with ⟨next, waits, ready, -⟩ | ⟨-, same⟩
  · rw [exit?, exit?, waits, ready]
  · rw [exit?, exit?, same]

/-- A promise can be kept, and the busy task can end. -/
def CanEnd (busy still : Option TaskId) (loop : Loop σ J) (task : TaskId) : Prop :=
  loop.tasks[task]? = some .open ∧ still = busy ∨ busy = some task ∧ still = none

/-- A task that can end has not ended, and waits for nothing. -/
theorem exists_of_canEnd (coherent : loop.Coherent busy) (ends : CanEnd busy still loop task) :
    ∃ status, loop.tasks[task]? = some status ∧ (∀ on next, status ≠ .blocked on next) ∧
      (busy ≠ some task → status = .open) := by
  rcases ends with ⟨promised, -⟩ | ⟨isBusy, -⟩
  · exact ⟨_, promised, fun _ _ => nofun, fun _ => rfl⟩
  · rcases coherent.runs task isBusy with ⟨answer, next, found⟩
    exact ⟨_, found, fun _ _ => nofun, fun idle => absurd isBusy idle⟩

/-- Whoever stays busy while a task ends is another one. -/
theorem busy_of_canEnd (coherent : loop.Coherent busy) (ends : CanEnd busy still loop task)
    {other : TaskId} (stays : still = some other) : busy = some other ∧ other ≠ task := by
  rcases ends with ⟨promised, rfl⟩ | ⟨-, rfl⟩
  · refine ⟨stays, ?_⟩
    rintro rfl
    rcases coherent.runs other stays with ⟨answer, next, found⟩
    rw [promised] at found
    cases found
  · cases stays

theorem finish_coherent (coherent : loop.Coherent busy) (exit : Exit Value)
    (ends : CanEnd busy still loop task) : (loop.finish task exit).Coherent still := by
  rcases coherent.exists_of_canEnd ends with ⟨status, present, free, -⟩
  have ended := coherent.getElem?_finish_self present free exit
  constructor
  · intro other stays
    rcases coherent.busy_of_canEnd ends stays with ⟨isBusy, differs⟩
    rcases coherent.runs other isBusy with ⟨answer, next, found⟩
    rcases coherent.finish_cases exit differs with ⟨_, waits, -⟩ | ⟨-, same⟩
    · rw [found] at waits
      cases waits
    · exact ⟨answer, next, same.trans found⟩
  · rintro other ⟨answer, next, found⟩ leaves
    have differs : other ≠ task := by
      rintro rfl
      rw [ended] at found
      cases found
    rcases coherent.finish_cases exit differs with ⟨_, -, -, resumes⟩ | ⟨-, same⟩
    · exact .inr resumes
    · have idle : busy ≠ some other := by
        intro isBusy
        rcases ends with ⟨-, rfl⟩ | ⟨isTask, -⟩
        · exact leaves isBusy
        · rw [isTask] at isBusy
          exact differs (Option.some.inj isBusy).symm
      rw [finish_eq, releaseAll_round]
      apply (coherent.scheduled other ⟨answer, next, same ▸ found⟩ idle).imp_right
      intro later
      exact releaseAll_scheduled _ _ _ later
  · intro other awaited next found
    have differs : other ≠ task := by
      rintro rfl
      rw [ended] at found
      cases found
    rcases coherent.finish_cases exit differs with ⟨_, -, ready, -⟩ | ⟨waitsNot, same⟩
    · rw [ready] at found
      cases found
    · rw [same] at found
      have another : awaited ≠ task := by
        rintro rfl
        exact waitsNot next found
      rcases coherent.waits other awaited next found with ⟨noted, runs⟩
      constructor
      · rw [finish_eq, releaseAll_joins]
        exact List.mem_filter.2 ⟨noted, by simpa using another⟩
      · rw [coherent.exit?_finish_ne exit another]
        exact runs
  · intro other awaited noted
    rw [finish_eq, releaseAll_joins] at noted
    rcases List.mem_filter.1 noted with ⟨noted, another⟩
    rcases coherent.joins other awaited noted with ⟨next, found⟩
    have differs : other ≠ task := by
      rintro rfl
      rw [present] at found
      exact free _ next (Option.some.inj found)
    rcases coherent.finish_cases exit differs with ⟨_, waits, -⟩ | ⟨-, same⟩
    · rw [found] at waits
      cases waits
      simp at another
    · exact ⟨next, same.trans found⟩

/-- A promise is kept, or the busy task ends: those that waited for it go on. -/
theorem finish (coherent : loop.Coherent busy) (exit : Exit Value)
    (ends : CanEnd busy still loop task) : Leads busy still loop (loop.finish task exit) where
  coherent := coherent.finish_coherent exit ends
  turns := by
    intro other found idle isThere
    rcases coherent.exists_of_canEnd ends with ⟨status, present, free, promise⟩
    have ended := coherent.getElem?_finish_self present free exit
    by_cases same : other = task
    · subst same
      cases present.symm.trans isThere
      cases promise idle
      exact ⟨_, ended, .settles⟩
    · rcases coherent.finish_cases exit same with ⟨next, waits, ready, -⟩ | ⟨-, stays⟩
      · cases waits.symm.trans isThere
        exact ⟨_, ready, .joins (.inr (exit?_eq_some_iff.2 ended))⟩
      · exact ⟨found, stays.trans isThere, .stays found⟩
  round := by
    intro other member
    rw [finish_eq, releaseAll_round]
    exact member
  scheduled := by
    intro other member
    rw [finish_eq]
    exact releaseAll_scheduled _ _ _ member
  shrinks := by
    rw [finish_eq]
    exact Nat.le_of_eq (congrArg List.length (releaseAll_round _ _ _))

end Coherent

end Loop

end Steward
