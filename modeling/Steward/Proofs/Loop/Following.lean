import Steward.Proofs.Loop.Turns

/-!
# Following a task

To follow a task through a loop is to write down what happens in it, and what is left of
it, while the loop runs whatever else there is.  In a trial a task is followed from where
it begins, step by step.

What is written down is a history of the task's body, and its waits are answered as they
have to be (`Trial.faithful`).  A task that waits for a turn, or for a task that ends some
time, goes on some time (`Trial.goesOn`), so one that waits for nothing else comes to its
end (`Trial.completes`).
-/

namespace Steward

variable {σ J α β : Type}

/-- A loop, and what was written down of one of its tasks. -/
structure Watch (σ J : Type) where
  loop : Loop σ J
  history : List (Happening σ J)
  left : Activity σ J (Exit Value)

namespace Watch

/-- What is written down when the loop takes a step; a loop that has come to rest stays as
it is. -/
def next (run : J → Activity σ J (Exit Value)) (task : TaskId) (watch : Watch σ J) : Watch σ J :=
  match watch.loop.step run with
  | none => watch
  | some after =>
    match watch.left, watch.loop.turn? with
    | .wait on _, some (turn, answer, resumed) =>
      if turn = task then
        let account := Loop.account run task
          (.rouse { watch.loop with round := watch.loop.round.tail } task resumed)
          (resumed answer)
        ⟨after, watch.history ++ .waited on answer :: account.1, account.2⟩
      else { watch with loop := after }
    | _, _ => { watch with loop := after }

variable {run : J → Activity σ J (Exit Value)} {task : TaskId} {watch : Watch σ J}

theorem next_loop (run : J → Activity σ J (Exit Value)) (task : TaskId) (watch : Watch σ J) :
    (watch.next run task).loop = (watch.loop.step run).getD watch.loop := by
  unfold next
  split
  · rename_i rests
    rw [rests, Option.getD_none]
  · rename_i after steps
    rw [steps, Option.getD_some]
    split
    · split <;> rfl
    · rfl

theorem next_of_rest (rests : watch.loop.step run = none) : watch.next run task = watch := by
  simp only [next, rests]

theorem next_of_idle {after : Loop σ J} (steps : watch.loop.step run = some after)
    (idle : watch.loop.busy? ≠ some task) : watch.next run task = { watch with loop := after } := by
  unfold next
  simp only [steps]
  split
  · rename_i turn
    split
    · rename_i same
      rw [Loop.busy?, turn] at idle
      exact absurd (congrArg some same) idle
    · rfl
  · rfl

theorem next_of_turn {after : Loop σ J} {on : Wait} {answer : Exit Value}
    {following resumed : Exit Value → Activity σ J (Exit Value)}
    (steps : watch.loop.step run = some after) (waits : watch.left = .wait on following)
    (turn : watch.loop.turn? = some (task, answer, resumed)) :
    watch.next run task =
      ⟨after,
        watch.history ++ .waited on answer :: (Loop.account run task
          (.rouse { watch.loop with round := watch.loop.round.tail } task resumed)
          (resumed answer)).1,
        (Loop.account run task
          (.rouse { watch.loop with round := watch.loop.round.tail } task resumed)
          (resumed answer)).2⟩ := by
  simp only [next, steps, waits, turn, if_true]

/-- What is written down when it is the task's turn begins with the answer to its wait. -/
theorem next_goesOn {after : Loop σ J} {on : Wait} {answer : Exit Value}
    {following resumed : Exit Value → Activity σ J (Exit Value)}
    (steps : watch.loop.step run = some after) (waits : watch.left = .wait on following)
    (turn : watch.loop.turn? = some (task, answer, resumed)) :
    ∃ further, (watch.next run task).history = watch.history ++ .waited on answer :: further ∧
      (resumed answer).Reaches further (watch.next run task).left := by
  rw [next_of_turn steps waits turn]
  exact ⟨_, rfl, (Loop.perform_piece run task _ _).reaches⟩

/-- The loop stands for what is left of the task, and the waits that were written down were
answered as they had to be. -/
structure Faithful (task : TaskId) (watch : Watch σ J) : Prop where
  coherent : watch.loop.Coherent none
  stands : watch.loop.Stands task watch.left
  answered : ∀ on answer, .waited on answer ∈ watch.history → on.Answered watch.loop answer

/-- What is written down from one watch to a later one is a history of what was left. -/
def Continues (early late : Watch σ J) : Prop :=
  ∃ further, late.history = early.history ++ further ∧ early.left.Reaches further late.left

theorem Continues.refl (watch : Watch σ J) : watch.Continues watch := by
  exact ⟨[], (List.append_nil _).symm, .here⟩

theorem Continues.trans {early middle late : Watch σ J} (first : early.Continues middle)
    (second : middle.Continues late) : early.Continues late := by
  rcases first with ⟨before, history, reaches⟩
  rcases second with ⟨further, longer, goesOn⟩
  refine ⟨before ++ further, ?_, reaches.trans goesOn⟩
  rw [longer, history, List.append_assoc]

/-- If anything was written down since a task waited, its wait was answered. -/
theorem Continues.of_wait {early late : Watch σ J} (continues : early.Continues late) {on : Wait}
    {next : Exit Value → Activity σ J (Exit Value)} (waits : early.left = .wait on next) :
    late.history = early.history ∧ late.left = .wait on next ∨
      ∃ answer further, late.history = early.history ++ .waited on answer :: further ∧
        (next answer).Reaches further late.left := by
  rcases continues with ⟨further, history, reaches⟩
  rw [waits] at reaches
  generalize left : late.left = stop at reaches ⊢
  cases reaches with
  | here =>
      exact .inl ⟨history.trans (List.append_nil _), rfl⟩
  | step first rest =>
      cases first with
      | wait answer =>
          exact .inr ⟨answer, _, history, rest⟩

namespace Faithful

/-- A task whose turn it is waits, and has its answer. -/
theorem exists_of_turn (faithful : watch.Faithful task) {answer : Exit Value}
    {resumed : Exit Value → Activity σ J (Exit Value)}
    (turn : watch.loop.turn? = some (task, answer, resumed)) :
    ∃ on, watch.left = .wait on resumed ∧ on.Answered watch.loop answer := by
  rcases Loop.turn?_eq_some_iff.1 turn with ⟨-, found⟩
  have stands := faithful.stands
  cases left : watch.left with
  | done exit =>
      rw [left] at stands
      rcases stands with ⟨ended, -, isOver⟩
      cases found.symm.trans (Loop.exit?_eq_some_iff.1 isOver)
  | wait on next =>
      rw [left] at stands
      rcases stands with ⟨_, ready, answered⟩ | ⟨_, _, _, blocked⟩ | ⟨_, _, blocked⟩
      · cases found.symm.trans ready
        exact ⟨on, rfl, answered⟩
      · cases found.symm.trans blocked
      · cases found.symm.trans blocked
  | _ =>
      rw [left] at stands
      exact stands.elim

/-- The task goes on when it is its turn. -/
theorem next_of_turn (faithful : watch.Faithful task) {after : Loop σ J} {on : Wait}
    {answer : Exit Value} {resumed : Exit Value → Activity σ J (Exit Value)}
    (steps : watch.loop.step run = some after) (waits : watch.left = .wait on resumed)
    (answered : on.Answered watch.loop answer)
    (turn : watch.loop.turn? = some (task, answer, resumed)) :
    (watch.next run task).Faithful task := by
  rcases Loop.turn?_eq_some_iff.1 turn with ⟨⟨rest, round⟩, found⟩
  have busy := Loop.busy?_eq_some_iff.2 ⟨⟨rest, round⟩, answer, resumed, found⟩
  have taken := faithful.coherent.take round
  rw [busy] at taken
  have roused := taken.rouse resumed
  have performed := (roused.coherent.perform run (resumed answer)).since roused
  have kept : ∀ {other exit}, watch.loop.exit? other = some exit → after.exit? other = some exit :=
    (faithful.coherent.step steps).2
  rw [Watch.next_of_turn steps waits turn]
  have ran := Loop.step_of_turn steps turn
  simp only [round, List.tail_cons] at ran ⊢
  subst ran
  refine ⟨performed.leads.coherent, performed.stands, ?_⟩
  intro other reply member
  rcases List.mem_append.1 member with earlier | later
  · exact (faithful.answered other reply earlier).mono kept
  · rcases List.mem_cons.1 later with here | later
    · cases here
      exact answered.mono kept
    · exact performed.answered other reply later

/-- While it is not its turn, nothing becomes of the task. -/
theorem next_of_idle (faithful : watch.Faithful task) {after : Loop σ J}
    (steps : watch.loop.step run = some after) (idle : watch.loop.busy? ≠ some task) :
    (watch.next run task).Faithful task := by
  have kept : ∀ {other exit}, watch.loop.exit? other = some exit → after.exit? other = some exit :=
    (faithful.coherent.step steps).2
  rw [Watch.next_of_idle steps idle]
  refine ⟨(faithful.coherent.step steps).1, ?_, ?_⟩
  · rcases Loop.step_cases steps with ⟨item, rest, round, rfl⟩ | ⟨empty, time, rfl⟩
    · have taken := faithful.coherent.take round
      exact (faithful.coherent.runItem round run).stands taken idle faithful.stands
    · exact faithful.stands
  · intro on answer member
    exact (faithful.answered on answer member).mono kept

theorem next (faithful : watch.Faithful task) (run : J → Activity σ J (Exit Value)) :
    (watch.next run task).Faithful task := by
  cases steps : watch.loop.step run with
  | none =>
      rw [Watch.next_of_rest steps]
      exact faithful
  | some after =>
      by_cases busy : watch.loop.busy? = some task
      · rcases Option.map_eq_some_iff.1 busy with ⟨⟨_, answer, resumed⟩, turn, rfl⟩
        rcases faithful.exists_of_turn turn with ⟨on, waits, answered⟩
        exact faithful.next_of_turn steps waits answered turn
      · exact faithful.next_of_idle steps busy

theorem continues (faithful : watch.Faithful task) (run : J → Activity σ J (Exit Value)) :
    watch.Continues (watch.next run task) := by
  cases steps : watch.loop.step run with
  | none =>
      rw [Watch.next_of_rest steps]
      exact .refl watch
  | some after =>
      by_cases busy : watch.loop.busy? = some task
      · rcases Option.map_eq_some_iff.1 busy with ⟨⟨_, answer, resumed⟩, turn, rfl⟩
        rcases faithful.exists_of_turn turn with ⟨on, waits, -⟩
        rcases next_goesOn steps waits turn with ⟨further, history, reaches⟩
        refine ⟨_, history, ?_⟩
        rw [waits]
        exact .step (.wait answer) reaches
      · rw [Watch.next_of_idle steps busy]
        exact .refl watch

end Faithful

end Watch

/-- A loop and a task of it that begins to be performed. -/
structure Trial (σ J : Type) where
  run : J → Activity σ J (Exit Value)
  loop : Loop σ J
  task : TaskId
  body : Activity σ J (Exit Value)

namespace Trial

/-- The task is followed to its first wait, and then step by step. -/
def after (trial : Trial σ J) : Nat → Watch σ J
  | 0 =>
    let account := Loop.account trial.run trial.task trial.loop trial.body
    ⟨Loop.perform trial.run trial.task trial.loop trial.body, account.1, account.2⟩
  | steps + 1 => (trial.after steps).next trial.run trial.task

/-- The task is the one that is being performed. -/
def IsSound (trial : Trial σ J) : Prop :=
  trial.loop.Coherent (some trial.task)

variable {trial : Trial σ J}

theorem faithful (sound : trial.IsSound) (steps : Nat) :
    (trial.after steps).Faithful trial.task := by
  induction steps with
  | zero =>
      have performed := Loop.Coherent.perform sound trial.run trial.body
      exact ⟨performed.leads.coherent, performed.stands, performed.answered⟩
  | succ steps ih =>
      exact ih.next trial.run

theorem continues (sound : trial.IsSound) {early late : Nat} (order : early ≤ late) :
    (trial.after early).Continues (trial.after late) := by
  induction order with
  | refl =>
      exact .refl _
  | @step late _ ih =>
      exact ih.trans ((faithful sound late).continues trial.run)

/-- What is written down is a history of the task's body. -/
theorem reaches (sound : trial.IsSound) (steps : Nat) :
    trial.body.Reaches (trial.after steps).history (trial.after steps).left := by
  have piece := Loop.perform_piece trial.run trial.task trial.loop trial.body
  rcases continues sound (Nat.zero_le steps) with ⟨further, history, reaches⟩
  rw [history]
  exact piece.reaches.trans reaches

/-- What has ended stays so. -/
theorem exit?_mono (sound : trial.IsSound) {early late : Nat} (order : early ≤ late)
    {task : TaskId} {exit : Exit Value} (ended : (trial.after early).loop.exit? task = some exit) :
    (trial.after late).loop.exit? task = some exit := by
  induction order with
  | refl =>
      exact ended
  | @step late _ ih =>
      show ((trial.after late).next trial.run trial.task).loop.exit? task = some exit
      rw [Watch.next_loop]
      cases steps : (trial.after late).loop.step trial.run with
      | none =>
          exact ih
      | some after =>
          exact ((faithful sound late).coherent.step steps).2 ih

/-- A loop that has come to rest stays as it is. -/
theorem after_of_rest {last steps : Nat}
    (rests : (trial.after last).loop.step trial.run = none) (order : last ≤ steps) :
    trial.after steps = trial.after last := by
  induction order with
  | refl =>
      rfl
  | @step steps _ ih =>
      show (trial.after steps).next trial.run trial.task = _
      rw [ih, Watch.next_of_rest rests]

/-- All that is ever written down has been by the time the loop comes to rest. -/
theorem mem_history_of_rest (sound : trial.IsSound) {last steps : Nat}
    (rests : (trial.after last).loop.step trial.run = none) {happening : Happening σ J}
    (member : happening ∈ (trial.after steps).history) :
    happening ∈ (trial.after last).history := by
  rcases Nat.le_total steps last with order | order
  · rcases continues sound order with ⟨further, history, -⟩
    rw [history]
    exact List.mem_append_left _ member
  · rw [after_of_rest rests order] at member
    exact member

/-! ## Going on -/

variable {steps : Nat}

theorem loop_after (trial : Trial σ J) (steps more : Nat) :
    (trial.after (steps + more)).loop = (trial.after steps).loop.later trial.run more := by
  induction more generalizing steps with
  | zero =>
      rfl
  | succ more ih =>
      rw [← Nat.succ_add_eq_add_succ, ih (steps + 1)]
      show ((trial.after steps).next trial.run trial.task).loop.later trial.run more = _
      rw [Watch.next_loop]
      rfl

/-- While it is not its turn, nothing is written down of the task. -/
theorem waits_until {more : Nat}
    (idle : ∀ early < more,
      ((trial.after steps).loop.later trial.run early).busy? ≠ some trial.task) :
    (trial.after (steps + more)).history = (trial.after steps).history ∧
      (trial.after (steps + more)).left = (trial.after steps).left := by
  induction more with
  | zero =>
      exact ⟨rfl, rfl⟩
  | succ more ih =>
      rcases ih fun early order => idle early (Nat.lt_succ_of_lt order) with ⟨history, left⟩
      have still := idle more (Nat.lt_succ_self more)
      rw [← loop_after] at still
      rw [← history, ← left]
      show ((trial.after (steps + more)).next trial.run trial.task).history = _ ∧
        ((trial.after (steps + more)).next trial.run trial.task).left = _
      cases stepped : (trial.after (steps + more)).loop.step trial.run with
      | none =>
          rw [Watch.next_of_rest stepped]
          exact ⟨rfl, rfl⟩
      | some after =>
          rw [Watch.next_of_idle stepped still]
          exact ⟨rfl, rfl⟩

/-- The turn of the task comes when it is ready, and until then it waits as before. -/
theorem turnComes (sound : trial.IsSound)
    (ready : (trial.after steps).loop.IsReady trial.task) :
    ∃ later, (trial.after later).history = (trial.after steps).history ∧
      (trial.after later).left = (trial.after steps).left ∧
      (trial.after later).loop.busy? = some trial.task := by
  rcases ready with ⟨answer, resumed, found⟩
  rcases (faithful sound steps).coherent.turnComes trial.run found with ⟨more, comes⟩
  rcases comes.turn with ⟨reply, -, turn⟩
  refine ⟨steps + more, (waits_until comes.first).1, (waits_until comes.first).2, ?_⟩
  rw [loop_after, Loop.busy?, turn]
  rfl

/-- A wait passes: it is for a turn, or for a task that ends some time. -/
def Passes (trial : Trial σ J) : Wait → Prop
  | .turn => True
  | .sleep _ => False
  | .task awaited => ∃ steps exit, (trial.after steps).loop.exit? awaited = some exit

/-- A task that waits for a turn, or for a task that has ended, is ready. -/
theorem isReady_of_stands {loop : Loop σ J} {task : TaskId} (coherent : loop.Coherent none)
    {on : Wait} {next : Exit Value → Activity σ J (Exit Value)}
    (stands : loop.Stands task (.wait on next))
    (passes : on = .turn ∨ ∃ awaited exit, on = .task awaited ∧
      loop.exit? awaited = some exit) : loop.IsReady task := by
  rcases stands with ⟨answer, found, -⟩ | ⟨seconds, timer, rfl, -⟩ | ⟨awaited, rfl, found⟩
  · exact ⟨answer, next, found⟩
  · rcases passes with absurdity | ⟨_, _, absurdity, -⟩
    · cases absurdity
    · cases absurdity
  · rcases passes with absurdity | ⟨_, exit, same, ended⟩
    · cases absurdity
    · cases same
      cases (coherent.waits task awaited next found).2.symm.trans ended

/-- A task whose wait is over goes on. -/
theorem goesOn_of_ready (sound : trial.IsSound) {on : Wait}
    {next : Exit Value → Activity σ J (Exit Value)}
    (waits : (trial.after steps).left = .wait on next)
    (ready : (trial.after steps).loop.IsReady trial.task) :
    ∃ later answer further, (trial.after later).history =
        (trial.after steps).history ++ .waited on answer :: further ∧
      (next answer).Reaches further (trial.after later).left := by
  rcases turnComes sound ready with ⟨later, same, stays, busy⟩
  rcases Option.map_eq_some_iff.1 busy with ⟨⟨_, answer, resumed⟩, turn, rfl⟩
  rcases (faithful sound later).exists_of_turn turn with ⟨_, left, -⟩
  cases left.symm.trans (stays.trans waits)
  rcases Loop.turn?_eq_some_iff.1 turn with ⟨⟨rest, round⟩, -⟩
  have member : .resume trial.task ∈ (trial.after later).loop.round := by
    rw [round]
    exact List.mem_cons_self
  rcases Loop.exists_step trial.run (.inl member) with ⟨after, stepped⟩
  rcases Watch.next_goesOn stepped left turn with ⟨further, history, reaches⟩
  refine ⟨later + 1, answer, further, ?_, reaches⟩
  rw [← same]
  exact history

/-- A task whose wait passes goes on. -/
theorem goesOn (sound : trial.IsSound) {on : Wait}
    {next : Exit Value → Activity σ J (Exit Value)}
    (waits : (trial.after steps).left = .wait on next) (passes : trial.Passes on) :
    ∃ later answer further, (trial.after later).history =
        (trial.after steps).history ++ .waited on answer :: further ∧
      (next answer).Reaches further (trial.after later).left := by
  have stands := (faithful sound steps).stands
  rw [waits] at stands
  cases on with
  | turn =>
      have ready := isReady_of_stands (faithful sound steps).coherent stands (.inl rfl)
      exact goesOn_of_ready sound waits ready
  | sleep seconds =>
      exact passes.elim
  | task awaited =>
      rcases passes with ⟨last, exit, ended⟩
      -- By the time the awaited task has ended, this one still waits, or it went on before.
      have continues := continues sound (Nat.le_max_left steps last)
      have gone := exit?_mono sound (Nat.le_max_right steps last) ended
      rcases continues.of_wait waits with ⟨history, still⟩ | ⟨answer, further, went⟩
      · have stays := (faithful sound (max steps last)).stands
        rw [still] at stays
        have ready := isReady_of_stands (faithful sound _).coherent stays
          (.inr ⟨awaited, exit, rfl, gone⟩)
        rw [← history]
        exact goesOn_of_ready sound still ready
      · exact ⟨_, answer, further, went⟩

end Trial

/-! ## Coming to an end -/

/-- All that an activity waits for is of some kind. -/
def Activity.WaitsFor (kind : Wait → Prop) : Activity σ J α → Prop
  | .done _ => True
  | .wait on next => kind on ∧ ∀ exit, (next exit).WaitsFor kind
  | .get next => ∀ state, (next state).WaitsFor kind
  | .clock next => ∀ time, (next time).WaitsFor kind
  | .spawn _ next => ∀ task, (next task).WaitsFor kind
  | .promise next => ∀ task, (next task).WaitsFor kind
  | .later _ _ next => ∀ timer, (next timer).WaitsFor kind
  | .peek _ next => ∀ exit, (next exit).WaitsFor kind
  | .put _ next => next.WaitsFor kind
  | .settle _ _ next => next.WaitsFor kind
  | .cancel _ next => next.WaitsFor kind
  | .withdraw _ next => next.WaitsFor kind

theorem Activity.WaitsFor.bind {β : Type} {kind : Wait → Prop} {activity : Activity σ J α}
    {next : α → Activity σ J β} (waits : activity.WaitsFor kind)
    (rest : ∀ value, (next value).WaitsFor kind) : (activity.bind next).WaitsFor kind := by
  induction activity with
  | done value =>
      exact rest value
  | wait on following ih =>
      exact ⟨waits.1, fun exit => ih exit (waits.2 exit)⟩
  | get following ih | clock following ih | spawn _ following ih | promise following ih
  | later _ _ following ih | peek _ following ih =>
      exact fun answer => ih answer (waits answer)
  | put _ following ih | settle _ _ following ih | cancel _ following ih
  | withdraw _ following ih =>
      exact ih waits

theorem Activity.WaitsFor.along {kind : Wait → Prop} {activity left : Activity σ J α}
    {history : List (Happening σ J)} (waits : activity.WaitsFor kind)
    (reaches : activity.Reaches history left) : left.WaitsFor kind := by
  induction reaches with
  | here =>
      exact waits
  | step first _ ih =>
      cases first with
      | put | settle | cancel | withdraw =>
          exact ih waits
      | wait answer =>
          exact ih (waits.2 answer)
      | get answer | clock answer | spawn answer | promise answer | later answer
      | peek answer =>
          exact ih (waits answer)

namespace Trial

variable {trial : Trial σ J} {steps : Nat}

theorem rests (sound : trial.IsSound) (steps : Nat) : (trial.after steps).left.Rests := by
  have stands := (faithful sound steps).stands
  cases left : (trial.after steps).left with
  | done | wait =>
      trivial
  | _ =>
      rw [left] at stands
      exact stands.elim

/-- By some step, a part of the task has come to an answer. -/
def ComesTo (trial : Trial σ J) (part : Activity σ J α) (steps : Nat) (answer : α) : Prop :=
  ∃ during rest, (trial.after steps).history = during ++ rest ∧ part.Ends during answer

theorem ComesTo.mono (sound : trial.IsSound) {part : Activity σ J α} {early late : Nat}
    {answer : α} (order : early ≤ late) (comes : trial.ComesTo part early answer) :
    trial.ComesTo part late answer := by
  rcases comes with ⟨during, rest, history, ends⟩
  rcases continues sound order with ⟨further, longer, -⟩
  refine ⟨during, rest ++ further, ?_, ends⟩
  rw [longer, history, List.append_assoc]

/-- A part comes to one answer. -/
theorem ComesTo.unique (sound : trial.IsSound) {part : Activity σ J α} {early late : Nat}
    {answer other : α} (comes : trial.ComesTo part early answer)
    (again : trial.ComesTo part late other) : answer = other := by
  rcases comes.mono sound (Nat.le_max_left early late) with ⟨during, rest, history, ends⟩
  rcases again.mono sound (Nat.le_max_right early late) with ⟨instead, tail, same, endsToo⟩
  exact (ends.unique endsToo (history.symm.trans same)).2

/-- After some of the history, a part of the task goes from its begin to its end. -/
def Completes (trial : Trial σ J) (before : List (Happening σ J)) (part : Activity σ J α) : Prop :=
  ∃ steps during answer rest,
    (trial.after steps).history = before ++ (during ++ rest) ∧ part.Ends during answer

/-- What is left of a part whose waits pass comes to its end, whatever follows it. -/
theorem completes_of_left (sound : trial.IsSound) {part : Activity σ J α}
    {next : α → Activity σ J (Exit Value)} (passes : part.WaitsFor trial.Passes)
    (partRests : part.Rests) (left : (trial.after steps).left = part.bind next) :
    trial.Completes (trial.after steps).history part := by
  -- The number of steps grows with each wait, so the induction has to hold for all of them.
  have everywhere : ∀ steps, part.WaitsFor trial.Passes →
      (trial.after steps).left = part.bind next →
      trial.Completes (trial.after steps).history part := by
    refine Activity.Reaches.inductionOn
      (motive := fun part => ∀ steps, part.WaitsFor trial.Passes →
        (trial.after steps).left = part.bind next →
        trial.Completes (trial.after steps).history part)
      ?_ ?_ .here partRests
    · intro value steps _ _
      exact ⟨steps, [], value, [], by simp, .done⟩
    · intro on following ih steps passes left
      rcases goesOn sound left passes.1 with ⟨later, answer, further, history, reaches⟩
      rcases reaches.of_bind (rests sound later) with ⟨other, resumed, reached, stays⟩ |
        ⟨early, value, late, ended, -, rfl⟩
      · have waits := (passes.2 answer).along reached
        rcases ih answer further _ reached trivial later waits stays with
          ⟨last, during, value, rest, longer, ends⟩
        refine ⟨last, .waited on answer :: (further ++ during), value, rest, ?_, ?_⟩
        · rw [longer, history]
          simp
        · exact .wait answer (reached.append_ends ends)
      · exact ⟨later, .waited on answer :: early, value, late, history, .wait answer ended.ends⟩
  exact everywhere steps passes left

/-- A part of the task that has begun, and whose waits pass, comes to its end. -/
theorem completes (sound : trial.IsSound) {part : Activity σ J α}
    {next : α → Activity σ J (Exit Value)} {before begun : List (Happening σ J)}
    (passes : part.WaitsFor trial.Passes) (history : (trial.after steps).history = before ++ begun)
    (reached : (part.bind next).Reaches begun (trial.after steps).left) :
    trial.Completes before part := by
  rcases reached.of_bind (rests sound steps) with ⟨on, following, within, left⟩ |
    ⟨early, answer, late, ended, -, rfl⟩
  · have still : (Activity.wait on following).WaitsFor trial.Passes := passes.along within
    rcases completes_of_left sound still trivial left with
      ⟨later, during, answer, rest, longer, ends⟩
    refine ⟨later, begun ++ during, answer, rest, ?_, within.append_ends ends⟩
    rw [longer, history]
    simp
  · exact ⟨steps, early, answer, late, history, ended.ends⟩

end Trial

/-!
## How a task ends

A task that is to begin stands in a loop like one that waits for a turn, so it can be watched from
there on.  Whatever else the loop runs, if the task ends some time, it ended as its work does after
some history, in which each wait was answered as it had to be, or it was cancelled before it began
(`Loop.Coherent.ends_of_exit`).

What that work is, is mostly a course of parts one after another.  A course ends as its last part
does, or as the first part that does not come to a value.
-/

namespace Watch

/-- A task can be followed for any number of steps. -/
theorem Faithful.later {task : TaskId} {watch : Watch σ J} (faithful : watch.Faithful task)
    (run : J → Activity σ J (Exit Value)) (steps : Nat) :
    ∃ last : Watch σ J, last.loop = watch.loop.later run steps ∧ last.Faithful task ∧
      watch.Continues last := by
  induction steps generalizing watch with
  | zero =>
      exact ⟨watch, rfl, faithful, .refl watch⟩
  | succ steps ih =>
      rcases ih (faithful.next run) with ⟨last, isLater, stands, continues⟩
      rw [next_loop] at isLater
      exact ⟨last, isLater, stands, (faithful.continues run).trans continues⟩

end Watch

namespace Loop

variable {loop : Loop σ J} {task : TaskId} {body : Activity σ J (Exit Value)}
  {run : J → Activity σ J (Exit Value)} {answer exit : Exit Value} {steps : Nat}

/-- What stands for a task that has ended is nothing but an exit. -/
theorem eq_done_of_exit {left : Activity σ J (Exit Value)} (stands : loop.Stands task left)
    (ended : loop.exit? task = some exit) : ∃ reached, left = .done reached ∧ reached.MayEnd exit := by
  cases left with
  | done reached =>
      rcases stands with ⟨other, mayEnd, isOver⟩
      cases isOver.symm.trans ended
      exact ⟨reached, rfl, mayEnd⟩
  | wait on next =>
      rw [exit?_of_stands stands] at ended
      cases ended
  | _ =>
      exact stands.elim

/-- A task that was to begin and has ended was cancelled, or its work came to that end. -/
theorem Coherent.ends_of_exit (coherent : loop.Coherent none)
    (found : loop.tasks[task]? = some (.ready answer (entry body)))
    (answers : answer = .error .cancelled ∨ answer = .ok .null)
    (ended : (loop.later run steps).exit? task = some exit) :
    exit = .error .cancelled ∨ ∃ history, body.Ends history exit ∧
      ∀ on reply, .waited on reply ∈ history → on.Answered (loop.later run steps) reply := by
  have faithful : Watch.Faithful task ⟨loop, [], .wait .turn (entry body)⟩ :=
    ⟨coherent, .inl ⟨answer, found, answers⟩, by simp⟩
  rcases faithful.later run steps with ⟨last, isLater, stands, further, history, reaches⟩
  rw [← isLater] at ended ⊢
  rcases eq_done_of_exit stands.stands ended with ⟨reached, isOver, mayEnd⟩
  have isHistory : last.history = further := history
  rw [isOver] at reaches
  cases mayEnd with
  | cancelled =>
      exact .inl rfl
  | itself =>
  cases reaches.ends with
  | @wait _ _ rest _ reply ends =>
      have answered := stands.answered .turn reply (by simp [isHistory])
      rcases answered with rfl | rfl
      · exact .inl ((Activity.ends_done_iff _ _ _).1 ends).2.symm
      · refine .inr ⟨rest, ends, ?_⟩
        intro on reply member
        exact stands.answered on reply (by simp [isHistory, member])

end Loop

/-! ## Courses -/

namespace Course

/-- A course of two parts ends as the second one, or as the first one without a value. -/
theorem ends_bind {course : Course σ J α} {next : α → Course σ J β}
    {history : List (Happening σ J)} {exit : Exit β}
    (ends : (course >>= next).attempt.Ends history exit) :
    (∃ first value rest, course.attempt.Ends first (.ok value) ∧
        (next value).attempt.Ends rest exit ∧ history = first ++ rest) ∨
      ∃ interrupt, course.attempt.Ends history (.error interrupt) ∧ exit = .error interrupt := by
  rcases Activity.Ends.exists_of_bind ends with ⟨first, reached, rest, begins, goesOn, rfl⟩
  cases reached with
  | ok value =>
      exact .inl ⟨first, value, rest, begins, goesOn, rfl⟩
  | error interrupt =>
      rcases (Activity.ends_done_iff _ _ _).1 goesOn with ⟨rfl, rfl⟩
      rw [List.append_nil]
      exact .inr ⟨interrupt, begins, rfl⟩

/-- A course of two parts that has come to a wait or to its end is in its second part, or waits in
the first one, or ended with it. -/
theorem reaches_bind {course : Course σ J α} {next : α → Course σ J β}
    {history : List (Happening σ J)} {left : Activity σ J (Exit β)}
    (reaches : (course >>= next).attempt.Reaches history left) (rests : left.Rests) :
    (∃ first value rest, course.attempt.Ends first (.ok value) ∧
        (next value).attempt.Reaches rest left ∧ history = first ++ rest) ∨
      (∃ interrupt, course.attempt.Ends history (.error interrupt) ∧
        left = .done (.error interrupt)) ∨
      ∃ on goesOn further, course.attempt.Reaches history (.wait on goesOn) ∧
        left = .wait on further := by
  rcases reaches.of_bind rests with ⟨on, goesOn, waits, rfl⟩ |
    ⟨first, reached, rest, ended, goesOn, rfl⟩
  · exact .inr (.inr ⟨on, goesOn, _, waits, rfl⟩)
  · cases reached with
    | ok value =>
        exact .inl ⟨first, value, rest, ended.ends, goesOn, rfl⟩
    | error interrupt =>
        rcases goesOn.of_done with ⟨rfl, rfl⟩
        rw [List.append_nil]
        exact .inr (.inl ⟨interrupt, ended.ends, rfl⟩)

/-- A course in a coroutine of its own ends as the course, with what leaves the coroutine. -/
theorem ends_enclosed {course : Course σ J α} {history : List (Happening σ J)} {exit : Exit α}
    (ends : course.enclosed.attempt.Ends history exit) :
    ∃ inner, course.attempt.Ends history inner ∧ exit = inner.mapError Interrupt.outside := by
  rcases Activity.Ends.exists_of_bind ends with ⟨first, inner, rest, begins, goesOn, rfl⟩
  rcases (Activity.ends_done_iff _ _ _).1 goesOn with ⟨rfl, rfl⟩
  rw [List.append_nil]
  exact ⟨inner, begins, rfl⟩

/-- A course in a coroutine of its own waits for what the course waits for. -/
theorem waits_enclosed {course : Course σ J α} {history : List (Happening σ J)} {on : Wait}
    {next : Exit Value → Activity σ J (Exit α)}
    (waits : course.enclosed.attempt.Reaches history (.wait on next)) :
    ∃ goesOn, course.attempt.Reaches history (.wait on goesOn) := by
  rcases Activity.Reaches.of_bind waits trivial with ⟨_, goesOn, within, ⟨⟩⟩ |
    ⟨_, _, _, -, absurdity, -⟩
  · exact ⟨goesOn, within⟩
  · cases (Activity.Reaches.of_done absurdity).2

theorem ends_pure_iff {value : α} {history : List (Happening σ J)} {exit : Exit α} :
    (pure value : Course σ J α).attempt.Ends history exit ↔ history = [] ∧ .ok value = exit := by
  exact Activity.ends_done_iff _ _ _

theorem ends_fail_iff {failure : Failure} {history : List (Happening σ J)} {exit : Exit α} :
    (fail failure : Course σ J α).attempt.Ends history exit ↔
      history = [] ∧ .error (.failed failure) = exit := by
  exact Activity.ends_done_iff _ _ _

theorem ends_wait {on : Wait} {history : List (Happening σ J)} {exit : Exit Value}
    (ends : (wait on : Course σ J Value).attempt.Ends history exit) :
    history = [.waited on exit] := by
  rcases ends with ⟨⟩
  rename_i ends
  rcases (Activity.ends_done_iff _ _ _).1 ends with ⟨rfl, rfl⟩
  rfl

theorem ends_modify {f : σ → σ} {history : List (Happening σ J)} {exit : Exit Unit}
    (ends : (modify f : Course σ J Unit).attempt.Ends history exit) : exit = .ok () := by
  rcases ends with ⟨⟩
  rename_i state ends
  rcases ends with ⟨⟩
  rename_i ends
  exact ((Activity.ends_done_iff _ _ _).1 ends).2.symm

/-- A sleep that is answered as it has to be does not fail. -/
theorem not_sleep_failed {seconds : Binary64} {loop : Loop σ J} {history : List (Happening σ J)}
    {failure : Failure}
    (answered : ∀ on reply, .waited on reply ∈ history → on.Answered loop reply) :
    ¬ (sleep seconds : Course σ J Unit).attempt.Ends history (.error (.failed failure)) := by
  intro ends
  rcases ends_bind ends with ⟨_, _, _, -, rests, -⟩ | ⟨interrupt, waits, isFailed⟩
  · cases (ends_pure_iff.1 rests).2
  · cases isFailed
    rw [ends_wait waits] at answered
    rcases answered _ _ List.mem_cons_self with absurdity | absurdity
    · cases absurdity
    · cases absurdity

end Course

end Steward
