import Steward.Loop.Activity

/-!
# Histories of activities

An activity is a tree of instructions, and its surroundings answer them: the
state that it finds, how what it waits for ends, the numbers of the tasks that
it begins.  A history lists the instructions of one way through the tree with
their answers.  `Ends` relates an activity to the histories it can have and to
what it answers after them, whatever the surroundings do.

Running one activity after another concatenates their histories, so the
histories of a program are read off its parts.
-/

namespace Steward

/-- An instruction of an activity, with the answer of its surroundings. -/
inductive Happening (σ J : Type) where
  | saw (state : σ)
  | left (state : σ)
  | readClock (time : Binary64)
  | waited (wait : Wait) (answer : Exit Value)
  | spawned (job : J) (task : TaskId)
  | promised (task : TaskId)
  | settled (task : TaskId) (exit : Exit Value)
  | cancelled (task : TaskId)
  | postponed (seconds : Binary64) (job : J) (timer : TimerId)
  | withdrew (timer : TimerId)
  | peeked (task : TaskId) (exit : Option (Exit Value))

namespace Activity

variable {σ J α β : Type}

@[simp]
theorem done_bind (value : α) (next : α → Activity σ J β) :
    (done value : Activity σ J α).bind next = next value := by
  rfl

/-- The histories that an activity can have, and what it answers after them. -/
inductive Ends : Activity σ J α → List (Happening σ J) → α → Prop where
  | done {answer : α} : Ends (.done answer) [] answer
  | get {next : σ → Activity σ J α} {history : List (Happening σ J)} {answer : α}
      (state : σ) (rest : Ends (next state) history answer) :
      Ends (.get next) (.saw state :: history) answer
  | put {state : σ} {next : Activity σ J α} {history : List (Happening σ J)} {answer : α}
      (rest : Ends next history answer) :
      Ends (.put state next) (.left state :: history) answer
  | clock {next : Binary64 → Activity σ J α} {history : List (Happening σ J)} {answer : α}
      (time : Binary64) (rest : Ends (next time) history answer) :
      Ends (.clock next) (.readClock time :: history) answer
  | wait {on : Wait} {next : Exit Value → Activity σ J α} {history : List (Happening σ J)}
      {answer : α} (exit : Exit Value) (rest : Ends (next exit) history answer) :
      Ends (.wait on next) (.waited on exit :: history) answer
  | spawn {job : J} {next : TaskId → Activity σ J α} {history : List (Happening σ J)}
      {answer : α} (task : TaskId) (rest : Ends (next task) history answer) :
      Ends (.spawn job next) (.spawned job task :: history) answer
  | promise {next : TaskId → Activity σ J α} {history : List (Happening σ J)} {answer : α}
      (task : TaskId) (rest : Ends (next task) history answer) :
      Ends (.promise next) (.promised task :: history) answer
  | settle {task : TaskId} {exit : Exit Value} {next : Activity σ J α}
      {history : List (Happening σ J)} {answer : α} (rest : Ends next history answer) :
      Ends (.settle task exit next) (.settled task exit :: history) answer
  | cancel {task : TaskId} {next : Activity σ J α} {history : List (Happening σ J)} {answer : α}
      (rest : Ends next history answer) :
      Ends (.cancel task next) (.cancelled task :: history) answer
  | later {seconds : Binary64} {job : J} {next : TimerId → Activity σ J α}
      {history : List (Happening σ J)} {answer : α} (timer : TimerId)
      (rest : Ends (next timer) history answer) :
      Ends (.later seconds job next) (.postponed seconds job timer :: history) answer
  | withdraw {timer : TimerId} {next : Activity σ J α} {history : List (Happening σ J)}
      {answer : α} (rest : Ends next history answer) :
      Ends (.withdraw timer next) (.withdrew timer :: history) answer
  | peek {task : TaskId} {next : Option (Exit Value) → Activity σ J α}
      {history : List (Happening σ J)} {answer : α} (exit : Option (Exit Value))
      (rest : Ends (next exit) history answer) :
      Ends (.peek task next) (.peeked task exit :: history) answer

@[simp]
theorem ends_done_iff (value answer : α) (history : List (Happening σ J)) :
    (done value : Activity σ J α).Ends history answer ↔
      history = [] ∧ value = answer := by
  constructor
  · rintro ⟨⟩
    exact ⟨rfl, rfl⟩
  · rintro ⟨rfl, rfl⟩
    exact .done

theorem Ends.bind
    {activity : Activity σ J α} {next : α → Activity σ J β}
    {first rest : List (Happening σ J)} {value : α} {answer : β}
    (begins : activity.Ends first value)
    (goesOn : (next value).Ends rest answer) :
    (activity.bind next).Ends (first ++ rest) answer := by
  induction begins with
  | done =>
      exact goesOn
  | get state _ ih =>
      exact .get state (ih goesOn)
  | put _ ih =>
      exact .put (ih goesOn)
  | clock time _ ih =>
      exact .clock time (ih goesOn)
  | wait exit _ ih =>
      exact .wait exit (ih goesOn)
  | spawn task _ ih =>
      exact .spawn task (ih goesOn)
  | promise task _ ih =>
      exact .promise task (ih goesOn)
  | settle _ ih =>
      exact .settle (ih goesOn)
  | cancel _ ih =>
      exact .cancel (ih goesOn)
  | later timer _ ih =>
      exact .later timer (ih goesOn)
  | withdraw _ ih =>
      exact .withdraw (ih goesOn)
  | peek exit _ ih =>
      exact .peek exit (ih goesOn)

/-- A history of a sequence splits into histories of its two parts. -/
theorem Ends.exists_of_bind
    {activity : Activity σ J α} {next : α → Activity σ J β}
    {history : List (Happening σ J)} {answer : β}
    (ends : (activity.bind next).Ends history answer) :
    ∃ first value rest,
      activity.Ends first value ∧ (next value).Ends rest answer ∧
        history = first ++ rest := by
  induction activity generalizing history with
  | done value =>
      exact ⟨[], value, history, .done, ends, rfl⟩
  | put _ _ ih | settle _ _ _ ih | cancel _ _ ih | withdraw _ _ ih =>
      rcases ends with ⟨⟩
      rename_i ends
      rcases ih ends with ⟨first, value, rest, begins, goesOn, rfl⟩
      exact ⟨_ :: first, value, rest, by constructor; exact begins, goesOn, rfl⟩
  | get _ ih | clock _ ih | wait _ _ ih | spawn _ _ ih | promise _ ih
  | later _ _ _ ih | peek _ _ ih =>
      rcases ends with ⟨⟩
      rename_i given ends
      rcases ih given ends with ⟨first, value, rest, begins, goesOn, rfl⟩
      exact ⟨_ :: first, value, rest, by constructor; exact begins, goesOn, rfl⟩

theorem ends_seq_iff
    {activity : Activity σ J α} {next : α → Activity σ J β}
    {history : List (Happening σ J)} {answer : β} :
    (activity >>= next).Ends history answer ↔
      ∃ first value rest,
        activity.Ends first value ∧ (next value).Ends rest answer ∧
          history = first ++ rest := by
  constructor
  · exact Ends.exists_of_bind
  · rintro ⟨first, value, rest, begins, goesOn, rfl⟩
    exact begins.bind goesOn

@[simp]
theorem ends_pure_iff (value answer : α) (history : List (Happening σ J)) :
    (pure value : Activity σ J α).Ends history answer ↔
      history = [] ∧ value = answer := by
  exact ends_done_iff value answer history

/-- An activity that was interrupted has no answer of its own. -/
theorem not_ends_interrupted
    {interrupt : Interrupt} {answer : α} {history : List (Happening σ J)} :
    ¬ (pure (.error interrupt) : Activity σ J (Exit α)).Ends history (.ok answer) := by
  intro ends
  cases ((ends_pure_iff _ _ _).1 ends).2

theorem ends_atomically_seq_iff
    {f : σ → α × σ} {next : α → Activity σ J β}
    {history : List (Happening σ J)} {answer : β} :
    (atomically f >>= next).Ends history answer ↔
      ∃ state rest,
        (next (f state).1).Ends rest answer ∧
          history = .saw state :: .left (f state).2 :: rest := by
  constructor
  · rintro ⟨⟩
    rename_i state ends
    rcases ends with ⟨⟩
    rename_i ends
    exact ⟨state, _, ends, rfl⟩
  · rintro ⟨state, rest, ends, rfl⟩
    exact .get state (.put ends)

theorem ends_wait_seq_iff
    {on : Wait} {next : Exit Value → Activity σ J β}
    {history : List (Happening σ J)} {answer : β} :
    (wait on .done >>= next).Ends history answer ↔
      ∃ exit rest, (next exit).Ends rest answer ∧ history = .waited on exit :: rest := by
  constructor
  · rintro ⟨⟩
    rename_i exit ends
    exact ⟨exit, _, ends, rfl⟩
  · rintro ⟨exit, rest, ends, rfl⟩
    exact .wait exit ends

theorem ends_spawn_seq_iff
    {job : J} {next : TaskId → Activity σ J β}
    {history : List (Happening σ J)} {answer : β} :
    (spawn job .done >>= next).Ends history answer ↔
      ∃ task rest, (next task).Ends rest answer ∧ history = .spawned job task :: rest := by
  constructor
  · rintro ⟨⟩
    rename_i task ends
    exact ⟨task, _, ends, rfl⟩
  · rintro ⟨task, rest, ends, rfl⟩
    exact .spawn task ends

end Activity

end Steward
