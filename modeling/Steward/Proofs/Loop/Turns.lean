import Steward.Proofs.Loop.Performing

/-!
# Turns

A task that is ready has been scheduled, so its turn comes: each step runs an item of the
round, and when the round is over the next one runs what was scheduled before it
(`Coherent.turnComes`).  Until then nothing becomes of the task, except that it may be
cancelled.

A task that is cancelled before it began is given up.  When its turn comes it ends as
cancelled, so it never does anything, whatever else the loop runs (`IsGivenUp.not_acts`).
-/

namespace Steward.Loop

variable {σ J : Type}

variable {run : J → Activity σ J (Exit Value)} {loop before after : Loop σ J}
  {busy still : Option TaskId} {task : TaskId} {answer reply : Exit Value}
  {resumed : Exit Value → Activity σ J (Exit Value)}

/-! ## Steps in a row -/

/-- A loop after its next step; one that has come to rest stays as it is. -/
def next (run : J → Activity σ J (Exit Value)) (loop : Loop σ J) : Loop σ J :=
  (loop.step run).getD loop

/-- A loop after some steps. -/
def later (run : J → Activity σ J (Exit Value)) : Nat → Loop σ J → Loop σ J
  | 0, loop => loop
  | steps + 1, loop => later run steps (next run loop)

theorem next_of_step (steps : loop.step run = some after) : next run loop = after := by
  rw [next, steps, Option.getD_some]

theorem Coherent.next (coherent : loop.Coherent none) (run : J → Activity σ J (Exit Value)) :
    (loop.next run).Coherent none := by
  cases steps : loop.step run with
  | none =>
      rw [Loop.next, steps]
      exact coherent
  | some after =>
      rw [next_of_step steps]
      exact (coherent.step steps).1

/-! ## Waiting for a turn -/

/-- A task that is ready stays so until it is busy, but it may be cancelled. -/
theorem Leads.ready (leads : Leads busy still before after) (idle : busy ≠ some task)
    (found : before.tasks[task]? = some (.ready answer resumed)) :
    ∃ reply, (reply = answer ∨ reply = .error .cancelled) ∧
      after.tasks[task]? = some (.ready reply resumed) := by
  rcases leads.turns task _ idle found with ⟨turned, there, turns⟩
  cases turns with
  | stays =>
      exact ⟨answer, .inl rfl, there⟩
  | cancelled =>
      exact ⟨_, .inr rfl, there⟩

/-- A step in which a task is ready but it is not its turn. -/
theorem Coherent.step_of_ready (coherent : loop.Coherent none)
    (run : J → Activity σ J (Exit Value))
    (found : loop.tasks[task]? = some (.ready answer resumed)) (idle : loop.busy? ≠ some task) :
    (∃ reply, (reply = answer ∨ reply = .error .cancelled) ∧
        (loop.next run).tasks[task]? = some (.ready reply resumed)) ∧
      ((∃ item rest, loop.round = item :: rest ∧
          Leads loop.busy? none { loop with round := rest } (loop.next run)) ∨
        loop.round = [] ∧ ∃ time, loop.next run = loop.beginRound time) := by
  have member := coherent.scheduled task ⟨answer, resumed, found⟩ nofun
  rcases exists_step run member with ⟨after, stepped⟩
  rw [next_of_step stepped]
  rcases step_cases stepped with ⟨item, rest, round, rfl⟩ | ⟨empty, time, rfl⟩
  · have leads := coherent.runItem round run
    exact ⟨leads.ready idle found, .inl ⟨item, rest, round, leads⟩⟩
  · exact ⟨⟨answer, .inl rfl, found⟩, .inr ⟨empty, time, rfl⟩⟩

/-- The turn of a task comes after some steps and not before.  It goes on as it was to, unless
it was cancelled meanwhile. -/
structure TurnComes (run : J → Activity σ J (Exit Value)) (loop : Loop σ J) (task : TaskId)
    (answer : Exit Value) (resumed : Exit Value → Activity σ J (Exit Value)) (steps : Nat) :
    Prop where
  turn : ∃ reply, (reply = answer ∨ reply = .error .cancelled) ∧
    (later run steps loop).turn? = some (task, reply, resumed)
  first : ∀ early < steps, (later run early loop).busy? ≠ some task

theorem TurnComes.of_next {steps : Nat}
    (comes : TurnComes run (loop.next run) task reply resumed steps)
    (idle : loop.busy? ≠ some task) (replies : reply = answer ∨ reply = .error .cancelled) :
    TurnComes run loop task answer resumed (steps + 1) where
  turn := by
    rcases comes.turn with ⟨last, rfl | rfl, turn⟩
    · exact ⟨last, replies, turn⟩
    · exact ⟨_, .inr rfl, turn⟩
  first := by
    intro early order
    cases early with
    | zero =>
        exact idle
    | succ early =>
        exact comes.first early (Nat.lt_of_succ_lt_succ order)

/-- The turn of a ready task comes if it does once the round is over, since each step runs an
item of the round.  What is known of the loop is to be kept until then. -/
theorem Coherent.turnComes_of_kept (coherent : loop.Coherent none)
    (run : J → Activity σ J (Exit Value)) (known : Loop σ J → Prop)
    (kept : ∀ (loop : Loop σ J) item rest, loop.IsReady task → loop.busy? ≠ some task →
      loop.round = item :: rest →
      Leads loop.busy? none { loop with round := rest } (loop.next run) → known loop →
      known (loop.next run))
    (ends : ∀ (loop : Loop σ J) time answer, loop.round = [] → known loop →
      (loop.beginRound time).Coherent none →
      (loop.beginRound time).tasks[task]? = some (.ready answer resumed) →
      ∃ steps, TurnComes run (loop.beginRound time) task answer resumed steps)
    (found : loop.tasks[task]? = some (.ready answer resumed)) (knows : known loop) :
    ∃ steps, TurnComes run loop task answer resumed steps := by
  induction long : loop.round.length using Nat.strongRecOn generalizing loop answer with
  | ind length ih =>
      by_cases busy : loop.busy? = some task
      · refine ⟨0, ⟨answer, .inl rfl, ?_⟩, fun _ order => absurd order (Nat.not_lt_zero _)⟩
        exact turn?_eq_some_iff.2 ⟨(busy?_eq_some_iff.1 busy).1, found⟩
      · obtain ⟨⟨reply, replies, there⟩, ⟨item, rest, round, leads⟩ | ⟨empty, time, begun⟩⟩ :=
          coherent.step_of_ready run found busy
        · have shorter : (loop.next run).round.length < length := by
            rw [← long, round]
            exact Nat.lt_succ_of_le leads.shrinks
          have still := kept loop item rest ⟨answer, resumed, found⟩ busy round leads knows
          rcases ih _ shorter leads.coherent there still rfl with ⟨steps, comes⟩
          exact ⟨_, comes.of_next busy replies⟩
        · rw [begun] at there
          rcases ends loop time reply empty knows (coherent.beginRound empty time) there with
            ⟨steps, comes⟩
          rw [← begun] at comes
          exact ⟨_, comes.of_next busy replies⟩

/-- The turn of a task that is in the round comes before the round is over. -/
theorem Coherent.turnComes_of_round (coherent : loop.Coherent none)
    (run : J → Activity σ J (Exit Value))
    (found : loop.tasks[task]? = some (.ready answer resumed))
    (member : .resume task ∈ loop.round) :
    ∃ steps, TurnComes run loop task answer resumed steps := by
  refine coherent.turnComes_of_kept run (fun loop => .resume task ∈ loop.round) ?_ ?_ found member
  · intro loop item rest ready idle round leads member
    rw [round] at member
    rcases List.mem_cons.1 member with first | later
    · exact absurd (busy?_eq_some_iff.2 ⟨⟨rest, first ▸ round⟩, ready⟩) idle
    · exact leads.round _ later
  · intro loop time answer empty member
    rw [empty] at member
    cases member

/-- The turn of a task that is scheduled comes, after what is left of the round. -/
theorem Coherent.turnComes_of_scheduled (coherent : loop.Coherent none)
    (run : J → Activity σ J (Exit Value))
    (found : loop.tasks[task]? = some (.ready answer resumed))
    (member : .resume task ∈ loop.scheduled) :
    ∃ steps, TurnComes run loop task answer resumed steps := by
  refine coherent.turnComes_of_kept run (fun loop => .resume task ∈ loop.scheduled) ?_ ?_ found
    member
  · intro loop item rest _ _ _ leads member
    exact leads.scheduled _ member
  · intro loop time answer _ member begun there
    exact begun.turnComes_of_round run there (mem_beginRound loop time member)

/-- The turn of a ready task comes. -/
theorem Coherent.turnComes (coherent : loop.Coherent none)
    (run : J → Activity σ J (Exit Value))
    (found : loop.tasks[task]? = some (.ready answer resumed)) :
    ∃ steps, TurnComes run loop task answer resumed steps := by
  rcases coherent.scheduled task ⟨answer, resumed, found⟩ nofun with current | scheduled
  · exact coherent.turnComes_of_round run found current
  · exact coherent.turnComes_of_scheduled run found scheduled

/-! ## Tasks that are given up -/

/-- What a task does when it begins: its body, unless it was cancelled before. -/
def entry (body : Activity σ J (Exit Value)) : Exit Value → Activity σ J (Exit Value)
  | .ok _ => body
  | .error interrupt => .done (.error interrupt)

theorem addTask_tasks (loop : Loop σ J) (body : Activity σ J (Exit Value)) :
    (loop.addTask body).2.tasks = loop.tasks ++ [.ready (.ok .null) (entry body)] := by
  have begins : (fun exit => match exit with
      | .ok _ => body
      | .error interrupt => .done (.error interrupt)) = entry body := by
    funext exit
    cases exit <;> rfl
  rw [← begins]
  rfl

/-- A task that is to begin with its body when its turn comes. -/
def IsToBegin (loop : Loop σ J) (task : TaskId) (body : Activity σ J (Exit Value)) : Prop :=
  loop.tasks[task]? = some (.ready (.ok .null) (entry body))

/-- To cancel a task that is ready interrupts it. -/
theorem cancel_of_ready (found : loop.tasks[task]? = some (.ready answer resumed)) (fuel : Nat) :
    loop.cancel task (fuel + 1) = loop.setStatus task (.ready (.error .cancelled) resumed) := by
  rw [Loop.cancel, found]

/-- A task that was cancelled before it began. -/
def IsGivenUp (loop : Loop σ J) (task : TaskId) : Prop :=
  (∃ body, loop.tasks[task]? = some (.ready (.error .cancelled) (entry body))) ∨
    loop.exit? task = some (.error .cancelled)

/-- The next step goes on with a task, which has more to do than to end as cancelled. -/
def Acts (loop : Loop σ J) (task : TaskId) : Prop :=
  ∃ answer resumed, loop.turn? = some (task, answer, resumed) ∧
    resumed answer ≠ .done (.error .cancelled)

namespace IsGivenUp

/-- When its turn comes, there is nothing left to do for a task that was given up. -/
theorem over_of_turn (givenUp : loop.IsGivenUp task)
    (turn : loop.turn? = some (task, answer, resumed)) :
    resumed answer = .done (.error .cancelled) := by
  have found := (turn?_eq_some_iff.1 turn).2
  rcases givenUp with ⟨body, ready⟩ | ended
  · cases found.symm.trans ready
    rfl
  · rw [exit?_eq_some_iff] at ended
    cases found.symm.trans ended

theorem not_acts (givenUp : loop.IsGivenUp task) : ¬ loop.Acts task := by
  rintro ⟨answer, resumed, turn, more⟩
  exact more (givenUp.over_of_turn turn)

/-- While others run, a task that was given up stays so. -/
theorem leads (givenUp : before.IsGivenUp task) (leads : Leads busy still before after)
    (coherent : before.Coherent busy) (idle : busy ≠ some task) : after.IsGivenUp task := by
  rcases givenUp with ⟨body, ready⟩ | ended
  · rcases leads.ready idle ready with ⟨reply, rfl | rfl, there⟩
    · exact .inl ⟨body, there⟩
    · exact .inl ⟨body, there⟩
  · exact .inr (leads.exit? coherent ended)

/-- When its turn comes, a task that was given up ends as cancelled. -/
theorem next (givenUp : loop.IsGivenUp task) (coherent : loop.Coherent none)
    (run : J → Activity σ J (Exit Value)) : (loop.next run).IsGivenUp task := by
  cases steps : loop.step run with
  | none =>
      rw [Loop.next, steps]
      exact givenUp
  | some after =>
      rw [next_of_step steps]
      rcases step_cases steps with ⟨item, rest, round, rfl⟩ | ⟨empty, time, rfl⟩
      · by_cases busy : loop.busy? = some task
        · rcases Option.map_eq_some_iff.1 busy with ⟨⟨_, answer, resumed⟩, turn, rfl⟩
          -- Its turn has come, and all it does is to end as cancelled.
          have isOver := givenUp.over_of_turn turn
          have taken := coherent.take round
          rw [busy] at taken
          have roused := (taken.rouse resumed).coherent
          rcases (roused.perform run (.done (.error .cancelled))).stands with ⟨_, ⟨⟩, ended⟩
          rw [step_of_turn steps turn, isOver, round]
          exact .inr ended
        · have taken := coherent.take round
          have before : IsGivenUp { loop with round := rest } task := givenUp
          exact before.leads (coherent.runItem round run) taken busy
      · exact givenUp

theorem later (givenUp : loop.IsGivenUp task) (coherent : loop.Coherent none)
    (run : J → Activity σ J (Exit Value)) (steps : Nat) :
    (loop.later run steps).IsGivenUp task := by
  induction steps generalizing loop with
  | zero =>
      exact givenUp
  | succ steps ih =>
      exact ih (givenUp.next coherent run) (coherent.next run)

end IsGivenUp

end Steward.Loop
