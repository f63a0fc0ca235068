import Steward.Command.Traversal

/-!
# Traces of walks

A walk is a tree of instructions, so what happens on it can be listed: the nodes
that join the chain, the assertions that are tested, the values that are read
and the results that are recorded, in order.  `Walk.trace` lists the events of
exactly the way that `Walk.run` takes, up to where it stops.

`Walk.Goes` says that a walk arrives: it is not stopped, and its answer, events
and final invocation are the given ones.  What two walks in a row do is what the
first does and then the second, which lets the walk of a whole tree be followed
instruction by instruction.
-/

namespace Steward.Walk

variable {F σ α β : Type}

/-- What happens on a walk. -/
inductive Event (F : Type) where
  | joined (node : Node F)
  | tested (assertion : Assertion F) (answer : Except Halt (Option String))
  | read (parser : Parser F) (result : ParseResult Nat)
  | recorded (table : ValueTable) (name : String) (result : ParseResult Nat)

/-- The events of a walk, in order. -/
def trace (env : WalkEnv F σ) : Walk F α → Invocation F → σ → List (Event F)
  | .done _, _, _ => []
  | .stop _, _, _ => []
  | .look next, invocation, state => trace env (next invocation) invocation state
  | .change f next, invocation, state => trace env next (f invocation) state
  | .join node next, invocation, state =>
      .joined node :: trace env next (invocation.visiting node) state
  | .test assertion next, invocation, state =>
      match env.test assertion invocation state with
      | (.ok reason, after) =>
          .tested assertion (.ok reason) :: trace env (next reason) invocation after
      | (.error halt, _) => [.tested assertion (.error halt)]
  | .read parser next, invocation, state =>
      match env.read parser invocation state with
      | (result, reached, after) =>
          .read parser result :: trace env (next result) reached after
  | .record table name result next, invocation, state =>
      .recorded table name result ::
        trace env next (invocation.recordResult table name result) state

/-- A walk arrives, with an answer, after some events. -/
structure Goes
    (env : WalkEnv F σ) (walk : Walk F α)
    (start : Invocation F) (state : σ) (events : List (Event F))
    (answer : α) (stop : Invocation F) (after : σ) : Prop where
  run_eq : walk.run env start state = (.ok answer, stop, after)
  trace_eq : walk.trace env start state = events

section Instructions

variable {env : WalkEnv F σ} {start stop : Invocation F} {state after : σ}
  {events : List (Event F)} {answer : α}

@[simp]
theorem goes_done_iff (value : α) :
    (Walk.done value).Goes env start state events answer stop after ↔
      events = [] ∧ value = answer ∧ start = stop ∧ state = after := by
  constructor
  · rintro ⟨ran, traced⟩
    simp only [run, Prod.mk.injEq, Except.ok.injEq] at ran
    exact ⟨traced.symm, ran⟩
  · rintro ⟨rfl, rfl, rfl, rfl⟩
    exact ⟨rfl, rfl⟩

@[simp]
theorem not_goes_stop (halt : Halt) :
    ¬ (Walk.stop halt : Walk F α).Goes env start state events answer stop after := by
  rintro ⟨ran, _⟩
  simp [run] at ran

@[simp]
theorem goes_look_iff (next : Invocation F → Walk F α) :
    (Walk.look next).Goes env start state events answer stop after ↔
      (next start).Goes env start state events answer stop after := by
  constructor <;> exact fun goes => ⟨goes.run_eq, goes.trace_eq⟩

@[simp]
theorem goes_change_iff (f : Invocation F → Invocation F) (next : Walk F α) :
    (Walk.change f next).Goes env start state events answer stop after ↔
      next.Goes env (f start) state events answer stop after := by
  constructor <;> exact fun goes => ⟨goes.run_eq, goes.trace_eq⟩

theorem goes_join_iff (node : Node F) (next : Walk F α) :
    (Walk.join node next).Goes env start state events answer stop after ↔
      ∃ rest, next.Goes env (start.visiting node) state rest answer stop after ∧
        events = .joined node :: rest := by
  constructor
  · rintro ⟨ran, traced⟩
    exact ⟨_, ⟨ran, rfl⟩, traced.symm⟩
  · rintro ⟨rest, ⟨ran, traced⟩, rfl⟩
    exact ⟨ran, congrArg _ traced⟩

/-- A test after which a walk goes on has answered, and is an event. -/
theorem goes_test_iff (assertion : Assertion F) (next : Option String → Walk F α) :
    (Walk.test assertion next).Goes env start state events answer stop after ↔
      ∃ reason between rest,
        env.test assertion start state = (.ok reason, between) ∧
        (next reason).Goes env start between rest answer stop after ∧
        events = .tested assertion (.ok reason) :: rest := by
  constructor
  · rintro ⟨ran, traced⟩
    rcases tested : env.test assertion start state with ⟨halt | reason, between⟩
    · simp [run, tested] at ran
    · simp only [run, tested] at ran
      simp only [trace, tested] at traced
      exact ⟨reason, between, _, rfl, ⟨ran, rfl⟩, traced.symm⟩
  · rintro ⟨reason, between, rest, tested, ⟨ran, traced⟩, rfl⟩
    constructor
    · simpa [run, tested] using ran
    · simpa [trace, tested] using traced

theorem goes_read_iff (parser : Parser F) (next : ParseResult Nat → Walk F α) :
    (Walk.read parser next).Goes env start state events answer stop after ↔
      ∃ result reached between rest,
        env.read parser start state = (result, reached, between) ∧
        (next result).Goes env reached between rest answer stop after ∧
        events = .read parser result :: rest := by
  constructor
  · rintro ⟨ran, traced⟩
    rcases read : env.read parser start state with ⟨result, reached, between⟩
    simp only [run, read] at ran
    simp only [trace, read] at traced
    exact ⟨result, reached, between, _, rfl, ⟨ran, rfl⟩, traced.symm⟩
  · rintro ⟨result, reached, between, rest, read, ⟨ran, traced⟩, rfl⟩
    constructor
    · simpa [run, read] using ran
    · simpa [trace, read] using traced

theorem goes_record_iff
    (table : ValueTable) (name : String) (result : ParseResult Nat) (next : Walk F α) :
    (Walk.record table name result next).Goes env start state events answer stop after ↔
      ∃ rest,
        next.Goes env (start.recordResult table name result) state rest answer stop after ∧
        events = .recorded table name result :: rest := by
  constructor
  · rintro ⟨ran, traced⟩
    exact ⟨_, ⟨ran, rfl⟩, traced.symm⟩
  · rintro ⟨rest, ⟨ran, traced⟩, rfl⟩
    exact ⟨ran, congrArg _ traced⟩

/-- A sequence arrives exactly if its first part does and the second part goes on
from there; the events follow each other. -/
theorem goes_bind_iff {walk : Walk F α} {next : α → Walk F β} {final : β} :
    (walk.bind next).Goes env start state events final stop after ↔
      ∃ first value middle between rest,
        walk.Goes env start state first value middle between ∧
        (next value).Goes env middle between rest final stop after ∧
        events = first ++ rest := by
  induction walk generalizing start state events with
  | done value =>
      simp only [bind, goes_done_iff]
      constructor
      · intro goes
        exact ⟨[], value, start, state, events, ⟨rfl, rfl, rfl, rfl⟩, goes, rfl⟩
      · rintro ⟨_, _, _, _, rest, ⟨rfl, rfl, rfl, rfl⟩, goes, rfl⟩
        exact goes
  | stop halt =>
      simp [bind]
  | look after ih =>
      simpa [bind] using ih start
  | change f after ih =>
      simpa [bind] using ih
  | join node after ih =>
      simp only [bind, goes_join_iff, ih]
      constructor
      · rintro ⟨_, ⟨first, value, middle, between, rest, goes, goesOn, rfl⟩, rfl⟩
        exact ⟨_, value, middle, between, rest, ⟨first, goes, rfl⟩, goesOn, rfl⟩
      · rintro ⟨_, value, middle, between, rest, ⟨first, goes, rfl⟩, goesOn, rfl⟩
        exact ⟨_, ⟨first, value, middle, between, rest, goes, goesOn, rfl⟩, rfl⟩
  | test assertion after ih =>
      simp only [bind, goes_test_iff, ih]
      constructor
      · rintro ⟨reason, tested, _, answered,
          ⟨first, value, middle, between, rest, goes, goesOn, rfl⟩, rfl⟩
        exact ⟨_, value, middle, between, rest,
          ⟨reason, tested, first, answered, goes, rfl⟩, goesOn, rfl⟩
      · rintro ⟨_, value, middle, between, rest,
          ⟨reason, tested, first, answered, goes, rfl⟩, goesOn, rfl⟩
        exact ⟨reason, tested, _, answered,
          ⟨first, value, middle, between, rest, goes, goesOn, rfl⟩, rfl⟩
  | read parser after ih =>
      simp only [bind, goes_read_iff, ih]
      constructor
      · rintro ⟨result, reached, settled, _, answered,
          ⟨first, value, middle, between, rest, goes, goesOn, rfl⟩, rfl⟩
        exact ⟨_, value, middle, between, rest,
          ⟨result, reached, settled, first, answered, goes, rfl⟩, goesOn, rfl⟩
      · rintro ⟨_, value, middle, between, rest,
          ⟨result, reached, settled, first, answered, goes, rfl⟩, goesOn, rfl⟩
        exact ⟨result, reached, settled, _, answered,
          ⟨first, value, middle, between, rest, goes, goesOn, rfl⟩, rfl⟩
  | record table name result after ih =>
      simp only [bind, goes_record_iff, ih]
      constructor
      · rintro ⟨_, ⟨first, value, middle, between, rest, goes, goesOn, rfl⟩, rfl⟩
        exact ⟨_, value, middle, between, rest, ⟨first, goes, rfl⟩, goesOn, rfl⟩
      · rintro ⟨_, value, middle, between, rest, ⟨first, goes, rfl⟩, goesOn, rfl⟩
        exact ⟨_, ⟨first, value, middle, between, rest, goes, goesOn, rfl⟩, rfl⟩

theorem goes_seq_iff {walk : Walk F α} {next : α → Walk F β} {final : β} :
    (walk >>= next).Goes env start state events final stop after ↔
      ∃ first value middle between rest,
        walk.Goes env start state first value middle between ∧
        (next value).Goes env middle between rest final stop after ∧
        events = first ++ rest := by
  exact goes_bind_iff

@[simp]
theorem goes_pure_iff (value : α) :
    (pure value : Walk F α).Goes env start state events answer stop after ↔
      events = [] ∧ value = answer ∧ start = stop ∧ state = after := by
  exact goes_done_iff value

theorem goes_get_seq_iff {next : Invocation F → Walk F β} {final : β} :
    (get >>= next).Goes env start state events final stop after ↔
      (next start).Goes env start state events final stop after := by
  exact goes_look_iff next

end Instructions

end Steward.Walk
