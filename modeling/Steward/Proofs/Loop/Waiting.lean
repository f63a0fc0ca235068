import Mathlib.Data.Fintype.EquivFin
import Mathlib.Data.List.Basic
import Mathlib.Logic.Relation
import Steward.Proofs.Loop.Orderly

/-!
# Tasks that wait for tasks

A task may wait for another one, which may itself wait for a third.  Following them either leads to
a last task, which waits for no task, or it never ends, as they wait for each other in a circle.

To cancel a task is to cancel the last one that it waits for.  It always comes that far, since there
are not more tasks to follow than the loop has (`WaitsTo.steps_lt`).  If there is no last task,
nothing is cancelled at all (`cancel_of_endless`).
-/

namespace Steward.Loop

variable {σ J : Type} {loop : Loop σ J} {busy : Option TaskId} {task awaited last other : TaskId}
  {steps more : Nat}

/-- A task waits for another one. -/
def WaitsFor (loop : Loop σ J) (task awaited : TaskId) : Prop :=
  ∃ next, loop.tasks[task]? = some (.blocked (.task awaited) next)

theorem WaitsFor.unique (first : loop.WaitsFor task awaited) (second : loop.WaitsFor task other) :
    awaited = other := by
  rcases first with ⟨_, found⟩
  rcases second with ⟨_, again⟩
  cases found.symm.trans again
  rfl

/-- There is a task, and it waits for no other one. -/
def IsLast (loop : Loop σ J) (task : TaskId) : Prop :=
  task < loop.tasks.length ∧ ∀ awaited, ¬ loop.WaitsFor task awaited

/-- The last of the tasks that a task waits for, after some steps. -/
inductive WaitsTo (loop : Loop σ J) (last : TaskId) : Nat → TaskId → Prop where
  | here (isLast : loop.IsLast last) : WaitsTo loop last 0 last
  | next {steps : Nat} {task awaited : TaskId} (waits : loop.WaitsFor task awaited)
      (rest : WaitsTo loop last steps awaited) : WaitsTo loop last (steps + 1) task

namespace WaitsTo

theorem lt_length (leads : loop.WaitsTo last steps task) : task < loop.tasks.length := by
  cases leads with
  | here isLast =>
      exact isLast.1
  | next waits =>
      rcases waits with ⟨_, found⟩
      exact (List.getElem?_eq_some_iff.1 found).1

theorem isLast (leads : loop.WaitsTo last steps task) : loop.IsLast last := by
  induction leads with
  | here isLast =>
      exact isLast
  | next _ _ ih =>
      exact ih

theorem unique (first : loop.WaitsTo last steps task) (second : loop.WaitsTo other more task) :
    last = other ∧ steps = more := by
  induction first generalizing more with
  | here isLast =>
      cases second with
      | here =>
          exact ⟨rfl, rfl⟩
      | next waits =>
          exact absurd waits (isLast.2 _)
  | next waits rest ih =>
      cases second with
      | here isLast =>
          exact absurd waits (isLast.2 _)
      | next again rest =>
          cases waits.unique again
          rcases ih rest with ⟨rfl, rfl⟩
          exact ⟨rfl, rfl⟩

/-- Whoever is on the way waits for the same last task. -/
theorem of_waitsFor (leads : loop.WaitsTo last steps task) (waits : loop.WaitsFor task awaited) :
    ∃ fewer, loop.WaitsTo last fewer awaited := by
  cases leads with
  | here isLast =>
      exact absurd waits (isLast.2 _)
  | next again rest =>
      cases waits.unique again
      exact ⟨_, rest⟩

theorem of_reaches (leads : loop.WaitsTo last steps task)
    (reaches : Relation.ReflTransGen loop.WaitsFor task other) :
    ∃ fewer, loop.WaitsTo last fewer other := by
  induction reaches with
  | refl =>
      exact ⟨steps, leads⟩
  | tail _ waits ih =>
      rcases ih with ⟨_, leads⟩
      exact leads.of_waitsFor waits

theorem reaches (leads : loop.WaitsTo last steps task) :
    Relation.ReflTransGen loop.WaitsFor task last := by
  induction leads with
  | here =>
      exact .refl
  | next waits _ ih =>
      exact .head waits ih

/-- Unless a task is the last one itself, somebody waits for that one. -/
theorem eq_or_exists_waitsFor (leads : loop.WaitsTo last steps task) :
    last = task ∨ ∃ waiter, loop.WaitsFor waiter last := by
  induction leads with
  | here =>
      exact .inl rfl
  | next waits _ ih =>
      rcases ih with rfl | waiter
      · exact .inr ⟨_, waits⟩
      · exact .inr waiter

theorem of_reached (leads : loop.WaitsTo last steps other)
    (reaches : Relation.ReflTransGen loop.WaitsFor task other) :
    ∃ more, loop.WaitsTo last more task := by
  induction reaches using Relation.ReflTransGen.head_induction_on with
  | refl =>
      exact ⟨steps, leads⟩
  | head waits _ ih =>
      rcases ih with ⟨more, leads⟩
      exact ⟨more + 1, .next waits leads⟩

/-- The tasks on the way are all different. -/
theorem exists_tasks (leads : loop.WaitsTo last steps task) :
    ∃ tasks : List TaskId, tasks.length = steps + 1 ∧ tasks.Nodup ∧
      ∀ task ∈ tasks, ∃ fewer ≤ steps, loop.WaitsTo last fewer task := by
  induction leads with
  | here isLast =>
      refine ⟨[last], rfl, List.pairwise_singleton _ last, ?_⟩
      intro task member
      cases List.mem_singleton.1 member
      exact ⟨0, Nat.le_refl 0, .here isLast⟩
  | @next steps task awaited waits rest ih =>
      rcases ih with ⟨tasks, length, distinct, all⟩
      have whole := WaitsTo.next waits rest
      refine ⟨task :: tasks, congrArg (· + 1) length, List.nodup_cons.2 ⟨?_, distinct⟩, ?_⟩
      · intro member
        rcases all task member with ⟨fewer, few, again⟩
        have same := (whole.unique again).2
        exact absurd few (same ▸ Nat.not_succ_le_self steps)
      · intro member isMember
        rcases List.mem_cons.1 isMember with rfl | later
        · exact ⟨steps + 1, Nat.le_refl _, whole⟩
        · rcases all member later with ⟨fewer, few, leads⟩
          exact ⟨fewer, Nat.le_succ_of_le few, leads⟩

/-- There are not more tasks on the way than the loop has. -/
theorem steps_lt (leads : loop.WaitsTo last steps task) : steps < loop.tasks.length := by
  rcases leads.exists_tasks with ⟨tasks, length, distinct, all⟩
  have known : tasks ⊆ List.range loop.tasks.length := by
    intro task member
    rcases all task member with ⟨_, -, leads⟩
    exact List.mem_range.2 leads.lt_length
  have bound := distinct.length_le_of_subset known
  rw [length, List.length_range] at bound
  exact bound

end WaitsTo

/-! ## What cancelling a task does -/

theorem cancel_of_waitsFor (waits : loop.WaitsFor task awaited) (fuel : Nat) :
    loop.cancel task (fuel + 1) = loop.cancel awaited fuel := by
  rcases waits with ⟨next, found⟩
  rw [Loop.cancel, found]

theorem cancel_of_waitsTo (leads : loop.WaitsTo last steps task) (fuel : Nat) :
    loop.cancel task (steps + fuel) = loop.cancel last fuel := by
  induction leads with
  | here =>
      rw [Nat.zero_add]
  | next waits _ ih =>
      rw [Nat.add_right_comm, cancel_of_waitsFor waits, ih]

/-- To cancel a task is to cancel the last one that it waits for. -/
theorem exists_cancel_of_waitsTo (leads : loop.WaitsTo last steps task) :
    ∃ fuel, loop.cancel task (loop.tasks.length + 1) = loop.cancel last (fuel + 1) := by
  refine ⟨loop.tasks.length - steps, ?_⟩
  have enough : loop.tasks.length + 1 = steps + (loop.tasks.length - steps + 1) := by
    have := leads.steps_lt
    omega
  rw [enough, cancel_of_waitsTo leads]

/-- Tasks that wait for each other in a circle are not to be cancelled. -/
theorem cancel_of_endless (endless : ∀ last steps, ¬ loop.WaitsTo last steps task) (fuel : Nat) :
    loop.cancel task fuel = loop := by
  induction fuel generalizing task with
  | zero =>
      rfl
  | succ fuel ih =>
      by_cases waits : ∃ awaited, loop.WaitsFor task awaited
      · rcases waits with ⟨awaited, waits⟩
        rw [cancel_of_waitsFor waits]
        exact ih fun last steps leads => endless last (steps + 1) (.next waits leads)
      · have unknown : loop.tasks[task]? = none := by
          rw [List.getElem?_eq_none_iff]
          apply Nat.le_of_not_lt
          intro known
          exact endless task 0 (.here ⟨known, fun awaited isAwaited => waits ⟨awaited, isAwaited⟩⟩)
        rw [Loop.cancel, unknown]

/-- The last task goes on as cancelled, unless it has ended before. -/
theorem cancel_last (coherent : loop.Coherent busy) (isLast : loop.IsLast last) (fuel : Nat) :
    (∃ next, (loop.cancel last (fuel + 1)).tasks[last]? =
        some (.ready (.error .cancelled) next)) ∨
      (loop.cancel last (fuel + 1)).exit? last = some (.error .cancelled) ∨
      (∃ exit, loop.exit? last = some exit) := by
  rw [Loop.cancel]
  split
  · rename_i next found
    exact .inl ⟨next, List.getElem?_set_self isLast.1⟩
  · rename_i timer next found
    have there : (loop.removeTimer timer).tasks[last]? = some (.blocked (.timer timer) next) :=
      found
    refine .inl ⟨next, ?_⟩
    rw [getElem?_release, if_pos rfl, there]
    rfl
  · rename_i awaited next found
    exact absurd ⟨next, found⟩ (isLast.2 awaited)
  · rename_i found
    refine .inr (.inl ?_)
    rw [exit?_eq_some_iff]
    exact coherent.getElem?_finish_self found (by simp) _
  · rename_i exit found
    exact .inr (.inr ⟨exit, exit?_eq_some_iff.2 found⟩)
  · rename_i unknown
    rw [List.getElem?_eq_none_iff] at unknown
    exact absurd isLast.1 (Nat.not_lt_of_le unknown)

/-! ## Loops at rest -/

/-- Nobody has kept a promise, or nobody has ever made it. -/
def IsUnkept (loop : Loop σ J) (task : TaskId) : Prop :=
  loop.tasks[task]? = none ∨ loop.tasks[task]? = some .open

/-- A task that is known waits to the end for a last one, unless it waits in a circle or for
something unknown. -/
theorem exists_waitsTo (known : ∀ other, Relation.ReflTransGen loop.WaitsFor task other →
      other < loop.tasks.length)
    (straight : ∀ other, Relation.ReflTransGen loop.WaitsFor task other →
      ¬ Relation.TransGen loop.WaitsFor other other) :
    ∃ last steps, loop.WaitsTo last steps task := by
  -- Among finitely many tasks, to wait for another one is well-founded if there is no circle.
  let Later (later earlier : Fin loop.tasks.length) : Prop :=
    Relation.ReflTransGen loop.WaitsFor task earlier ∧
      Relation.TransGen loop.WaitsFor earlier later
  have trans : IsTrans _ Later :=
    ⟨fun _ _ _ first second => ⟨second.1, second.2.trans first.2⟩⟩
  have irrefl : Std.Irrefl Later := ⟨fun other circle => straight other circle.1 circle.2⟩
  have founded : WellFounded Later := Finite.wellFounded_of_trans_of_irrefl Later
  have all : ∀ other : Fin loop.tasks.length,
      Relation.ReflTransGen loop.WaitsFor task other → ∃ last steps, loop.WaitsTo last steps other := by
    intro other
    induction other using founded.induction with
    | h other ih =>
        intro reaches
        by_cases waits : ∃ awaited, loop.WaitsFor other awaited
        · rcases waits with ⟨awaited, waits⟩
          have further := reaches.tail waits
          rcases ih ⟨awaited, known awaited further⟩ ⟨reaches, .single waits⟩ further with
            ⟨last, steps, leads⟩
          exact ⟨last, steps + 1, .next waits leads⟩
        · exact ⟨other, 0, .here ⟨other.2, fun awaited isAwaited => waits ⟨awaited, isAwaited⟩⟩⟩
  exact all ⟨task, known task .refl⟩ .refl

/-- In a loop at rest, nothing is scheduled any more. -/
theorem rests_of_step {run : J → Activity σ J (Exit Value)} (rests : loop.step run = none) :
    loop.round = [] ∧ loop.scheduled = [] ∧ loop.timers = [] := by
  unfold step at rests
  split at rests
  · cases rests
  · rename_i empty
    split at rests
    · cases rests
    · rename_i idle
      split at rests
      · rename_i untimed
        simp only [isIdle, Bool.not_eq_true, Bool.not_eq_false', Bool.and_eq_true,
          List.isEmpty_iff] at idle
        exact ⟨empty, idle.1.2, untimed⟩
      · cases rests

/-- In a loop at rest each task has ended, unless it waits in the end for a promise that nobody has
kept, or in a circle. -/
theorem IsOrderly.ended_of_rests {cancels : Prop} (orderly : loop.IsOrderly cancels)
    (coherent : loop.Coherent none) {run : J → Activity σ J (Exit Value)}
    (rests : loop.step run = none) (task : TaskId) :
    (∃ exit, loop.exit? task = some exit) ∨
      ∃ stuck, Relation.ReflTransGen loop.WaitsFor task stuck ∧
        (loop.IsUnkept stuck ∨ Relation.TransGen loop.WaitsFor stuck stuck) := by
  rcases rests_of_step rests with ⟨round, scheduled, timers⟩
  by_cases circle : ∃ other, Relation.ReflTransGen loop.WaitsFor task other ∧
      Relation.TransGen loop.WaitsFor other other
  · rcases circle with ⟨other, reaches, circle⟩
    exact .inr ⟨other, reaches, .inr circle⟩
  by_cases unknown : ∃ other, Relation.ReflTransGen loop.WaitsFor task other ∧
      loop.tasks[other]? = none
  · rcases unknown with ⟨other, reaches, unknown⟩
    exact .inr ⟨other, reaches, .inl (.inl unknown)⟩
  have known : ∀ other, Relation.ReflTransGen loop.WaitsFor task other →
      other < loop.tasks.length := by
    intro other reaches
    apply Nat.lt_of_not_le
    intro beyond
    exact unknown ⟨other, reaches, List.getElem?_eq_none beyond⟩
  rcases exists_waitsTo known fun other reaches isCircle => circle ⟨other, reaches, isCircle⟩ with
    ⟨last, steps, leads⟩
  have present : ∃ status, loop.tasks[last]? = some status :=
    ⟨_, List.getElem?_eq_getElem leads.isLast.1⟩
  rcases present with ⟨status, found⟩
  cases status with
  | ready answer next =>
      rcases coherent.scheduled last ⟨answer, next, found⟩ nofun with current | later
      · rw [round] at current
        cases current
      · rw [scheduled] at later
        cases later
  | blocked on next =>
      cases on with
      | task awaited =>
          exact absurd ⟨next, found⟩ (leads.isLast.2 awaited)
      | timer timer =>
          rcases (orderly.timed.set last timer ⟨next, found⟩).2 with ⟨entry, member, -⟩ | member
          · rw [timers] at member
            cases member
          · rw [round] at member
            cases member
  | «open» =>
      exact .inr ⟨last, leads.reaches, .inl (.inr found)⟩
  | finished exit =>
      have ended := exit?_eq_some_iff.2 found
      rcases leads.eq_or_exists_waitsFor with rfl | ⟨waiter, next, waits⟩
      · exact .inl ⟨exit, ended⟩
      · rw [(coherent.waits waiter last next waits).2] at ended
        cases ended

end Steward.Loop
