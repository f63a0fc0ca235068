import Steward.Proofs.Parse.Lifetime

/-!
# Chains come out alike

A function is applied to a settled result at once, and to a pending one by a task of its own, later.
Whoever waits for the last result of a chain cannot tell the difference: it comes to what the
functions make, one after the other, of what the first result has come to (`Chain.follow`).

One function of the chain is watched.  The license to use it goes with whoever has to call it, so
in the end it has been called once, or there was only a failure to give it.
-/

namespace Steward

variable {F : Type}

namespace Settlement

/-- What a function makes of a result: a failure passes through. -/
def into (step : F → Value → Settlement) (settlement : Settlement) (function : F) : Settlement :=
  if settlement.failed then settlement else step function settlement.value

/-- What functions make of a result, one after the other. -/
def through (step : F → Value → Settlement) (settlement : Settlement) (functions : List F) :
    Settlement :=
  functions.foldl (into step) settlement

theorem through_concat (step : F → Value → Settlement) (settlement : Settlement)
    (functions : List F) (function : F) :
    settlement.through step (functions ++ [function]) =
      (settlement.through step functions).into step function := by
  exact List.foldl_concat ..

theorem into_of_failed {step : F → Value → Settlement} {settlement : Settlement}
    (failed : settlement.failed = true) (function : F) :
    settlement.into step function = settlement := by
  exact if_pos failed

theorem into_of_succeeded {step : F → Value → Settlement} {settlement : Settlement}
    (succeeded : settlement.failed = false) (function : F) :
    settlement.into step function = step function settlement.value := by
  rw [into, succeeded]
  rfl

theorem through_of_failed (step : F → Value → Settlement) {settlement : Settlement}
    (failed : settlement.failed = true) (functions : List F) :
    settlement.through step functions = settlement := by
  induction functions with
  | nil =>
      rfl
  | cons function rest ih =>
      rw [through, List.foldl_cons, into_of_failed failed]
      exact ih

end Settlement

/-- The functions of a chain come to something certain.  So none of them raises a failure that
another one takes the place of in a coroutine. -/
def Terms.IsExact (terms : Terms F) (step : F → Value → Settlement) : Prop :=
  ∀ function value settlement, terms.verdict function value settlement →
    settlement = step function value

theorem Terms.Uses.eq_into {terms : Terms F} {step : F → Value → Settlement}
    (exact : terms.IsExact step) {base outcome : Settlement} {function : F}
    (uses : terms.Uses base function outcome) : outcome = base.into step function := by
  unfold Terms.Uses at uses
  unfold Settlement.into
  split at uses
  · rename_i failed
    rw [if_pos failed]
    exact uses
  · rename_i succeeded
    rw [if_neg succeeded]
    exact exact _ _ _ uses

namespace Chain

/-- Chain functions onto a result one after the other, and wait for the last one.  What is raised
by a function that is called at once counts as what the function has come to. -/
def follow (callbacks : ChainCallbacks F) (number : Nat) : List F → ChainedCourse F Settlement
  | [] => do return (← wait number).toSettlement
  | function :: rest => ExceptT.mk <| (use callbacks number function).run.bind fun
    | .ok next => (follow callbacks next rest).run
    | .error (.failed failure) => .done (.ok (.ofFailure failure))
    | .error .cancelled => .done (.error .cancelled)
    | .error .endless => .done (.error .endless)

/-- Report what a chain of functions has come to. -/
def following (callbacks : ChainCallbacks F) (number : Nat) (functions : List F)
    (report : Settlement → Value) : Activity Chain (ChainJob F) (Exit Value) :=
  (follow callbacks number functions).run.bind fun
    | .ok settlement => .done (.ok (report settlement))
    | .error interrupt => .done (.error interrupt)

end Chain

namespace Outlook

variable {terms : Terms F} {step : F → Value → Settlement} {base number : Nat}
  {outlook before after : Outlook F} {done head : List F} {function : F} {actor : TaskId}
  {settlement : Settlement} {link : Link}

/-! ## What a chain comes to -/

/-- Functions have made something of what a result has come to. -/
def Made (step : F → Value → Settlement) (base : Nat) (done : List F) (outlook : Outlook F)
    (settlement : Settlement) : Prop :=
  ∃ first, outlook.Has base first ∧ first.completed = true ∧
    settlement = first.toSettlement.through step done

theorem Made.grows (made : before.Made step base done settlement) (grows : before.Grows after) :
    after.Made step base done settlement := by
  rcases made with ⟨first, has, completed, same⟩
  exact ⟨first, grows.has_of_completed has completed, completed, same⟩

theorem Made.into (made : outlook.Made step base done settlement) (function : F) :
    outlook.Made step base (done ++ [function]) (settlement.into step function) := by
  rcases made with ⟨first, has, completed, rfl⟩
  exact ⟨first, has, completed, (Settlement.through_concat ..).symm⟩

/-- A failure passes through whatever else follows. -/
theorem Made.pass (made : outlook.Made step base done settlement)
    (failed : settlement.failed = true) (more : List F) :
    outlook.Made step base (done ++ more) settlement := by
  rcases made with ⟨first, has, completed, rfl⟩
  refine ⟨first, has, completed, ?_⟩
  have whole : first.toSettlement.through step (done ++ more) =
      (first.toSettlement.through step done).through step more := List.foldl_append ..
  rw [whole, Settlement.through_of_failed step failed]

/-- Once a result is settled, it is what functions have made of another one. -/
def Derives (terms : Terms F) (step : F → Value → Settlement) (base : Nat) (done : List F)
    (outlook : Outlook F) (number : Nat) : Prop :=
  ∀ after link, outlook.Grows after → after.Sound terms → after.Has number link →
    link.completed = true → after.Made step base done link.toSettlement

namespace Derives

theorem refl (terms : Terms F) (step : F → Value → Settlement) (base : Nat)
    (outlook : Outlook F) : outlook.Derives terms step base [] base := by
  intro after link _ _ has completed
  exact ⟨link, has, completed, rfl⟩

theorem grows (derives : before.Derives terms step base done number)
    (grows : before.Grows after) : after.Derives terms step base done number := by
  intro last link further
  exact derives last link (grows.trans further)

end Derives

theorem grows_withBegun [DecidableEq F] (outlook : Outlook F) (job : ChainJob F) (task : TaskId) :
    outlook.Grows (outlook.withBegun terms job task) := by
  apply Widens.grows
  exact ⟨fun _ _ has => has_add_of_has has _, fun _ _ found => Loop.getElem?_concat_of_some _ found,
    List.Subset.refl _⟩

theorem grows_withCall [DecidableEq F] (outlook : Outlook F) (function : F) (base : Nat) :
    outlook.Grows (outlook.withCall terms function base) := by
  exact (widens_enter ..).grows

/-- A result that was begun by chaining a function comes to what its job has it. -/
theorem fulfils_of_begun [DecidableEq F] (sound : outlook.Sound terms) {task : TaskId}
    {job : ChainJob F} (grows : (outlook.withBegun terms job task).Grows after)
    (sound' : after.Sound terms) (has : after.Has outlook.size link)
    (completed : link.completed = true) : after.Fulfils terms job link.toSettlement := by
  have begun : (outlook.withBegun terms job task).jobs[outlook.size]? = some (some job) := by
    rw [← sound.jobs]
    exact List.getElem?_concat_length
  exact sound'.fulfils _ link _ has (grows.jobs _ _ begun) completed

namespace Derives

/-- A function is chained onto the result by a job. -/
theorem begun [DecidableEq F] (derives : outlook.Derives terms step base done number)
    (exact : terms.IsExact step) (sound : outlook.Sound terms) (task : TaskId) :
    (outlook.withBegun terms (.chained outlook.size number function) task).Derives terms step base
      (done ++ [function]) outlook.size := by
  intro after link grows sound' has completed
  rcases fulfils_of_begun sound grows sound' has completed with
    ⟨first, isFirst, settled, uses, -⟩
  rw [uses.eq_into exact]
  have earlier := (outlook.grows_withBegun _ task).trans grows
  exact (derives after first earlier sound' isFirst settled).into function

/-- A function is chained onto a failure, which passes through. -/
theorem failed (derives : outlook.Derives terms step base done number)
    (has : outlook.Has number link) (completed : link.completed = true)
    (failed : link.toSettlement.failed = true) :
    outlook.Derives terms step base (done ++ [function]) number := by
  intro after later grows sound' there settled
  cases (grows.has_of_completed has completed).symm.trans there
  have made := (derives after link grows sound' there settled).into function
  rw [Settlement.into_of_failed failed] at made
  exact made

/-- A function is applied to a success, and what it answers comes to its verdict. -/
theorem made (derives : outlook.Derives terms step base done number)
    (exact : terms.IsExact step) (has : outlook.Has number link)
    (completed : link.completed = true) (succeeded : link.toSettlement.failed = false)
    (grows : outlook.Grows after) (sound' : after.Sound terms)
    (verdict : terms.verdict function link.value settlement) :
    after.Made step base (done ++ [function]) settlement := by
  have there := grows.has_of_completed has completed
  have made := (derives after link grows sound' there completed).into function
  rw [Settlement.into_of_succeeded succeeded, ← exact _ _ _ verdict] at made
  exact made

theorem applied (derives : outlook.Derives terms step base done number)
    (exact : terms.IsExact step) (has : outlook.Has number link)
    (completed : link.completed = true) (succeeded : link.toSettlement.failed = false)
    (grows : outlook.Grows after) (sound' : after.Sound terms) {next : Nat}
    (small : next < after.size) (comes : ∀ settlement, after.MayBe terms next settlement →
      terms.verdict function link.value settlement) :
    after.Derives terms step base (done ++ [function]) next := by
  intro last later further sound'' there settled
  have maybe := MayBe.of_grows further sound' sound'' small (.settled there settled)
  exact derives.made exact has completed succeeded (grows.trans further) sound''
    (comes _ maybe)

end Derives

/-! ## How often a function has been called -/

/-- The license to use a function has not been used, as there was only a failure to use it for. -/
def Unused (actor : TaskId) (function : F) (outlook : Outlook F) : Prop :=
  outlook.licensed = some actor ∨ ∃ (number own given : Nat) (link first : Link),
    outlook.Has number link ∧ link.completed = true ∧
      outlook.jobs[number]? = some (some (.chained own given function)) ∧
      outlook.Has given first ∧ first.completed = true ∧ first.toSettlement.failed = true

/-- A function has been called, unless there was only a failure to give it. -/
def Accounted (terms : Terms F) (step : F → Value → Settlement) (base : Nat) (head : List F)
    (function : F) (actor : TaskId) (outlook : Outlook F) : Prop :=
  ∃ settlement, outlook.Made step base head settlement ∧
    if settlement.failed then outlook.Unused actor function
    else ∃ given, (function, given) ∈ terms.calls outlook.chain.journal

/-- Once a result is settled, a function has been called, unless there was only a failure to give
it. -/
def Accounts (terms : Terms F) (step : F → Value → Settlement) (base : Nat) (head : List F)
    (function : F) (actor : TaskId) (outlook : Outlook F) (number : Nat) : Prop :=
  ∀ after link, outlook.Grows after → after.Sound terms →
    (outlook.licensed = some actor → after.licensed = some actor) → after.Has number link →
    link.completed = true → after.Accounted terms step base head function actor

theorem Unused.grows (unused : before.Unused actor function) (grows : before.Grows after)
    (keeps : before.licensed = some actor → after.licensed = some actor) :
    after.Unused actor function := by
  rcases unused with license | ⟨number, own, given, link, first, has, settled, begun, there, rest⟩
  · exact .inl (keeps license)
  · exact .inr ⟨number, own, given, link, first, grows.has_of_completed has settled, settled,
      grows.jobs _ _ begun, grows.has_of_completed there rest.1, rest⟩

theorem Accounted.grows (accounted : before.Accounted terms step base head function actor)
    (grows : before.Grows after)
    (keeps : before.licensed = some actor → after.licensed = some actor) :
    after.Accounted terms step base head function actor := by
  rcases accounted with ⟨settlement, made, account⟩
  refine ⟨settlement, made.grows grows, ?_⟩
  split at account
  · rename_i failed
    rw [if_pos failed]
    exact account.grows grows keeps
  · rename_i succeeded
    rw [if_neg succeeded]
    rcases account with ⟨given, called⟩
    exact ⟨given, grows.calls_subset called⟩

/-- A success has been given to the function. -/
theorem Derives.accounted (derives : outlook.Derives terms step base head number)
    (sound : outlook.Sound terms) (has : outlook.Has number link)
    (completed : link.completed = true) (succeeded : link.toSettlement.failed = false)
    (called : (function, number) ∈ terms.calls outlook.chain.journal) :
    outlook.Accounted terms step base head function actor := by
  refine ⟨link.toSettlement, derives outlook link (.refl outlook) sound has completed, ?_⟩
  rw [succeeded]
  exact ⟨number, called⟩

namespace Accounts

theorem of_accounted (accounted : outlook.Accounted terms step base head function actor)
    (number : Nat) : outlook.Accounts terms step base head function actor number := by
  intro after link grows _ keeps _ _
  exact accounted.grows grows keeps

/-- The function has been chained onto a result by a job. -/
theorem of_begun [DecidableEq F] (derives : outlook.Derives terms step base head number)
    (sound : outlook.Sound terms) (task : TaskId) :
    (outlook.withBegun terms (.chained outlook.size number function) task).Accounts terms step base
      head function actor outlook.size := by
  intro after link grows sound' _ has completed
  rcases fulfils_of_begun sound grows sound' has completed with
    ⟨first, isFirst, settled, -, called⟩
  have earlier := (outlook.grows_withBegun _ task).trans grows
  refine ⟨first.toSettlement, derives after first earlier sound' isFirst settled, ?_⟩
  split
  · rename_i failed
    have begun : (outlook.withBegun terms (.chained outlook.size number function) task).jobs[
        outlook.size]? = some (some (.chained outlook.size number function)) := by
      rw [← sound.jobs]
      exact List.getElem?_concat_length
    exact .inr ⟨_, _, number, link, first, has, completed, grows.jobs _ _ begun, isFirst, settled,
      failed⟩
  · rename_i succeeded
    exact ⟨number, called (Bool.eq_false_iff.2 succeeded)⟩

/-- The function has been chained onto a failure. -/
theorem of_failed (derives : outlook.Derives terms step base head number)
    (license : outlook.licensed = some actor) (has : outlook.Has number link)
    (completed : link.completed = true) (failed : link.toSettlement.failed = true) :
    outlook.Accounts terms step base head function actor number := by
  intro after later grows sound' keeps there settled
  cases (grows.has_of_completed has completed).symm.trans there
  refine ⟨link.toSettlement, derives after link grows sound' there settled, ?_⟩
  rw [if_pos failed]
  exact .inl (keeps license)

/-- Another function is chained onto the result by a job. -/
theorem begun [DecidableEq F] {other : F}
    (accounts : outlook.Accounts terms step base head function actor number)
    (sound : outlook.Sound terms) (unwatched : terms.watched ≠ some other) (task : TaskId) :
    (outlook.withBegun terms (.chained outlook.size number other) task).Accounts terms step base
      head function actor outlook.size := by
  intro after link grows sound' keeps has completed
  rcases fulfils_of_begun sound grows sound' has completed with ⟨first, isFirst, settled, -⟩
  have earlier := (outlook.grows_withBegun _ task).trans grows
  exact accounts after first earlier sound' (fun license => keeps ((if_neg unwatched).trans license))
    isFirst settled

end Accounts

/-- What becomes of applying one more function: there is a next result to go on with, or the
function has failed. -/
def Goes (terms : Terms F) (step : F → Value → Settlement) (base : Nat) (done : List F)
    (turn : Outlook F → Nat → Prop) (final : Outlook F → Prop) (conduct : Conduct)
    (after : Outlook F) (exit : Exit Nat) : Prop :=
  conduct = .outside ∧ after.owed = none ∧ after.Sound terms ∧ match exit with
    | .ok next => next < after.size ∧ after.Derives terms step base done next ∧ turn after next
    | .error (.failed failure) => after.Made step base done (.ofFailure failure) ∧ final after
    | .error .cancelled | .error .endless => False

/-- Whoever follows a chain finds what its functions have come to, and the watched one is accounted
for. -/
def Follows (terms : Terms F) (step : F → Value → Settlement) (base : Nat)
    (functions head : List F) (function : F) (actor : TaskId) (_ : Conduct) (outlook : Outlook F)
    (exit : Exit Settlement) : Prop :=
  outlook.owed = none ∧ ∃ settlement, exit = .ok settlement ∧
    outlook.Made step base functions settlement ∧
    outlook.Accounted terms step base head function actor

end Outlook

namespace Chain

variable [DecidableEq F] {terms : Terms F} {step : F → Value → Settlement} {base number : Nat}
  {outlook : Outlook F} {done head rest more : List F} {function other : F} {actor : TaskId}
  {callbacks : ChainCallbacks F}

/-! ## Following a chain -/

/-- One more function is applied, whatever the result has come to yet. -/
theorem tame_use_derives (abide : callbacks.Abide terms) (exact : terms.IsExact step)
    (quiet : ¬ terms.cancels) (sound : outlook.Sound terms) (free : outlook.owed = none)
    (small : number < outlook.size)
    (derives : outlook.Derives terms step base done number)
    {turn : Outlook F → Nat → Prop} {final : Outlook F → Prop}
    (licensed : terms.watched = some other → outlook.licensed = some actor)
    (begun : ∀ task,
      turn (outlook.withBegun terms (.chained outlook.size number other) task) outlook.size)
    (failed : ∀ link, outlook.Has number link → link.completed = true →
      link.toSettlement.failed = true → turn outlook number)
    (applied : ∀ link after, outlook.Has number link → link.completed = true →
      link.toSettlement.failed = false → (outlook.withCall terms other number).Grows after →
      after.Sound terms → (terms.watched ≠ some other → outlook.licensed = some actor →
        after.licensed = some actor) → (∀ next, turn after next) ∧ final after) :
    (use (callbacks.noting terms) number other).run.Tame terms actor
      (Outlook.Goes terms step base (done ++ [other]) turn final) .outside outlook := by
  rcases Outlook.exists_has small with ⟨link, has⟩
  apply tame_use abide sound free has licensed
  · intro pending task fresh
    have may : outlook.MayBegin terms actor (.chained outlook.size number other) :=
      ⟨free, rfl, small, licensed⟩
    have puts : (outlook.begin terms task (.chained outlook.size number other)).Puts terms actor
        (outlook.withBegun terms (.chained outlook.size number other) task) := .begins rfl
    exact ⟨rfl, rfl, (sound.begin may fresh).puts puts,
      Outlook.Has.lt_size List.getElem?_concat_length, derives.begun exact sound task, begun task⟩
  · intro completed isFailed
    exact ⟨rfl, free, sound, small, derives.failed has completed isFailed,
      failed link has completed isFailed⟩
  · intro completed succeeded after exit grows sound' nothing keeps isApplied
    have earlier := (outlook.grows_withCall other number).trans grows
    rcases applied link after has completed succeeded grows sound' keeps with ⟨turns, isOver⟩
    rcases exit with (failure | _ | _) | next
    · exact ⟨rfl, nothing, sound', derives.made exact has completed succeeded earlier sound'
        isApplied, isOver⟩
    · exact absurd isApplied quiet
    · exact isApplied.elim
    · exact ⟨rfl, nothing, sound', isApplied.1, derives.applied exact has completed succeeded
        earlier sound' isApplied.1 isApplied.2, turns next⟩

/-- A function is applied, and then the others, unless it fails at once. -/
theorem tame_follow_cons {turn : Outlook F → Nat → Prop} {final : Outlook F → Prop}
    {functions : List F} (whole : functions = done ++ other :: rest)
    (uses : (use (callbacks.noting terms) number other).run.Tame terms actor
      (Outlook.Goes terms step base (done ++ [other]) turn final) .outside outlook)
    (goesOn : ∀ after next, after.owed = none → after.Sound terms → next < after.size →
      after.Derives terms step base (done ++ [other]) next → turn after next →
      (follow (callbacks.noting terms) next rest).run.Tame terms actor
        (Outlook.Follows terms step base functions head function actor) .outside after)
    (accounted : ∀ after settlement, after.Made step base (done ++ [other]) settlement →
      settlement.failed = true → final after →
      after.Accounted terms step base head function actor) :
    (follow (callbacks.noting terms) number (other :: rest)).run.Tame terms actor
      (Outlook.Follows terms step base functions head function actor) .outside outlook := by
  apply Activity.Tame.bind uses
  rintro ((failure | _ | _) | next) conduct after ⟨rfl, nothing, sound, goes⟩
  · have failed := Settlement.failed_ofFailure failure
    refine ⟨nothing, _, rfl, ?_, ?_⟩
    · rw [whole, List.append_cons]
      exact goes.1.pass failed rest
    · exact accounted after _ goes.1 failed goes.2
  · exact goes.elim
  · exact goes.elim
  · exact goesOn after next nothing sound goes.1 goes.2.1 goes.2.2

/-- The functions after the watched one are applied. -/
theorem tame_follow_rest (abide : callbacks.Abide terms) (exact : terms.IsExact step)
    (quiet : ¬ terms.cancels) (unwatched : ∀ other ∈ rest, terms.watched ≠ some other)
    (sound : outlook.Sound terms) (free : outlook.owed = none) (small : number < outlook.size)
    (derives : outlook.Derives terms step base done number)
    (accounts : outlook.Accounts terms step base head function actor number) :
    (follow (callbacks.noting terms) number rest).run.Tame terms actor
      (Outlook.Follows terms step base (done ++ rest) head function actor) .outside outlook := by
  induction rest generalizing outlook number done with
  | nil =>
      have waits : (wait number).run.Tame terms actor
          (fun _ after exit => outlook.Elapses terms actor after ∧
            ∃ link, exit = .ok link ∧ after.Has number link ∧ link.completed = true)
          .outside outlook := by
        apply tame_wait (by decide) small sound free
        · exact fun after link elapses has completed => ⟨elapses, link, rfl, has, completed⟩
        · exact fun cancels => absurd cancels quiet
      apply Course.tame_seq waits
      · rintro link conduct after ⟨elapses, _, ⟨⟩, has, completed⟩
        rw [List.append_nil]
        exact ⟨elapses.free, link.toSettlement, rfl,
          derives after link elapses.grows elapses.sound has completed,
          accounts after link elapses.grows elapses.sound elapses.licensed has completed⟩
      · rintro interrupt conduct after ⟨-, _, absurdity, -⟩
        cases absurdity
  | cons other rest ih =>
      rcases List.forall_mem_cons.1 unwatched with ⟨here, later⟩
      have uses : (use (callbacks.noting terms) number other).run.Tame terms actor
          (Outlook.Goes terms step base (done ++ [other])
            (fun after next => after.Accounts terms step base head function actor next)
            (fun after => after.Accounted terms step base head function actor))
          .outside outlook := by
        apply tame_use_derives abide exact quiet sound free small derives
        · exact fun watched => absurd watched here
        · exact fun task => accounts.begun sound here task
        · exact fun _ _ _ _ => accounts
        · intro link after has completed _ grows sound' keeps
          have earlier := (outlook.grows_withCall other number).trans grows
          have accounted := accounts after link earlier sound' (keeps here)
            (earlier.has_of_completed has completed) completed
          exact ⟨fun next => .of_accounted accounted next, accounted⟩
      apply tame_follow_cons rfl uses
      · intro after next nothing sound' small' derives' accounts'
        have goesOn := ih later sound' nothing small' derives' accounts'
        rw [List.append_assoc] at goesOn
        exact goesOn
      · exact fun _ _ _ _ => id

/-- The watched function is applied, and then the others. -/
theorem tame_follow_watched (abide : callbacks.Abide terms) (exact : terms.IsExact step)
    (quiet : ¬ terms.cancels) (unwatched : ∀ other ∈ rest, terms.watched ≠ some other)
    (sound : outlook.Sound terms) (free : outlook.owed = none) (small : number < outlook.size)
    (license : outlook.licensed = some actor)
    (derives : outlook.Derives terms step base head number) :
    (follow (callbacks.noting terms) number (function :: rest)).run.Tame terms actor
      (Outlook.Follows terms step base (head ++ function :: rest) head function actor)
      .outside outlook := by
  have uses : (use (callbacks.noting terms) number function).run.Tame terms actor
      (Outlook.Goes terms step base (head ++ [function])
        (fun after next => after.Accounts terms step base head function actor next)
        (fun after => after.Accounted terms step base head function actor))
      .outside outlook := by
    apply tame_use_derives abide exact quiet sound free small derives
    · exact fun _ => license
    · exact fun task => .of_begun derives sound task
    · exact fun link has completed failed => .of_failed derives license has completed failed
    · intro link after has completed succeeded grows sound' _
      have earlier := (outlook.grows_withCall function number).trans grows
      have called : (function, number) ∈ terms.calls after.chain.journal := by
        apply grows.calls_subset
        show _ ∈ terms.calls (terms.call function number :: outlook.chain.journal)
        rw [Terms.calls_cons_call]
        exact List.mem_cons_self
      have accounted : after.Accounted terms step base head function actor :=
        (derives.grows earlier).accounted sound' (earlier.has_of_completed has completed)
          completed succeeded called
      exact ⟨fun next => .of_accounted accounted next, accounted⟩
  apply tame_follow_cons rfl uses
  · intro after next nothing sound' small' derives' accounts'
    have goesOn := tame_follow_rest abide exact quiet unwatched sound' nothing small' derives'
      accounts'
    rw [List.append_assoc] at goesOn
    exact goesOn
  · exact fun _ _ _ _ => id

/-- The functions before the watched one are applied, and then the others. -/
theorem tame_follow (abide : callbacks.Abide terms) (exact : terms.IsExact step)
    (quiet : ¬ terms.cancels) (unwatched : ∀ other ∈ rest, terms.watched ≠ some other)
    (before : ∀ other ∈ more, terms.watched ≠ some other)
    (sound : outlook.Sound terms) (free : outlook.owed = none) (small : number < outlook.size)
    (license : outlook.licensed = some actor)
    (derives : outlook.Derives terms step base done number) :
    (follow (callbacks.noting terms) number (more ++ function :: rest)).run.Tame terms actor
      (Outlook.Follows terms step base (done ++ more ++ function :: rest) (done ++ more) function
        actor) .outside outlook := by
  induction more generalizing outlook number done with
  | nil =>
      rw [List.append_nil]
      exact tame_follow_watched abide exact quiet unwatched sound free small license derives
  | cons other more ih =>
      rcases List.forall_mem_cons.1 before with ⟨here, later⟩
      have uses : (use (callbacks.noting terms) number other).run.Tame terms actor
          (Outlook.Goes terms step base (done ++ [other])
            (fun after _ => after.licensed = some actor)
            (fun after => after.licensed = some actor)) .outside outlook := by
        apply tame_use_derives abide exact quiet sound free small derives
        · exact fun _ => license
        · exact fun task => (if_neg here).trans license
        · exact fun _ _ _ _ => license
        · intro link after _ _ _ _ _ keeps
          exact ⟨fun _ => keeps here license, keeps here license⟩
      apply tame_follow_cons (by rw [List.append_assoc]; rfl) uses
      · intro after next nothing sound' small' derives' license'
        have goesOn := ih later sound' nothing small' license' derives'
        rw [List.append_assoc done [other] more] at goesOn
        exact goesOn
      · intro after settlement made failed license'
        have passed := made.pass failed more
        rw [List.append_assoc] at passed
        exact ⟨settlement, passed, by rw [if_pos failed]; exact .inl license'⟩

end Chain

/-! ## What whoever follows a chain comes to -/

namespace Outlook

/-- A task gets the license. -/
def licensing (actor : TaskId) (outlook : Outlook F) : Outlook F :=
  { outlook with licensed := some actor }

theorem grows_licensing (actor : TaskId) (outlook : Outlook F) :
    outlook.Grows (outlook.licensing actor) where
  links _ link has := ⟨link, has, .refl link⟩
  jobs _ _ found := found
  journal := List.Subset.refl _

theorem Sound.licensing {terms : Terms F} {outlook : Outlook F} (sound : outlook.Sound terms)
    (actor : TaskId) : (outlook.licensing actor).Sound terms where
  jobs := sound.jobs
  blank := sound.blank
  begun := sound.begun
  given := sound.given
  bases := sound.bases
  proper := sound.proper
  fulfils number link job has begun completed :=
    (grows_licensing actor outlook).fulfils (sound.fulfils number link job has begun completed)
  called := sound.called
  distinct := sound.distinct
  owed := sound.owed

end Outlook

section

variable [DecidableEq F] {terms : Terms F} {step : F → Value → Settlement} {base : Nat}
  {loop before after : Loop Chain (ChainJob F)} {outlook : Outlook F} {actor : TaskId}
  {callbacks : ChainCallbacks F} {forecast : Forecast F} {head rest : List F} {function : F}

/-- Nobody has the license, as nothing was supplied. -/
theorem Outlook.IsBalanced.licensed_eq_none (balanced : outlook.IsBalanced terms 0) :
    outlook.licensed = none := by
  unfold IsBalanced at balanced
  cases licensed : outlook.licensed with
  | none =>
      rfl
  | some holder =>
      rw [licensed] at balanced
      cases balanced

/-- How whoever follows a chain may have ended. -/
def Forecast.following (terms : Terms F) (step : F → Value → Settlement) (base : Nat)
    (functions head : List F) (function : F) (actor : TaskId) (report : Settlement → Value) :
    Forecast F where
  lost _ := False
  supply := 1
  ends task outlook exit := task = actor → ∃ settlement, exit = .ok (report settlement) ∧
    outlook.Made step base functions settlement ∧
    outlook.Accounted terms step base head function actor
  ends_mono := by
    rintro task before after exit ends grows keeps rfl
    rcases ends rfl with ⟨settlement, same, made, accounted⟩
    exact ⟨settlement, same, made.grows grows, accounted.grows grows keeps⟩

namespace Loop.Tends

/-- The busy task gets the license, and it is foreseen how it ends. -/
theorem entrust (tends : loop.Tends terms (.plain F) (some actor) (some actor) outlook)
    (nobody : ∀ job link, ¬ outlook.Assigns actor job link) {functions : List F}
    {report : Settlement → Value} :
    loop.Tends terms (.following terms step base functions head function actor report)
      (some actor) (some actor) (outlook.licensing actor) where
  coherent := tends.coherent
  covers := tends.covers
  apart := tends.apart
  state := tends.state
  sound := tends.sound.licensing actor
  balanced := by
    have balanced : outlook.IsBalanced terms 0 := tends.balanced
    have nobody := balanced.licensed_eq_none
    unfold Outlook.IsBalanced at balanced ⊢
    rw [nobody] at balanced
    show outlook.runs terms + 1 = 1
    rw [show outlook.runs terms = 0 from balanced]
  unknown := by
    rintro task _ exit absent rfl
    rcases tends.coherent.runs task rfl with ⟨_, _, found⟩
    cases absent.symm.trans found
  orderly := tends.orderly
  futures := tends.futures
  future := tends.future
  assigned := tends.assigned
  anyhow := by
    rintro task job link assigned _ _ rfl
    exact absurd assigned (nobody job link)
  serves := by
    intro task job link assigns besides
    have balanced : outlook.IsBalanced terms 0 := tends.balanced
    have nobody := balanced.licensed_eq_none
    apply (tends.serves task job link assigns besides).leads assigns tends.sound
      tends.coherent.refl tends.coherent besides (outlook.grows_licensing actor)
    · intro license
      rw [nobody] at license
      cases license
    · exact fun _ _ isLost => isLost.elim
  bystands := by
    intro task status found nobody besides
    have differs : task ≠ actor := fun same => besides (congrArg some same.symm)
    cases tends.bystands task status found nobody besides with
    | @waits on resume stands resumes =>
        refine .waits stands ?_
        intro last answer elapses truthful
        have elapses' : outlook.Elapses terms task last :=
          ⟨(outlook.grows_licensing actor).trans elapses.grows, elapses.sound, elapses.free, ?_⟩
        · rcases resumes last answer elapses' truthful with ⟨part, same, tame⟩
          refine ⟨part, same, tame.mono ?_⟩
          intro _ _ exit ends
          exact ⟨ends.1, ends.2.1, fun _ _ _ same => absurd same differs⟩
        · intro license
          have balanced : outlook.IsBalanced terms 0 := tends.balanced
          rw [balanced.licensed_eq_none] at license
          cases license
    | «open» promised =>
        exact .open promised fun _ _ same => absurd same differs
    | ended ended =>
        exact .ended ended fun same => absurd same differs
  lost _ isLost := isLost.elim

/-- Whoever follows a chain begins. -/
theorem begins (abide : callbacks.Abide terms) (exact : terms.IsExact step)
    (quiet : ¬ terms.cancels) (before : ∀ other ∈ head, terms.watched ≠ some other)
    (unwatched : ∀ other ∈ rest, terms.watched ≠ some other)
    (tends : loop.Tends terms (.plain F) none none outlook) (free : outlook.owed = none)
    (small : base < outlook.size) (report : Settlement → Value) :
    ∃ later, (loop.launch (Chain.runJob (callbacks.noting terms)) (Chain.following
        (callbacks.noting terms) base (head ++ function :: rest) report)).2.Tends terms
        (.following terms step base (head ++ function :: rest) head function loop.tasks.length
          report) none none later ∧ later.owed = none := by
  have entered := tends.enters (Chain.following (callbacks.noting terms) base
    (head ++ function :: rest) report)
  have entrusted : Tends terms (.following terms step base (head ++ function :: rest) head function
      loop.tasks.length report) (some loop.tasks.length) (some loop.tasks.length)
      (outlook.licensing loop.tasks.length) _ := entered.entrust tends.not_assigns_length
  have follows : (Chain.follow (callbacks.noting terms) base (head ++ function :: rest)).run.Tame
      terms loop.tasks.length (Outlook.Follows terms step base (head ++ function :: rest) head
        function loop.tasks.length) .outside (outlook.licensing loop.tasks.length) :=
    Chain.tame_follow abide exact quiet unwatched before
      (tends.sound.licensing loop.tasks.length) free small rfl (.refl terms step base _)
  have tame : (Chain.following (callbacks.noting terms) base (head ++ function :: rest)
      report).Tame terms loop.tasks.length (Outlook.Bystander terms (.following terms step base
        (head ++ function :: rest) head function loop.tasks.length report) loop.tasks.length)
      .outside (outlook.licensing loop.tasks.length) := by
    apply follows.bind
    rintro _ conduct last ⟨nothing, settlement, rfl, made, accounted⟩
    refine ⟨nothing, Exit.isFair_ok _ _, ?_⟩
    rintro ended mayEnd fair -
    cases mayEnd with
    | itself =>
        exact ⟨settlement, rfl, made, accounted⟩
    | cancelled =>
        exact absurd (fair.allowed rfl) quiet
  rcases (entrusted.plays_of_bystander tends.not_assigns_length tame).result abide with
    ⟨later, tends', free', -⟩
  exact ⟨later, tends', free'⟩

/-- It is known how a task has ended. -/
theorem foreseen (tends : loop.Tends terms forecast none none outlook) {task : TaskId}
    {exit : Exit Value} (ended : loop.exit? task = some exit) :
    forecast.ends task outlook exit := by
  by_cases assigned : ∃ job link, outlook.Assigns task job link
  · rcases assigned with ⟨job, link, assigned⟩
    exact tends.anyhow task job link assigned outlook exit
  · cases tends.bystands task _ (exit?_eq_some_iff.1 ended)
      (fun job link assigns => assigned ⟨job, link, assigns⟩) nofun with
    | waits stands =>
        rw [exit?_of_stands stands] at ended
        cases ended
    | «open» promised =>
        cases promised.symm.trans (exit?_eq_some_iff.1 ended)
    | ended again ends =>
        cases again.symm.trans ended
        exact ends

/-- The watched function has been called once, unless its license has not been used. -/
theorem runs_of_accounted (tends : loop.Tends terms forecast none none outlook)
    (watches : terms.watched = some function)
    (supply : forecast.supply = 1) {settlement : Settlement}
    (account : if settlement.failed then outlook.Unused actor function
      else ∃ given, (function, given) ∈ terms.calls outlook.chain.journal) :
    outlook.runs terms = if settlement.failed then 0 else 1 := by
  have balanced := tends.balanced
  rw [supply] at balanced
  unfold Outlook.IsBalanced at balanced
  split at account
  · rename_i failed
    rw [if_pos failed]
    have licensed : ∃ holder, outlook.licensed = some holder := by
      rcases account with license | ⟨number, own, given, link, first, has, completed, begun, there,
        -, isFailed⟩
      · exact ⟨actor, license⟩
      · rcases Option.ne_none_iff_exists'.1 (tends.sound.begun number link _ has begun).2 with
          ⟨task, isTask⟩
        cases tends.serves task _ link (.inl ⟨number, has, isTask, begun⟩) nofun with
        | works pending | cancelled pending =>
            rw [completed] at pending
            cases pending
        | settled _ _ _ licensed =>
            exact ⟨task, licensed own given function first rfl watches there isFailed⟩
    rcases licensed with ⟨holder, license⟩
    rw [license] at balanced
    exact Nat.succ.inj balanced
  · rename_i succeeded
    rw [if_neg succeeded]
    rcases account with ⟨given, called⟩
    have once : 0 < outlook.runs terms := by
      apply List.countP_pos_iff.2
      exact ⟨_, called, decide_eq_true watches⟩
    have bound : outlook.runs terms ≤ 1 := Nat.le.intro balanced
    exact Nat.le_antisymm bound once

end Loop.Tends

/-- How often a function has been called. -/
def Terms.timesCalled (terms : Terms F) (function : F) (journal : List Entry) : Nat :=
  (terms.calls journal).countP (·.1 = function)

theorem Outlook.runs_eq_timesCalled (watches : terms.watched = some function) :
    outlook.runs terms = terms.timesCalled function outlook.chain.journal := by
  unfold runs Terms.timesCalled
  simp only [watches, Option.some.injEq, eq_comm]

/-- Whoever chains functions onto a result and waits for the last one finds what the functions make
of what the result has come to, whether it had come to it before or not.  A function is called once
if there is a value to give it, and otherwise never.  In a loop at rest the wait is over, unless it
is in the end for a promise that nobody has kept, or in a circle. -/
theorem Loop.Becomes.follows_alike (abide : callbacks.Abide terms) (exact : terms.IsExact step)
    (quiet : ¬ terms.cancels) (watches : terms.watched = some function) (fresh : function ∉ head)
    (last : function ∉ rest)
    (reached : (Chain.atStart F terms.futures).Becomes terms callbacks before) {link : Link}
    (has : before.state.links[base]? = some link) (report : Settlement → Value)
    (goesOn : ((before.launch (Chain.runJob (callbacks.noting terms)) (Chain.following
      (callbacks.noting terms) base (head ++ function :: rest) report)).2).Becomes terms callbacks
        after) :
    (∀ exit, after.exit? before.tasks.length = some exit →
      ∃ first : Link, after.state.links[base]? = some first ∧ first.completed = true ∧
        exit = .ok (report (first.toSettlement.through step (head ++ function :: rest))) ∧
        terms.timesCalled function after.state.journal =
          if (first.toSettlement.through step head).failed then 0 else 1) ∧
      terms.timesCalled function after.state.journal ≤ 1 ∧
      (after.step (Chain.runJob (callbacks.noting terms)) = none →
        (∃ exit, after.exit? before.tasks.length = some exit) ∨
          ∃ stuck, Relation.ReflTransGen after.WaitsFor before.tasks.length stuck ∧
            (after.IsUnkept stuck ∨ Relation.TransGen after.WaitsFor stuck stuck)) := by
  have apart : ∀ {functions : List F}, function ∉ functions →
      ∀ other ∈ functions, terms.watched ≠ some other := by
    intro functions absent other member isWatched
    cases watches.symm.trans isWatched
    exact absent member
  rcases (Tends.atStart terms).becomes abide rfl reached with ⟨outlook, tends, free, -⟩
  rw [tends.state] at has
  rcases tends.begins abide exact quiet (apart fresh) (apart last) free (Outlook.Has.lt_size has)
    report with ⟨middle, tends', free'⟩
  rcases tends'.becomes abide free' goesOn with ⟨later, tends'', free'', -⟩
  have times := later.runs_eq_timesCalled watches
  rw [tends''.state]
  refine ⟨?_, ?_, ?_⟩
  · intro exit ended
    rcases tends''.foreseen ended rfl with ⟨settlement, rfl, ⟨first, has, completed, rfl⟩,
      value, ⟨other, again, -, rfl⟩, account⟩
    cases has.symm.trans again
    refine ⟨first, has, completed, rfl, ?_⟩
    rw [← times]
    exact tends''.runs_of_accounted watches rfl account
  · rw [← times]
    exact Nat.le.intro tends''.balanced
  · intro rests
    exact tends''.orderly.ended_of_rests tends''.coherent rests _

end

/-! ## A chain of wrappings -/

namespace Wrapping

/-- What a function makes of a value: the value with the name of the function before it. -/
def wrap (function : String) (value : Value) : Settlement :=
  .success (.list [.text function, value])

/-- Functions wrap what they are given, and nothing is cancelled. -/
def terms : Terms String :=
  { Terms.lenient 1 with
    verdict := fun function value settlement => settlement = wrap function value
    isProper_of_verdict := by
      rintro _ _ _ rfl
      exact Settlement.isProper_success _
    watched := some "second"
    cancels := False }

/-- Work awaits a future. -/
def callbacks : ChainCallbacks String where
  await _ := do return .value (← Course.wait (.task 0))
  apply function base := do
    return .value (.list [.text function, (← Course.read (·.link base)).value])

theorem abide : callbacks.Abide terms where
  await := by
    intro name actor outlook sound free
    refine ⟨free, .inl Nat.zero_lt_one, ?_⟩
    rintro after ((failure | _ | _) | value) elapses truthful
    · exact ⟨elapses.free, Settlement.isProper_ofFailure failure, Settlement.isProper_ofFailure _⟩
    · exact (truthful.fair.allowed rfl).elim
    · exact (truthful.fair.followed rfl).elim
    · exact ⟨elapses.free, Settlement.isProper_success value⟩
  apply := by
    intro function base link actor outlook sound free has completed succeeded
    have wrapped : Settlement.success (.list [.text function, (outlook.chain.link base).value]) =
        wrap function link.value := by
      rw [has.link_eq]
      rfl
    exact ⟨free, id, wrapped⟩

/-- Work has been begun that awaits the future. -/
def begun : Loop Chain (ChainJob String) :=
  ((Chain.atStart String 1).launch (Chain.runJob (callbacks.noting terms))
    (Chain.alone (Chain.pending fun number => .work number "work"))).2

/-- Three functions are chained onto the work, and the last result is waited for. -/
def chained : Loop Chain (ChainJob String) :=
  (begun.launch (Chain.runJob (callbacks.noting terms)) (Chain.following
    (callbacks.noting terms) 0 (["first"] ++ "second" :: ["third"]) Settlement.value)).2

/-- However long the work takes, its value has been wrapped three times in the end. -/
theorem wrapped_when_settled :
    (Chain.atStart String 1).Becomes terms callbacks begun ∧
    begun.state.links[0]? = some (.begun 2) ∧ ∀ after, chained.Becomes terms callbacks after →
      ∀ exit, after.exit? 3 = some exit → ∃ first : Link, after.state.links[0]? = some first ∧
        first.completed = true ∧
        exit = .ok (first.toSettlement.through wrap ["first", "second", "third"]).value ∧
        terms.timesCalled "second" after.state.journal =
          if (first.toSettlement.through wrap ["first"]).failed then 0 else 1 := by
  have started : (Chain.atStart String 1).Becomes terms callbacks begun :=
    .single (.begins (Loop.admits_pending "work"))
  have work : begun.state.links[0]? = some (.begun 2) := rfl
  have exact : terms.IsExact wrap := fun _ _ _ same => same
  refine ⟨started, work, fun after goesOn => ?_⟩
  exact (Loop.Becomes.follows_alike abide exact id rfl (by decide) (by decide) started work
    Settlement.value goesOn).1

/-- A function finds nothing further to wrap. -/
def idle : ChainCallbacks String where
  await := callbacks.await
  apply _ _ := Course.fail (.fault .exhausted "nothing further")

/-- Somebody keeps the future that work awaits. -/
def keep (loop : Loop Chain (ChainJob String)) : Loop Chain (ChainJob String) :=
  (loop.launch (Chain.runJob idle) (.settle 0 (.ok .null) (.done (.ok .null)))).2.drain
    (Chain.runJob idle) 8

/-- Somebody chains a function onto the work and reports what becomes of it. -/
def ask (loop : Loop Chain (ChainJob String)) : Loop Chain (ChainJob String) :=
  (loop.launch (Chain.runJob idle) (Chain.following idle 0 ["wrap"] fun settlement =>
    .text ((settlement.uncaught.map Failure.message).getD ""))).2.drain (Chain.runJob idle) 8

/-- What is raised by a function that is chained onto a settled result is not what is raised if
the result was pending. -/
theorem exhaustion_differs :
    (ask (keep begun)).exit? 4 = some (.ok (.text "nothing further")) ∧
    (keep (ask begun)).exit? 3 = some (.ok (.text "coroutine raised StopIteration")) := by
  exact ⟨rfl, rfl⟩

end Wrapping

end Steward
