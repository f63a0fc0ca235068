import Steward.Proofs.Command.Regular
import Steward.Proofs.Command.Timing

/-!
# What is traced of a dispatch

Failures are raised at many places of a dispatch: by assertions and by the traversal itself,
by parsers, by lookups that are awaited, and by the executor.  Each place provides for
failures of one class, and whatever else is raised there is unexpected (`Mishap.IsExpected`).

A dispatch contains them all as far as they can be worded.  It comes to a result then, and each
leaf of the result that is not the executor's own stems from one of the failures that befell the
dispatch, or from none of them; it is traced exactly if that failure is unexpected
(`traces_unexpected`).  A failure that can not be worded for the report ends the dispatch with
what is raised instead.
-/

namespace Steward

variable {F σ J α : Type}

/-- Where a failure is raised. -/
inductive Place where
  /-- An assertion, or the traversal itself. -/
  | traversal
  /-- A parser. -/
  | reading
  /-- A lookup that is awaited. -/
  | lookup
  | executor
  deriving DecidableEq, Repr

/-- A failure and where it was raised. -/
structure Mishap where
  place : Place
  failure : Failure

namespace Mishap

/-- The failures that each place provides for. -/
inductive IsExpected : Mishap → Prop where
  | reading (error : ParseError) : IsExpected ⟨.reading, .parse error⟩
  | lookup (error : ParseError) : IsExpected ⟨.lookup, .parse error⟩
  | executor {failure : Failure} (plain : failure.isPlain = true) :
      IsExpected ⟨.executor, failure⟩
  | traversal (text : String) (kind : CommandErrorKind) (span : Option Span)
      (cause : Option Failure) : IsExpected ⟨.traversal, .command text kind span false cause⟩

/-- What a failure becomes where it is contained. -/
def outcome (mishap : Mishap) : Outcome :=
  match mishap.place with
  | .traversal => .ofRaised mishap.failure
  | .reading | .lookup => .ofParseFailure mishap.failure
  | .executor => .ofExecutor mishap.failure

/-- A contained failure is traced if its place did not provide for it. -/
theorem isTraced_outcome (mishap : Mishap) :
    mishap.outcome.isTraced = true ↔ ¬ mishap.IsExpected := by
  rcases mishap with ⟨place, failure⟩
  cases place with
  | traversal =>
      cases failure with
      | command text kind span traced cause =>
          cases traced with
          | false =>
              exact iff_of_false nofun (not_not_intro (.traversal text kind span cause))
          | true =>
              exact iff_of_true rfl nofun
      | _ =>
          exact iff_of_true rfl nofun
  | reading =>
      cases failure with
      | parse error =>
          exact iff_of_false nofun (not_not_intro (.reading error))
      | _ =>
          exact iff_of_true rfl nofun
  | lookup =>
      cases failure with
      | parse error =>
          exact iff_of_false nofun (not_not_intro (.lookup error))
      | _ =>
          exact iff_of_true rfl nofun
  | executor =>
      show (Outcome.ofExecutor failure).isTraced = true ↔ _
      unfold Outcome.ofExecutor
      split
      · rename_i plain
        exact iff_of_false nofun (not_not_intro (.executor plain))
      · rename_i unexpected
        refine iff_of_true rfl ?_
        rintro ⟨⟩
        rename_i plain
        exact unexpected plain

/-- A contained failure is one leaf. -/
theorem unwrap_outcome (mishap : Mishap) :
    (CommandResult.ofOutcome mishap.outcome).unwrap = [.ofOutcome mishap.outcome] := by
  rcases mishap with ⟨place, failure⟩
  cases place with
  | traversal | reading | lookup =>
      cases failure <;> rfl
  | executor =>
      cases plain : failure.isPlain with
      | false =>
          simp only [outcome, Outcome.ofExecutor, plain]
          rfl
      | true =>
          simp only [outcome, Outcome.ofExecutor, plain]
          rfl

/-- What becomes of a failure where it was raised. -/
def halt (mishap : Mishap) : Halt :=
  match mishap.place with
  | .traversal => .ofRaised mishap.failure
  | .reading | .lookup => .ofParseFailure mishap.failure
  | .executor => .ofExecutor mishap.failure

/-- The report of a failure that leaves a dispatch's coroutine, or what escapes. -/
def ofRaised (failure : Failure) : Except Failure Mishap :=
  match failure.outside.instead? with
  | none => .ok ⟨.traversal, failure.outside⟩
  | some raised => .error raised.outside

/-- The mishap that is reported of one, or what escapes.  Where an executor's failure can not be
worded, something befalls the traversal in its place. -/
def reported (mishap : Mishap) : Except Failure Mishap :=
  match mishap.place with
  | .traversal => ofRaised mishap.failure
  | .reading | .lookup => .ok mishap
  | .executor =>
    match mishap.failure.instead? with
    | none => .ok mishap
    | some raised => ofRaised raised

theorem halt_ofRaised (failure : Failure) :
    Halt.ofRaised failure =
      match ofRaised failure with
      | .ok mishap => .reported mishap.outcome
      | .error raised => .escaped raised := by
  rw [Halt.ofRaised, ofRaised]
  cases failure.outside.instead? <;> rfl

/-- A mishap is contained as what is reported of it. -/
theorem halt_eq (mishap : Mishap) :
    mishap.halt =
      match mishap.reported with
      | .ok contained => .reported contained.outcome
      | .error raised => .escaped raised := by
  rcases mishap with ⟨place, failure⟩
  cases place with
  | traversal =>
      exact halt_ofRaised failure
  | reading | lookup =>
      rfl
  | executor =>
      rw [halt, reported]
      dsimp only
      rw [Halt.ofExecutor]
      cases failure.instead? with
      | none =>
          rfl
      | some raised =>
          exact halt_ofRaised raised

/-- What is reported of a mishap is what a mishap is contained as. -/
theorem outcome_of_reported {mishap : Mishap} {outcome : Outcome}
    (reports : mishap.halt = .reported outcome) : ∃ contained : Mishap, contained.outcome = outcome := by
  rw [mishap.halt_eq] at reports
  cases contained : mishap.reported with
  | error raised =>
      rw [contained] at reports
      cases reports
  | ok other =>
      rw [contained] at reports
      exact ⟨other, Halt.reported.inj reports⟩

end Mishap

/-- A leaf of a result stems from a failure, or it stems from none and is not traced. -/
inductive Outcome.StemsFrom : Outcome → Option Mishap → Prop where
  | mishap (mishap : Mishap) : StemsFrom mishap.outcome (some mishap)
  | none {outcome : Outcome} (untraced : outcome.isTraced = false) : StemsFrom outcome none

theorem Outcome.StemsFrom.isTraced_iff {outcome : Outcome} {origin : Option Mishap}
    (stems : outcome.StemsFrom origin) :
    outcome.isTraced = true ↔ ∃ mishap, origin = some mishap ∧ ¬ mishap.IsExpected := by
  cases stems with
  | mishap mishap =>
      rw [mishap.isTraced_outcome]
      simp
  | none untraced =>
      simp [untraced]

/-- What the leaves of a result stem from if some failures befell its dispatch: the leaf of
a dispatch that nothing befell stems from none. -/
def Mishap.origins : List Mishap → List (Option Mishap)
  | [] => [none]
  | mishaps => mishaps.map some

/-- The leaves of a result stem from some failures in order, and are traced accordingly. -/
def CommandResult.Traces (result : CommandResult) (mishaps : List Mishap) : Prop :=
  List.Forall₂
    (fun leaf origin => leaf.outcome.StemsFrom origin ∧
      (leaf.outcome.isTraced = true ↔ ∃ mishap, origin = some mishap ∧ ¬ mishap.IsExpected))
    result.unwrap (Mishap.origins mishaps)

namespace CommandResult

theorem Traces.of_mishap (mishap : Mishap) : (ofOutcome mishap.outcome).Traces [mishap] := by
  have stems : mishap.outcome.StemsFrom (some mishap) := .mishap mishap
  rw [Traces, mishap.unwrap_outcome]
  exact .cons ⟨stems, stems.isTraced_iff⟩ .nil

/-- Several failures are traced one by one. -/
theorem Traces.of_lookups {failed : List Failure} (some_fail : failed ≠ []) :
    (ofOutcome (.several (failed.map .ofParseFailure))).Traces
      (failed.map (Mishap.mk .lookup)) := by
  have origins : Mishap.origins (failed.map (Mishap.mk .lookup)) =
      failed.map fun failure => some ⟨.lookup, failure⟩ := by
    cases failed with
    | nil =>
        exact absurd rfl some_fail
    | cons first rest =>
        exact List.map_map
  have leaves : (ofOutcome (.several (failed.map .ofParseFailure))).unwrap =
      failed.map fun failure => ofOutcome (.ofParseFailure failure) := by
    show (Outcome.several (failed.map .ofParseFailure)).leaves.map ofOutcome = _
    rw [Dispatch.leaves_ofParseFailure, List.map_map]
    rfl
  rw [Traces, origins, leaves, List.forall₂_map_left_iff, List.forall₂_map_right_iff]
  refine List.forall₂_same.2 fun failure _ => ?_
  have stems : (Outcome.ofParseFailure failure).StemsFrom (some ⟨.lookup, failure⟩) :=
    .mishap ⟨.lookup, failure⟩
  exact ⟨stems, stems.isTraced_iff⟩

/-- A result of one leaf that is not traced stems from no failure. -/
theorem Traces.of_untraced {result : CommandResult} (single : result.unwrap = [result])
    (untraced : result.outcome.isTraced = false) : result.Traces [] := by
  have stems : result.outcome.StemsFrom none := .none untraced
  rw [Traces, single]
  exact .cons ⟨stems, stems.isTraced_iff⟩ .nil

end CommandResult

/-- How a dispatch ends that some mishaps befell: with a result that traces what is reported of
them, or with what escapes. -/
def Mishap.EndIn (mishaps : List Mishap) (exit : Exit CommandResult) : Prop :=
  match mishaps.mapM reported with
  | .ok contained => ∃ result, exit = .ok result ∧ result.Traces contained
  | .error raised => exit = .error (.failed raised)

/-- A mishap ends a dispatch in the way in which it is contained. -/
theorem Mishap.endIn_halt (mishap : Mishap) : EndIn [mishap] mishap.halt.exit := by
  rw [EndIn, mishap.halt_eq, List.mapM_cons, List.mapM_nil]
  cases mishap.reported with
  | error raised =>
      rfl
  | ok contained =>
      exact ⟨_, rfl, .of_mishap contained⟩

theorem Mishap.endIn_lookups {failed : List Failure} (some_fail : failed ≠ []) :
    EndIn (failed.map (Mishap.mk .lookup))
      (.ok (.ofOutcome (.several (failed.map .ofParseFailure)))) := by
  have contained : (failed.map (Mishap.mk .lookup)).mapM reported =
      .ok (failed.map (Mishap.mk .lookup)) := by
    clear some_fail
    induction failed with
    | nil =>
        rfl
    | cons first rest ih =>
        rw [List.map_cons, List.mapM_cons, ih]
        rfl
  rw [EndIn, contained]
  exact ⟨_, rfl, .of_lookups some_fail⟩

/-- Nothing that befalls a dispatch leaves it to end with what it came to. -/
theorem Mishap.endIn_nil {result : CommandResult} (single : result.unwrap = [result])
    (untraced : result.outcome.isTraced = false) : EndIn [] (.ok result) := by
  exact ⟨_, rfl, .of_untraced single untraced⟩

/-! ## What befalls a walk -/

/-- What an assertion raises, if it raises anything. -/
def WalkEnv.raised? (env : WalkEnv F σ) (assertion : Assertion F) (invocation : Invocation F)
    (state : σ) : Option Failure :=
  match assertion with
  | .permissions paths =>
    match env.lacking, invocation.member with
    | none, _ => some (.command "No permission manager available" .system none true none)
    | some _, none => none
    | some lacking, some member =>
      match (lacking member paths state).1 with
      | .error failure => some failure
      | .ok _ => none
  | .platform _ => none
  | .custom name =>
    match (env.assertion name invocation state).1 with
    | .error failure => some failure
    | .ok _ => none

/-- A test answers, or what it raises ends the walk. -/
theorem WalkEnv.test_cases (env : WalkEnv F σ) (assertion : Assertion F)
    (invocation : Invocation F) (state : σ) :
    (env.raised? assertion invocation state = none ∧
      ∃ reason after, env.test assertion invocation state = (.ok reason, after)) ∨
    ∃ failure after, env.raised? assertion invocation state = some failure ∧
      env.test assertion invocation state = (.error (.ofRaised failure), after) := by
  cases assertion with
  | permissions paths =>
      simp only [raised?, test]
      cases env.lacking with
      | none =>
          exact .inr ⟨_, _, rfl, rfl⟩
      | some lacking =>
          cases invocation.member with
          | none =>
              exact .inl ⟨rfl, _, _, rfl⟩
          | some member =>
              dsimp only
              rcases lacking member paths state with ⟨failure | missing, after⟩
              · exact .inr ⟨failure, after, rfl, rfl⟩
              · exact .inl ⟨rfl, _, after, rfl⟩
  | platform names =>
      refine .inl ⟨rfl, ?_⟩
      simp only [test]
      split
      · exact ⟨_, _, rfl⟩
      · exact ⟨_, _, rfl⟩
  | custom name =>
      simp only [raised?, test]
      rcases env.assertion name invocation state with ⟨failure | reason, after⟩
      · exact .inr ⟨failure, after, rfl, rfl⟩
      · exact .inl ⟨rfl, reason, after, rfl⟩

/-- The command error that an outcome was raised as. -/
def Outcome.raised? : Outcome → Option Failure
  | .erroneous text kind span traced cause => some (.command text kind span traced cause)
  | _ => none

namespace Walk

/-- The failures that are raised along the way that a walk takes. -/
def mishaps (env : WalkEnv F σ) : Walk F α → Invocation F → σ → List Mishap
  | .done _, _, _ => []
  | .stop halt, _, _ => ((halt.outcome?.bind Outcome.raised?).map (Mishap.mk .traversal)).toList
  | .look next, invocation, state => mishaps env (next invocation) invocation state
  | .change f next, invocation, state => mishaps env next (f invocation) state
  | .join node next, invocation, state => mishaps env next (invocation.visiting node) state
  | .test assertion next, invocation, state =>
    match env.raised? assertion invocation state, env.test assertion invocation state with
    | some failure, _ => [⟨.traversal, failure⟩]
    | none, (.ok reason, state) => mishaps env (next reason) invocation state
    | none, (.error _, _) => []
  | .read parser next, invocation, state =>
    match env.read parser invocation state with
    | (result, invocation, state) =>
      (result.failure?.map (Mishap.mk .reading)).toList ++
        mishaps env (next result) invocation state
  | .record table name result next, invocation, state =>
    mishaps env next (invocation.recordResult table name result) state

/-- The ways in which a walk ends, and what befalls it in each. -/
inductive Ending : Except Halt α → List Mishap → Prop where
  | arrives (value : α) : Ending (.ok value) []
  | fails (text : String) : Ending (.error (.reported (.fail text))) []
  | refuses (text : String) : Ending (.error (.reported (.refused text))) []
  | raises (mishap : Mishap) : Ending (.error mishap.halt) [mishap]
  | endless : Ending (.error .endless) []

/-- A regular walk is ended by the first failure that befalls it. -/
theorem Regular.ending {walk : Walk F α} (regular : walk.Regular) (env : WalkEnv F σ)
    (start : Invocation F) (state : σ) :
    Ending (walk.run env start state).1 (walk.mishaps env start state) := by
  induction regular generalizing start state with
  | done value =>
      exact .arrives value
  | stop own =>
      cases own with
      | fail text =>
          exact .fails text
      | refused text =>
          exact .refuses text
      | raised text kind span =>
          exact .raises ⟨.traversal, .command text kind span false none⟩
      | endless =>
          exact .endless
  | look _ ih =>
      exact ih start start state
  | change _ _ _ ih =>
      exact ih _ state
  | join node _ ih =>
      exact ih _ state
  | test assertion _ ih =>
      rcases env.test_cases assertion start state with
        ⟨silent, reason, after, tested⟩ | ⟨failure, after, raised, tested⟩
      · simp only [run, mishaps, silent, tested]
        exact ih reason start after
      · simp only [run, mishaps, raised, tested]
        exact .raises ⟨.traversal, failure⟩
  | @read parser next table name following stops records _ ih =>
      rcases read : env.read parser start state with ⟨result, reached, after⟩
      simp only [run, mishaps, read]
      rcases result with (failure | value) | lookup | _
      · -- The walk stops with what the reading failed with, which is not raised once more.
        have silent : (Halt.ofParseFailure failure).outcome?.bind Outcome.raised? = none := by
          cases failure <;> rfl
        rw [stops _ _ rfl, run, mishaps, silent]
        exact .raises ⟨.reading, failure⟩
      · rw [records _ rfl]
        exact ih _ (reached.recordResult table name _) after
      · rw [records _ rfl]
        exact ih _ (reached.recordResult table name _) after
      · rw [stops _ _ rfl]
        exact .endless
  | record table name value _ ih =>
      exact ih _ state

end Walk

namespace Dispatch

/-! ## What befalls a dispatch -/

/-- The failure that a value stands for if an executor answers with it and it is no result. -/
def notAResult (value : Value) : Failure :=
  .fault .wrongType ("Executor returned " ++ value.kindName ++ ", not a CommandResult")

/-- What befalls a dispatch whose executor has ended: an answer that is no result is as good
as raised. -/
def mishapsOfExit : Exit Reply → List Mishap
  | .error (.failed failure) => [⟨.executor, failure⟩]
  | .ok (.other value) => [⟨.executor, notAResult value⟩]
  | _ => []

/-- In a trial, an executor is run, and this is how it ends. -/
def Executed (env : DispatchEnv F σ J) (registry : CommandRegistry F) (start : Invocation F)
    (trial : Trial σ J) (exit : Exit Reply) : Prop :=
  ∃ steps before during rest executor ready left,
    (trial.after steps).history = before ++ (during ++ rest) ∧
      (approach env.toWalkEnv env.begin registry start).Ends before (.ready executor ready) ∧
      (env.execute executor ready).Ends during (exit, left)

/-- In a trial, whatever executor is run comes to an end, and neither is it cancelled nor the
dispatch that waits for it. -/
structure Finishes (env : DispatchEnv F σ J) (registry : CommandRegistry F)
    (start : Invocation F) (trial : Trial σ J) : Prop where
  completes : ∀ steps before rest executor ready, (trial.after steps).history = before ++ rest →
    (approach env.toWalkEnv env.begin registry start).Ends before (.ready executor ready) →
      trial.Completes before (env.execute executor ready)
  kept : ∀ interrupt, Executed env registry start trial (.error interrupt) →
    ∃ failure, interrupt = .failed failure
  undisturbed : ∀ steps before during rest executor ready ended,
    (trial.after steps).history =
        before ++ (during ++ .waited .turn (.error .cancelled) :: rest) →
      (approach env.toWalkEnv env.begin registry start).Ends before (.ready executor ready) →
        ¬ (env.execute executor ready).Ends during ended

/-- What befalls a dispatch that answers with no result of its executor's own: what befell
its walk, if that came to an end and there is no executor to run; else the failures of the lookups
that it recorded, if any failed; else what its executor raised. -/
inductive Befalls (env : DispatchEnv F σ J) (registry : CommandRegistry F)
    (start : Invocation F) (outcome : Nat → Except Failure Value) (trial : Trial σ J) :
    List Mishap → Prop where
  | walk {walked : Except Halt (Option F)} {last : Invocation F} {after : σ}
      (walks : (Walk.ofLine env.patience registry).run env.toWalkEnv start trial.loop.state =
        (walked, last, after))
      (ends : ∀ executor, walked ≠ .ok (some executor)) (finite : walked ≠ .error .endless) :
      Befalls env registry start outcome trial
        ((Walk.ofLine env.patience registry).mishaps env.toWalkEnv start trial.loop.state)
  | lookups {executor : F} {last : Invocation F} {after : σ}
      (walks : (Walk.ofLine env.patience registry).run env.toWalkEnv start trial.loop.state =
        (.ok (some executor), last, after))
      (fails : last.awaited.filterMap (failureOf outcome) ≠ []) :
      Befalls env registry start outcome trial
        ((last.awaited.filterMap (failureOf outcome)).map (Mishap.mk .lookup))
  | executor {exit : Exit Reply} (executed : Executed env registry start trial exit)
      (foreign : ∀ own, exit ≠ .ok (.result own)) :
      Befalls env registry start outcome trial (mishapsOfExit exit)

section Trials

variable {env : DispatchEnv F σ J} {registry : CommandRegistry F} {start : Invocation F}
  {outcome : Nat → Except Failure Value} {trial : Trial σ J}

/-- Where an approach is ready, its executor is run, and the dispatch is concluded behind
it. -/
theorem Dispatches.reaches_executor (dispatches : Dispatches env registry start outcome trial)
    {steps : Nat} {before rest : List (Happening σ J)} {executor : F} {ready : Invocation F}
    (history : (trial.after steps).history = before ++ rest)
    (goes : (approach env.toWalkEnv env.begin registry start).Ends before
      (.ready executor ready)) :
    ∃ next, ((env.execute executor ready).bind fun ended =>
        (conclude (resultOfExit ended.1) ended.2).bind next).Reaches rest
      (trial.after steps).left := by
  rcases dispatches.runs with ⟨next, body⟩
  have reached := Trial.reaches dispatches.sound steps
  rw [body, history, run] at reached
  have behind := goes.reaches_next (Activity.bind_assoc _ _ _ ▸ reached)
  exact ⟨next, Activity.bind_assoc _ _ _ ▸ behind⟩

/-- A dispatch ends with what its executor ended with. -/
theorem Finishes.comesTo (finishes : Finishes env registry start trial)
    (dispatches : Dispatches env registry start outcome trial) {exit : Exit Reply}
    (executed : Executed env registry start trial exit) :
    ∃ steps left, trial.ComesTo (run env registry start) steps (resultOfExit exit, left) := by
  rcases executed with ⟨steps, before, during, rest, executor, ready, left, history, goes, ends⟩
  rcases dispatches.reaches_executor history goes with ⟨next, reached⟩
  have concluding := ends.reaches_next reached
  have passes : (conclude (resultOfExit exit) left : Activity σ J _).WaitsFor trial.Passes :=
    conclude_waitsFor trivial _ _
  rw [← List.append_assoc] at history
  rcases Trial.completes dispatches.sound passes history concluding with
    ⟨later, last, answer, further, longer, concludes⟩
  have whole : (run env registry start).Ends ((before ++ during) ++ last) answer := by
    rw [run, List.append_assoc]
    exact goes.bind (ends.bind concludes)
  refine ⟨later, left, (before ++ during) ++ last, further, ?_, ?_⟩
  · rw [longer]
    simp
  · rw [conclude, Activity.ends_wait_seq_iff] at concludes
    rcases concludes with ⟨turn, tail, concludes, rfl⟩
    have answered := (Trial.faithful dispatches.sound later).answered .turn turn
      (by simp [longer])
    rcases answered with rfl | rfl
    · refine absurd ends (finishes.undisturbed later before during (tail ++ further) executor
        ready (exit, left) ?_ goes)
      rw [longer]
      simp
    · rw [Activity.ends_seq_iff] at concludes
      rcases concludes with ⟨_, _, _, -, concludes, -⟩
      cases ((Activity.ends_pure_iff _ _ _).1 concludes).2
      exact whole

/-- What befalls the executor ends the dispatch, unless it has a result of its executor's own. -/
theorem endIn_of_exit {exit : Exit Reply}
    (kept : ∀ interrupt, exit = .error interrupt → ∃ failure, interrupt = .failed failure)
    (foreign : ∀ own, exit ≠ .ok (.result own)) :
    Mishap.EndIn (mishapsOfExit exit) (resultOfExit exit) := by
  rcases exit with interrupt | reply
  · rcases kept interrupt rfl with ⟨failure, rfl⟩
    exact Mishap.endIn_halt ⟨.executor, failure⟩
  · cases reply with
    | nothing | feedback =>
        exact Mishap.endIn_nil rfl rfl
    | result own =>
        exact absurd rfl (foreign own)
    | other value =>
        exact Mishap.endIn_halt ⟨.executor, notAResult value⟩

/-- A walk that found no executor ends its dispatch. -/
theorem Dispatches.comesTo_of_walk (dispatches : Dispatches env registry start outcome trial)
    (nothing : start.awaited = []) {walked : Except Halt (Option F)} {last : Invocation F}
    {after : σ}
    (walks : (Walk.ofLine env.patience registry).run env.toWalkEnv start trial.loop.state =
      (walked, last, after))
    (ends : ∀ executor, walked ≠ .ok (some executor)) :
    ∃ steps exit left, trial.ComesTo (run env registry start) steps (exit, left) ∧
      (walked = .error .endless → exit = .error .endless) ∧
      (walked ≠ .error .endless →
        Mishap.EndIn
          ((Walk.ofLine env.patience registry).mishaps env.toWalkEnv start trial.loop.state)
          exit) := by
  have ending :=
    (Walk.ofLine_regular env.patience registry).ending env.toWalkEnv start trial.loop.state
  rcases dispatches.comesTo nothing walks with ⟨steps, during, rest, history, approaches⟩
  rw [walks] at ending
  dsimp only at ending
  generalize (Walk.ofLine env.patience registry).mishaps env.toWalkEnv start trial.loop.state = mishaps
    at ending ⊢
  cases ending with
  | arrives found =>
      cases found with
      | none =>
          exact ⟨steps, _, _, ⟨during, rest, history, run_ends_of_over approaches⟩, nofun,
            fun _ => Mishap.endIn_nil rfl rfl⟩
      | some executor =>
          exact absurd rfl (ends executor)
  | fails text | refuses text =>
      exact ⟨steps, _, _, ⟨during, rest, history, run_ends_of_over approaches⟩, nofun,
        fun _ => Mishap.endIn_nil rfl rfl⟩
  | raises mishap =>
      refine ⟨steps, _, _, ⟨during, rest, history, run_ends_of_over approaches⟩, ?_,
        fun _ => mishap.endIn_halt⟩
      intro same
      rw [Except.error.inj same]
      rfl
  | endless =>
      exact ⟨steps, _, _, ⟨during, rest, history, run_ends_of_over approaches⟩, fun _ => rfl,
        fun finite => absurd rfl finite⟩

/-- A dispatch ends with what befalls it. -/
theorem Befalls.comesTo {mishaps : List Mishap}
    (befalls : Befalls env registry start outcome trial mishaps)
    (dispatches : Dispatches env registry start outcome trial)
    (finishes : Finishes env registry start trial) (nothing : start.awaited = []) :
    ∃ steps exit left, trial.ComesTo (run env registry start) steps (exit, left) ∧
      Mishap.EndIn mishaps exit := by
  cases befalls with
  | walk walks ends finite =>
      rcases dispatches.comesTo_of_walk nothing walks ends with ⟨steps, exit, left, came, -, endIn⟩
      exact ⟨steps, exit, left, came, endIn finite⟩
  | lookups walks fails =>
      rcases dispatches.returns_failures nothing walks fails with ⟨steps, left, came⟩
      exact ⟨steps, _, left, came, Mishap.endIn_lookups fails⟩
  | executor executed foreign =>
      rcases finishes.comesTo dispatches executed with ⟨steps, left, came⟩
      refine ⟨steps, _, left, came, endIn_of_exit ?_ foreign⟩
      rintro interrupt rfl
      exact finishes.kept interrupt executed

/-- A dispatch whose walk comes to an end is befallen by something, perhaps by nothing bad, or
its executor answers with a result of its own. -/
theorem Dispatches.befalls (dispatches : Dispatches env registry start outcome trial)
    (finishes : Finishes env registry start trial) (nothing : start.awaited = [])
    (finite : ((Walk.ofLine env.patience registry).run env.toWalkEnv start trial.loop.state).1 ≠
      .error .endless) :
    (∃ mishaps, Befalls env registry start outcome trial mishaps) ∨
      ∃ own, Executed env registry start trial (.ok (.result own)) := by
  rcases walks : (Walk.ofLine env.patience registry).run env.toWalkEnv start trial.loop.state with
    ⟨walked, last, after⟩
  by_cases found : ∃ executor, walked = .ok (some executor)
  · rcases found with ⟨executor, rfl⟩
    by_cases fails : last.awaited.filterMap (failureOf outcome) = []
    · rcases dispatches.comesTo nothing walks with ⟨steps, before, rest, history, approaches⟩
      rw [foretell_of_none (begun trial.loop.tasks.length last) executor fails] at approaches
      rcases finishes.completes steps before rest executor _ history approaches with
        ⟨later, during, ⟨exit, left⟩, further, longer, ends⟩
      have executed : Executed env registry start trial exit :=
        ⟨later, before, during, further, executor, _, left, longer, approaches, ends⟩
      by_cases own : ∃ own, exit = .ok (.result own)
      · rcases own with ⟨own, rfl⟩
        exact .inr ⟨own, executed⟩
      · exact .inl ⟨_, .executor executed fun result same => own ⟨result, same⟩⟩
    · exact .inl ⟨_, .lookups walks fails⟩
  · rw [walks] at finite
    exact .inl ⟨_, .walk walks (fun executor same => found ⟨executor, same⟩) finite⟩

end Trials

end Dispatch

/-! ## A failure that can not be worded -/

namespace Bakery

def command : Node String :=
  .node
    { name := "bake", kind := .literal, lead := none, aliases := [], optional := false
      fallback := none, flags := [], assertions := [.custom "the oven is hot"]
      executor := some "bake", labels := [] }
    []

/-- Whoever asks what the matter is gets no answer. -/
def cold : Failure := .mute (.unexpected "No words")

def env : DispatchEnv String Unit (LookupJob String) where
  parser _ scan state := (.bare .null, scan.reader, state)
  assertion _ _ state := (.error cold, state)
  lacking := none
  execute _ invocation := .done (.ok .nothing, invocation)
  begin := id

def registry : CommandRegistry String :=
  ((CommandRegistry.new "?" false).register command).2

def start : Invocation String :=
  { Invocation.ofText "?bake" with message := none, origin := ⟨.null, none, none⟩ }

def body : Activity Unit (LookupJob String) (Exit Value) :=
  (Dispatch.run env registry start).bind fun _ => .done (.ok .null)

def trial : Trial Unit (LookupJob String) where
  run _ := .done (.ok .null)
  loop := { Loop.start () with tasks := [.ready (.ok .null) fun _ => body] }
  task := 0
  body := body

def outcome (_ : Nat) : Except Failure Value := .ok .null

theorem sound : trial.IsSound := by
  exact ((Loop.Coherent.start ()).begin body).coherent

/-- Nothing is ever cancelled. -/
theorem calm (steps : Nat) (on : Wait) :
    .waited on (.error .cancelled) ∉ (trial.after steps).history := by
  have rests : (trial.after 4).loop.step trial.run = none := by
    rw [← Option.isNone_iff_eq_none]
    decide +kernel
  have quiet : (trial.after 4).history.all Meeting.isCalm = true := by
    decide +kernel
  intro member
  have written := Trial.mem_history_of_rest sound rests member
  cases List.all_eq_true.1 quiet _ written

theorem walks : ∃ last, (Walk.ofLine env.patience registry).run env.toWalkEnv start () =
    (.error (.escaped (.unexpected "No words")), last, ()) := by
  exact ⟨_, rfl⟩

theorem dispatches : Dispatch.Dispatches env registry start outcome trial := by
  refine ⟨sound, ⟨_, rfl⟩, ?_, ?_⟩
  · intro steps during rest left on history _ member
    exact calm steps on (history ▸ List.mem_append_left _ member)
  · intro executor last after walked
    rcases walks with ⟨_, same⟩
    cases same.symm.trans walked

/-- No executor is ever run. -/
theorem never_ready {before : List (Happening Unit (LookupJob String))} {executor : String}
    {ready : Invocation String} :
    ¬ (Dispatch.approach env.toWalkEnv env.begin registry start).Ends before
      (.ready executor ready) := by
  intro approaches
  rcases Dispatch.approach_ends approaches with ⟨⟨⟩, _, _, _, _, _, walked, -⟩
  rcases walks with ⟨_, same⟩
  cases same.symm.trans walked

theorem finishes : Dispatch.Finishes env registry start trial where
  completes _ _ _ _ _ _ approaches := absurd approaches never_ready
  kept := by
    rintro interrupt ⟨_, _, _, _, _, _, _, -, approaches, -⟩
    exact absurd approaches never_ready
  undisturbed _ _ _ _ _ _ _ _ approaches := absurd approaches never_ready

end Bakery

end Steward
