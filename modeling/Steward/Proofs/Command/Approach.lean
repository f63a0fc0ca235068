import Steward.Command.Dispatch

/-!
# The stages of an approach

An approach is the walk of the line, in one piece, and then what is left to wait for:
the lookups that were begun are awaited if there is an executor to run, and their
failures are put together.  The stages have names of their own here, so that each can
be followed by itself.
-/

namespace Steward.Dispatch

variable {F σ J : Type}

/-- Put the outcomes of the awaited lookups together: an executor runs if none of
them failed. -/
def judge (executor : F) (invocation : Invocation F) : Activity σ J (Approach F) :=
  match failures invocation with
  | [] => return .ready executor invocation
  | failed => do
    let outcome := .several (failed.map .ofParseFailure)
    let (result, invocation) ← conclude (.ok (.ofOutcome outcome)) invocation
    return .over result invocation

/-- Await what was read for an executor. -/
def gather (executor : F) (invocation : Invocation F) : Activity σ J (Approach F) := do
  match ← awaitPending invocation with
  | .error interrupt =>
    let (result, invocation) ← conclude (.error interrupt) invocation
    return .over result invocation
  | .ok invocation => judge executor invocation

/-- Go on from where the walk of a line ended, its lookups being begun. -/
def proceed (walked : Except Halt (Option F)) (invocation : Invocation F) :
    Activity σ J (Approach F) :=
  match walked with
  | .error halt => do
    cancelPending invocation
    return .over halt.exit invocation
  | .ok none => do
    cancelPending invocation
    return .over (.ok (.ofOutcome .noExecutor)) invocation
  | .ok (some executor) => do
    let invocation := { invocation with executed := true }
    match ← Activity.wait .turn .done with
    | .error interrupt =>
      cancelPending invocation
      return .over (.error interrupt) invocation
    | .ok _ => gather executor invocation

/-- Begin the lookups of a walk that has ended, and go on. -/
def launch (begin : LookupJob F → J) (walked : Except Halt (Option F))
    (invocation : Invocation F) : Activity σ J (Approach F) := do
  let tasks ←
    Scan.beginLookups begin invocation.origin invocation.reader invocation.scan.lookups []
  proceed walked { invocation with tasks := tasks }

/-- An approach walks the line in one piece, begins the lookups and goes on. -/
theorem approach_eq (env : WalkEnv F σ) (begin : LookupJob F → J) (registry : CommandRegistry F)
    (start : Invocation F) :
    approach env begin registry start =
      .get fun state =>
        match (Walk.ofLine env.patience registry).run env start state with
        | (walked, invocation, state) => .put state (launch begin walked invocation) := by
  rfl

/-! ## Nothing to wait for -/

/-- How an approach goes on from a walk that left nothing to wait for. -/
def arrive (result : Except Halt (Option F)) (last : Invocation F) :
    Activity σ J (Approach F) :=
  match result with
  | .error halt => .done (.over halt.exit last)
  | .ok none => .done (.over (.ok (.ofOutcome .noExecutor)) last)
  | .ok (some executor) =>
    .wait .turn fun
      | .error interrupt => .done (.over (.error interrupt) { last with executed := true })
      | .ok _ => .done (.ready executor { last with executed := true })

theorem cancelPending_of_nothing {invocation : Invocation F} (nothing : invocation.awaited = []) :
    (cancelPending invocation : Activity σ J Unit) = .done () := by
  rw [cancelPending, nothing]
  rfl

theorem gather_of_nothing (executor : F) {invocation : Invocation F}
    (nothing : invocation.awaited = []) :
    (gather executor invocation : Activity σ J (Approach F)) =
      .done (.ready executor invocation) := by
  have noFailures : failures invocation = [] := by
    rw [failures, nothing]
    rfl
  have awaits : (awaitPending invocation : Activity σ J _) = .done (.ok invocation) := by
    rw [awaitPending, nothing]
    rfl
  rw [gather, awaits]
  show judge executor invocation = _
  rw [judge, noFailures]
  rfl

theorem proceed_of_nothing (result : Except Halt (Option F)) {invocation : Invocation F}
    (nothing : invocation.awaited = []) :
    (proceed result invocation : Activity σ J (Approach F)) = arrive result invocation := by
  rcases result with halt | _ | executor
  · rw [proceed, cancelPending_of_nothing nothing]
    rfl
  · rw [proceed, cancelPending_of_nothing nothing]
    rfl
  · rw [proceed, arrive]
    apply congrArg (Activity.wait .turn)
    funext turn
    cases turn with
    | error interrupt =>
        have silent : (cancelPending { invocation with executed := true } : Activity σ J Unit) =
            .done () := cancelPending_of_nothing nothing
        show (cancelPending { invocation with executed := true } >>= fun _ => _) = _
        rw [silent]
        rfl
    | ok value =>
        exact gather_of_nothing executor nothing

theorem launch_of_nothing (begin : LookupJob F → J) (result : Except Halt (Option F))
    {last : Invocation F} (nothing : last.awaited = []) (noLookups : last.scan.lookups = []) :
    (launch begin result last : Activity σ J (Approach F)) =
      arrive result { last with tasks := [] } := by
  rw [launch, noLookups]
  exact proceed_of_nothing result nothing

end Steward.Dispatch
