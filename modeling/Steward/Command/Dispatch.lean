import Steward.Command.Traversal
import Steward.Parse.Lookup
import Steward.Parse.Writing

/-!
# Dispatching a line

A dispatch walks the command tree, awaits the lookups that its arguments and flags depend on, and
runs the executor that the walk arrived at.  Whatever happens on the way becomes a result.  When a
dispatch is over, the lookups that it recorded and that have not ended are cancelled.
-/

namespace Steward

/-- How what was cut short ends a dispatch. -/
def Halt.exit : Halt → Exit CommandResult
  | .reported outcome => .ok (.ofOutcome outcome)
  | .escaped failure => .error (.failed failure)
  | .endless => .error .endless

/-- What an executor answers. -/
inductive Reply where
  | nothing
  | feedback (feedback : Feedback)
  | result (result : CommandResult)
  /-- A value that is no result. -/
  | other (value : Value)

/-- What dispatching depends on: the callbacks of the walk, the executors, and the jobs that lookups
are. -/
structure DispatchEnv (F σ J : Type) extends WalkEnv F σ where
  execute : F → Invocation F → Activity σ J (Exit Reply × Invocation F)
  begin : LookupJob F → J

/-- How far a dispatch came before any executor. -/
inductive Approach (F : Type) where
  /-- It has ended with a result. -/
  | over (result : Exit CommandResult) (invocation : Invocation F)
  /-- An executor is to run. -/
  | ready (executor : F) (invocation : Invocation F)

namespace Dispatch

variable {F σ J : Type}

/-- The result of an executor's answer. -/
def resultOfReply : Reply → CommandResult
  | .nothing => .ofOutcome (.success none)
  | .feedback feedback => .ofOutcome (.success (some feedback))
  | .result result => result
  | .other value =>
    let failure : Failure :=
      .fault .wrongType ("Executor returned " ++ value.kindName ++ ", not a CommandResult")
    .ofOutcome (.unexpected failure ("Error in executor: `" ++ failure.message ++ "`"))

/-- Await some lookups and record how they ended. -/
def awaitEach : List Nat → Invocation F → Activity σ J (Exit (Invocation F))
  | [], invocation => return .ok invocation
  | lookup :: rest, invocation => do
    match ← Activity.wait (.task (invocation.tasks.getD lookup 0)) .done with
    | .ok value =>
      awaitEach rest { invocation with outcomes := invocation.outcomes.insert lookup (.ok value) }
    | .error (.failed failure) =>
      awaitEach rest { invocation with outcomes := invocation.outcomes.insert lookup (.error failure) }
    | .error .cancelled => return .error .cancelled
    | .error .endless => return .error .endless

/-- The failures among the awaited lookups, in the order of reading. -/
def failures (invocation : Invocation F) : List Failure :=
  invocation.awaited.filterMap fun lookup =>
    match invocation.outcomes.get? lookup with
    | some (.error failure) => some failure
    | _ => none

/-- Await all recorded lookups together.  Joining them takes a round of the loop before and two
after. -/
def awaitPending (invocation : Invocation F) : Activity σ J (Exit (Invocation F)) :=
  if invocation.awaited.isEmpty then return .ok invocation
  else do
    match ← Activity.wait .turn .done with
    | .error interrupt => return .error interrupt
    | .ok _ =>
      match ← awaitEach invocation.awaited invocation with
      | .error interrupt => return .error interrupt
      | .ok invocation =>
        match ← Activity.wait .turn .done with
        | .error interrupt => return .error interrupt
        | .ok _ =>
          match ← Activity.wait .turn .done with
          | .error interrupt => return .error interrupt
          | .ok _ => return .ok invocation

/-- The result of how an executor ended. -/
def resultOfExit : Exit Reply → Exit CommandResult
  | .ok reply => .ok (resultOfReply reply)
  | .error (.failed failure) => (Halt.ofExecutor failure).exit
  | .error .cancelled => .error .cancelled
  | .error .endless => .error .endless

/-- Cancel the recorded lookups; those that have ended stay as they are. -/
def cancelPending (invocation : Invocation F) : Activity σ J Unit :=
  go invocation.awaited
where
  go : List Nat → Activity σ J Unit
    | [] => return ()
    | lookup :: rest => do
      Activity.cancel (invocation.tasks.getD lookup 0) (.done ())
      go rest

/-- Leave the stage of execution with a result: its task is joined in the next round, and lookups that
have not ended are cancelled. -/
def conclude (result : Exit CommandResult) (invocation : Invocation F) :
    Activity σ J (Exit CommandResult × Invocation F) := do
  match ← Activity.wait .turn .done with
  | .error interrupt =>
    cancelPending invocation
    return (.error interrupt, invocation)
  | .ok _ =>
    cancelPending invocation
    return (result, invocation)

/-- Go as far as the executor: walk the tree, begin the lookups and, if the walk arrived at an executor,
await what was read.  The stage of execution is a task of its own, which takes a round of the loop to
begin. -/
def approach (env : WalkEnv F σ) (begin : LookupJob F → J) (registry : CommandRegistry F)
    (invocation : Invocation F) : Activity σ J (Approach F) := do
  let (walked, invocation) ← Activity.atomically fun state =>
    let (walked, invocation, state) := (Walk.ofLine env.patience registry).run env invocation state
    ((walked, invocation), state)
  let tasks ← Scan.beginLookups begin invocation.origin invocation.reader invocation.scan.lookups []
  let invocation := { invocation with tasks := tasks }
  match walked with
  | .error halt =>
    cancelPending invocation
    return .over halt.exit invocation
  | .ok none =>
    cancelPending invocation
    return .over (.ok (.ofOutcome .noExecutor)) invocation
  | .ok (some executor) =>
    let invocation := { invocation with executed := true }
    match ← Activity.wait .turn .done with
    | .error interrupt =>
      cancelPending invocation
      return .over (.error interrupt) invocation
    | .ok _ =>
      match ← awaitPending invocation with
      | .error interrupt =>
        let (result, invocation) ← conclude (.error interrupt) invocation
        return .over result invocation
      | .ok invocation =>
        match failures invocation with
        | [] => return .ready executor invocation
        | failed =>
          let outcome := .several (failed.map .ofParseFailure)
          let (result, invocation) ← conclude (.ok (.ofOutcome outcome)) invocation
          return .over result invocation

/-- Dispatch a line. -/
def run (env : DispatchEnv F σ J) (registry : CommandRegistry F) (invocation : Invocation F) :
    Activity σ J (Exit CommandResult × Invocation F) := do
  match ← approach env.toWalkEnv env.begin registry invocation with
  | .over result invocation => return (result, invocation)
  | .ready executor invocation =>
    let (exit, invocation) ← env.execute executor invocation
    conclude (resultOfExit exit) invocation

variable [Journaled σ]

def enterAll : List Entry → Activity σ J Unit
  | [] => return ()
  | entry :: rest => do
    Activity.modify (enter entry)
    enterAll rest

/-- The record of a command's use. -/
def useRecord (message : Message) (label : String) (elapsed : Binary64) : Entry :=
  let milliseconds := (elapsed * Binary64.ofNat 1000).truncate?.getD 0
  .log .info .dispatcher
    (message.author.name ++ " ran command " ++ label ++ " in " ++ Writing.elapsed milliseconds)

/-- Dispatch a message if it is addressed to the bot: trace what is unexpected about the result and
log the command's use. -/
def handleMessage (env : DispatchEnv F σ J) (registry : CommandRegistry F) (message : Message)
    (client : Option Client) : Activity σ J (Exit (Option CommandResult) × Invocation F) := do
  let nothing := Invocation.ofText ""
  if !registry.isAddressedBy (message.content.getD "") then return (.ok none, nothing)
  else
  match Invocation.ofMessage message client with
  | .error failure => return (.error (.failed failure), nothing)
  | .ok invocation =>
    let begun ← Activity.clock .done
    match ← run env registry invocation with
    | (.error interrupt, invocation) => return (.error interrupt, invocation)
    | (.ok result, invocation) =>
      let traced := result.unwrap.filter (·.outcome.isTraced)
      enterAll (traced.flatMap (CommandResult.traces invocation.commandLabel))
      match invocation.commandLabel with
      | some label =>
        if registry.logsUse then
          let ended ← Activity.clock .done
          Activity.modify (enter (useRecord message label (ended - begun)))
        else pure ()
      | none => pure ()
      return (.ok (some result), invocation)

end Dispatch

end Steward
