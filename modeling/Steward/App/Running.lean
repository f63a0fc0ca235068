import Steward.App.Stages

/-!
# Running a bot

What the targets of listeners, the errands and the jobs do.  Listeners and actions can publish events
and fire rules themselves, so running them is nested; the nesting is bounded.
-/

namespace Steward

namespace Running

variable {F H : Type}

/-- How deep publications and firings may lie in each other. -/
def nestingLimit : Nat := 200

def tooDeep : Failure := .fault .tooDeep "publications and firings are nested too deep"

/-- Call what a listener does. -/
def call (callbacks : Callbacks F H) (reach : Reach F H) (target : Target F) (arguments : List Value) :
    WorldCourse F H Value :=
  let change (f : World F H → Except Failure Unit × World F H) : WorldCourse F H Value := do
    Course.atomically f
    return .null
  match target, arguments with
  | .callback name, arguments => callbacks.listen reach name arguments
  | .fireRules book event, arguments => do
    Firing.fireAttached callbacks reach book event arguments
    return .null
  | .savePermissions, [data] => change (World.savePermissions data)
  | .saveRules, [data] => change (World.saveRuleBook data)
  | .followMember, [_, after] => change (World.followMember after)
  | .runCommand, [.message message] => do
    CommandDesk.receive callbacks message
    return .null
  | .runCommand, [_] => Course.fail World.noAttribute
  | _, _ => Course.fail Standard.wrongCount

/-- What can be reached at a depth of nesting. -/
def reachAt (callbacks : Callbacks F H) : Nat → Reach F H
  | 0 => ⟨fun _ => Course.fail tooDeep, fun _ _ => Course.fail tooDeep⟩
  | depth + 1 =>
    let inner := reachAt callbacks depth
    ⟨Publication.publish (call callbacks inner), Firing.fireRule callbacks inner⟩

def reach (callbacks : Callbacks F H) : Reach F H := reachAt callbacks nestingLimit

/-- Publish an event. -/
def publish (callbacks : Callbacks F H) (publication : Publication) : WorldCourse F H Publication :=
  (reach callbacks).publish publication

/-- Ask everyone to save. -/
def save (callbacks : Callbacks F H) (reason : Value) : WorldCourse F H Unit := do
  let _ ← publish callbacks (.new saveDataEvent [.map [("reason", reason)]])

/-- Take note that the client is ready. -/
def ready (callbacks : Callbacks F H) : WorldCourse F H (List StageResult) := do
  Course.modify (enter (.log .info .client "Logged in as None"))
  Course.ofActivity (.atomically (World.runStage callbacks .ready))

/-- Load the application and begin to save from time to time. -/
def setUp (callbacks : Callbacks F H) : WorldCourse F H Unit := do
  let results ← Course.ofActivity (.atomically (World.loadAll callbacks))
  let failed := results.filter (·.failure.isSome)
  if failed.isEmpty then pure ()
  else
    let names := ", ".intercalate (failed.map (·.extension))
    Course.modify
      (enter (.log .error .client s!"{failed.length} components failed to load: {names}"))
  let series ← Course.read (·.app.autosaveSeries)
  let task ← Course.begin (.autosave series)
  Course.modify (World.onApp fun app =>
    { app with autosave := some (series, task), autosaveSeries := series + 1 })

/-- Stop saving from time to time, and save once more. -/
def shutDown (callbacks : Callbacks F H) : WorldCourse F H Unit := do
  match ← Course.read (·.app.autosave) with
  | none => return ()
  | some (_, task) =>
    Course.cancel task
    Course.modify (World.onApp fun app => { app with autosave := none })
    save callbacks (.text "shutdown")

/-- Pass an event of the client on to the bus, if anyone listens. -/
def pass (event : String) (arguments : List Value) : WorldCourse F H Unit := do
  if event == "ready" && arguments.isEmpty then
    let _ ← Course.begin (.errand .ready)
  let name := platformEvent event
  if ← Course.read fun world => world.bus.hasListeners name then
    let _ ← Course.begin (.background (.publication name) (.publish name arguments))

/-- Keep a promise when a task ends: at once if it fails, and else if the other tasks have ended. -/
def report (task : TaskId) (others : List TaskId) (promise : TaskId) : WorldCourse F H Unit := do
  match ← Course.ofActivity (Course.attempt (Course.wait (.task task))) with
  | .error interrupt => Course.settle promise (.error interrupt)
  | .ok _ =>
    let ends ← others.mapM Course.peek
    if ends.all Option.isSome then Course.settle promise (.ok .null)

/-- Run an errand. -/
def runErrand (callbacks : Callbacks F H) : Errand F → WorldCourse F H Value
  | .publish event arguments => do
    let _ ← publish callbacks (.new event arguments)
    return .null
  | .listen target arguments => call callbacks (reach callbacks) target arguments
  | .trigger rule arguments => do
    let ran ← (reach callbacks).trigger rule arguments
    return .bool ran
  | .confirm book channel asked warning timeout =>
    Prompt.run callbacks.told book channel asked warning timeout
  | .report task others promise => do
    report task others promise
    return .null
  | .ready => do
    let _ ← ready callbacks
    return .null

/-- Whether a listener goes on after it was called. -/
def goesOn (callbacks : Callbacks F H) : Target F → Bool
  | .callback name => callbacks.goesOn name
  | .fireRules .. | .runCommand => true
  | .savePermissions | .saveRules | .followMember => false

/-- Save once when the time has come, and begin to wait for the next time. -/
def autosave (callbacks : Callbacks F H) (series : Nat) : WorldCourse F H Value := do
  let settings ← Course.read (·.app.settings)
  Course.sleep settings.autosaveInterval.toBinary64
  match ← Course.ofActivity (Course.attempt (save callbacks (.text autosaveReason))) with
  | .error .cancelled => throw .cancelled
  | .error .endless => throw .endless
  | .error (.failed failure) =>
    Course.modify (enter (.logAttached .error .client "Autosave failed" failure))
  | .ok _ => pure ()
  let task ← Course.begin (.autosave series)
  Course.modify (World.onApp fun app =>
    if app.autosave.map Prod.fst = some series then { app with autosave := some (series, task) }
    else app)
  return .null

/-- The record of the failure of a background task. -/
def backgroundRecord (label : TaskLabel) (failure : Failure) : Entry :=
  .record ⟨.error, .events, [.text "Background task ", .task label, .text " failed"], some failure⟩

/-- Run an errand in the background: a failure is logged in the next round. -/
def runBackground (label : TaskLabel) (errand : WorldCourse F H Value) : WorldCourse F H Value := do
  match ← Course.ofActivity (Course.attempt errand) with
  | .error (.failed failure) =>
    Course.turn
    Course.modify (enter (backgroundRecord label failure))
    Course.fail failure
  | exit => Course.ofExit exit

/-- Call a delayed listener: one that goes on becomes a task, the failure of any other one escapes. -/
def runDelayed (callbacks : Callbacks F H) (event : String) (target : Target F)
    (arguments : List Value) : WorldCourse F H Value := do
  if goesOn callbacks target then
    let _ ← Course.begin (.background (.delayed event) (.listen target arguments))
    return .null
  else
    match ← Course.ofActivity
        (Course.attempt (call callbacks (reach callbacks) target arguments)) with
    | .error (.failed failure) =>
      Course.modify (enter (.escaped failure))
      return .null
    | exit => Course.ofExit exit

/-- What a job does. -/
def runJob (callbacks : Callbacks F H) (job : Job F) : Activity (World F H) (Job F) (Exit Value) :=
  Course.attempt <|
    match job with
    | .lookup job => LookupJob.run callbacks.lookup job
    | .errand errand => runErrand callbacks errand
    | .background label errand => runBackground label (runErrand callbacks errand)
    | .delayed event target arguments => runDelayed callbacks event target arguments
    | .expire rule promise => do
      Prompt.expire callbacks.told rule promise
      return .null
    | .autosave series => autosave callbacks series

end Running

end Steward
