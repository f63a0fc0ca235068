import Steward.Loop.Activity

/-!
# The loop

A loop runs tasks on a virtual clock.  It works in rounds: a round runs what was scheduled before it
began, in order, and what is scheduled meanwhile waits for the next round.  Timers that are due join
the end of a round.  The clock moves only when nothing can run, to the time of the next timer.
-/

namespace Steward

/-- What a blocked task waits for. -/
inductive Blocker where
  | timer (timer : TimerId)
  | task (task : TaskId)

inductive Status (σ J : Type) where
  /-- Scheduled to go on with an answer, or being performed. -/
  | ready (answer : Exit Value) (next : Exit Value → Activity σ J (Exit Value))
  | blocked (on : Blocker) (next : Exit Value → Activity σ J (Exit Value))
  /-- A promise that is not kept. -/
  | open
  | finished (exit : Exit Value)

/-- Something scheduled for a round. -/
inductive Item (J : Type) where
  | resume (task : TaskId)
  /-- End the sleep of a task. -/
  | wake (task : TaskId) (timer : TimerId)
  | run (job : J) (timer : TimerId)

structure Timer (J : Type) where
  time : Binary64
  item : Item J
  id : TimerId

structure Loop (σ J : Type) where
  state : σ
  now : Binary64
  tasks : List (Status σ J)
  /-- What is left of this round. -/
  round : List (Item J)
  /-- What the next round will run. -/
  scheduled : List (Item J)
  /-- By time, then in the order of setting. -/
  timers : List (Timer J)
  timersSet : Nat
  /-- Tasks that wait for another one, with that one, in the order of waiting. -/
  joins : List (TaskId × TaskId)

namespace Item

variable {J : Type}

def timer? : Item J → Option TimerId
  | .resume _ => none
  | .wake _ timer => some timer
  | .run _ timer => some timer

end Item

namespace Loop

variable {σ J : Type}

def start (state : σ) : Loop σ J := ⟨state, Binary64.zero false, [], [], [], [], 0, []⟩

def exit? (loop : Loop σ J) (task : TaskId) : Option (Exit Value) :=
  match loop.tasks[task]? with
  | some (.finished exit) => some exit
  | _ => none

def setStatus (loop : Loop σ J) (task : TaskId) (status : Status σ J) : Loop σ J :=
  { loop with tasks := loop.tasks.set task status }

def schedule (loop : Loop σ J) (item : Item J) : Loop σ J :=
  { loop with scheduled := loop.scheduled ++ [item] }

/-- Add a task that is scheduled to begin.  If it is cancelled before, it never begins. -/
def addTask (loop : Loop σ J) (body : Activity σ J (Exit Value)) : TaskId × Loop σ J :=
  let task := loop.tasks.length
  let begin : Exit Value → Activity σ J (Exit Value)
    | .ok _ => body
    | .error interrupt => .done (.error interrupt)
  let added := { loop with tasks := loop.tasks ++ [Status.ready (.ok .null) begin] }
  (task, added.schedule (.resume task))

def addPromise (loop : Loop σ J) : TaskId × Loop σ J :=
  (loop.tasks.length, { loop with tasks := loop.tasks ++ [Status.open] })

/-- Insert a timer behind those that are not later. -/
def insertTimer (timer : Timer J) : List (Timer J) → List (Timer J)
  | [] => [timer]
  | other :: rest =>
    if timer.time.less other.time then timer :: other :: rest else other :: insertTimer timer rest

def addTimer (loop : Loop σ J) (seconds : Binary64) (item : TimerId → Item J) :
    TimerId × Loop σ J :=
  let id := loop.timersSet
  (id, { loop with
    timersSet := id + 1
    timers := insertTimer ⟨loop.now + seconds, item id, id⟩ loop.timers })

def removeTimer (loop : Loop σ J) (timer : TimerId) : Loop σ J :=
  { loop with
    timers := loop.timers.filter (·.id != timer)
    round := loop.round.filter (·.timer? != some timer)
    scheduled := loop.scheduled.filter (·.timer? != some timer) }

/-- Let a blocked task go on with an answer. -/
def release (loop : Loop σ J) (task : TaskId) (answer : Exit Value) : Loop σ J :=
  match loop.tasks[task]? with
  | some (.blocked _ next) => (loop.setStatus task (.ready answer next)).schedule (.resume task)
  | _ => loop

/-- End a task and release those that wait for it, in the order of waiting. -/
def finish (loop : Loop σ J) (task : TaskId) (exit : Exit Value) : Loop σ J :=
  let waiting := loop.joins.filter (·.2 == task)
  let ended := { loop.setStatus task (.finished exit) with
    joins := loop.joins.filter (·.2 != task) }
  waiting.foldl (fun loop (waiter, _) => loop.release waiter exit) ended

/-- Cancel a task, or the task at the end of the chain of tasks that it waits for.  One that is
being performed finds out where it waits or ends.  `fuel` bounds the length of the chain. -/
def cancel (loop : Loop σ J) (task : TaskId) : Nat → Loop σ J
  | 0 => loop
  | fuel + 1 =>
    match loop.tasks[task]? with
    | some (.ready _ next) => loop.setStatus task (.ready (.error .cancelled) next)
    | some (.blocked (.timer timer) _) => (loop.removeTimer timer).release task (.error .cancelled)
    | some (.blocked (.task awaited) _) => loop.cancel awaited fuel
    | some .open => loop.finish task (.error .cancelled)
    | some (.finished _) => loop
    | none => loop

/-- A task is not cancelled, as far as it knows. -/
def rouse (loop : Loop σ J) (task : TaskId) (next : Exit Value → Activity σ J (Exit Value)) :
    Loop σ J :=
  loop.setStatus task (.ready (.ok .null) next)

/-- Let a task go on in the next round. -/
def yield (loop : Loop σ J) (task : TaskId) (next : Exit Value → Activity σ J (Exit Value)) :
    Loop σ J :=
  (loop.rouse task next).schedule (.resume task)

/-- Block a task until some time has passed. -/
def sleep (loop : Loop σ J) (task : TaskId) (seconds : Binary64)
    (next : Exit Value → Activity σ J (Exit Value)) : Loop σ J :=
  if seconds.atMost (Binary64.zero false) then loop.yield task next
  else
    let (timer, loop) := loop.addTimer seconds (.wake task)
    loop.setStatus task (.blocked (.timer timer) next)

/-- Block a task until another one has ended. -/
def join (loop : Loop σ J) (task awaited : TaskId)
    (next : Exit Value → Activity σ J (Exit Value)) : Loop σ J :=
  { loop.setStatus task (.blocked (.task awaited) next) with
    joins := loop.joins ++ [(task, awaited)] }

/-- Whether a task was cancelled while it is being performed. -/
def isInterrupted (loop : Loop σ J) (task : TaskId) : Bool :=
  match loop.tasks[task]? with
  | some (.ready (.error .cancelled) _) => true
  | _ => false

/-- What a task ends with that comes to an exit: it has no value if it was cancelled on the way. -/
def ending (loop : Loop σ J) (task : TaskId) : Exit Value → Exit Value
  | .ok value => if loop.isInterrupted task then .error .cancelled else .ok value
  | .error interrupt => .error interrupt

/-- Let a task that was cancelled on the way to its wait find out there. -/
def pass (loop : Loop σ J) (task : TaskId) (interrupted : Bool) : Loop σ J :=
  if interrupted then loop.cancel task (loop.tasks.length + 1) else loop

/-- Run a task from one wait to the next; `run` says what a job does. -/
def perform (run : J → Activity σ J (Exit Value)) (task : TaskId) :
    Loop σ J → Activity σ J (Exit Value) → Loop σ J
  | loop, .done exit => loop.finish task (loop.ending task exit)
  | loop, .get next => perform run task loop (next loop.state)
  | loop, .put state next => perform run task { loop with state := state } next
  | loop, .clock next => perform run task loop (next loop.now)
  | loop, .wait .turn next => (loop.yield task next).pass task (loop.isInterrupted task)
  | loop, .wait (.sleep seconds) next =>
    (loop.sleep task seconds next).pass task (loop.isInterrupted task)
  | loop, .wait (.task awaited) next =>
    match loop.exit? awaited with
    | some exit => perform run task loop (next exit)
    | none => (loop.join task awaited next).pass task (loop.isInterrupted task)
  | loop, .spawn job next =>
    let (spawned, loop) := loop.addTask (run job)
    perform run task loop (next spawned)
  | loop, .promise next =>
    let (promise, loop) := loop.addPromise
    perform run task loop (next promise)
  | loop, .settle promise exit next =>
    let loop := match loop.tasks[promise]? with
      | some .open => loop.finish promise exit
      | _ => loop
    perform run task loop next
  | loop, .cancel other next => perform run task (loop.cancel other (loop.tasks.length + 1)) next
  | loop, .later seconds job next =>
    let (timer, loop) := loop.addTimer seconds (.run job)
    perform run task loop (next timer)
  | loop, .withdraw timer next => perform run task (loop.removeTimer timer) next
  | loop, .peek other next => perform run task loop (next (loop.exit? other))

/-- Begin a task and run it to its first wait at once. -/
def launch (run : J → Activity σ J (Exit Value)) (loop : Loop σ J)
    (body : Activity σ J (Exit Value)) : TaskId × Loop σ J :=
  let task := loop.tasks.length
  let begun := { loop with tasks := loop.tasks ++ [Status.ready (.ok .null) fun _ => body] }
  (task, perform run task begun body)

def runItem (run : J → Activity σ J (Exit Value)) (loop : Loop σ J) : Item J → Loop σ J
  | .resume task =>
    match loop.tasks[task]? with
    | some (.ready answer next) => perform run task (loop.rouse task next) (next answer)
    | _ => loop
  | .wake task timer =>
    match loop.tasks[task]? with
    | some (.blocked (.timer own) _) => if own = timer then loop.release task (.ok .null) else loop
    | _ => loop
  | .run job _ => (loop.launch run (run job)).2

/-- The timers due at a time, and the others. -/
def dueAt (time : Binary64) (timers : List (Timer J)) : List (Timer J) × List (Timer J) :=
  (timers.takeWhile (·.time.atMost time), timers.dropWhile (·.time.atMost time))

/-- Whether nothing can run without moving the clock. -/
def isIdle (loop : Loop σ J) : Bool :=
  loop.round.isEmpty && loop.scheduled.isEmpty && (dueAt loop.now loop.timers).1.isEmpty

/-- Begin a round at a time. -/
def beginRound (loop : Loop σ J) (time : Binary64) : Loop σ J :=
  let (due, rest) := dueAt time loop.timers
  { loop with
    now := time
    timers := rest
    round := loop.scheduled ++ due.map (·.item)
    scheduled := [] }

/-- One step of the loop: run an item, or begin a round.  There is none when nothing is left. -/
def step (run : J → Activity σ J (Exit Value)) (loop : Loop σ J) : Option (Loop σ J) :=
  match loop.round with
  | item :: rest => some (runItem run { loop with round := rest } item)
  | [] =>
    if !loop.isIdle then some (loop.beginRound loop.now)
    else
      match loop.timers with
      | [] => none
      | timer :: _ => some (loop.beginRound timer.time)

/-- Run while something can run without moving the clock. -/
def drain (run : J → Activity σ J (Exit Value)) : Nat → Loop σ J → Loop σ J
  | 0, loop => loop
  | fuel + 1, loop =>
    if loop.isIdle then loop
    else
      match loop.step run with
      | some next => drain run fuel next
      | none => loop

/-- Run until a task has ended. -/
def runUntil (run : J → Activity σ J (Exit Value)) (task : TaskId) : Nat → Loop σ J → Loop σ J
  | 0, loop => loop
  | fuel + 1, loop =>
    if (loop.exit? task).isSome then loop
    else
      match loop.step run with
      | some next => runUntil run task fuel next
      | none => loop

end Loop

end Steward
