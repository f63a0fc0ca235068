import Steward.Failure
import Steward.Value

/-!
# Activities

An activity is a program that shares a state with others and gives way to them only where it waits.
Between two waits it runs in one piece.  It can begin jobs, which are named by data and run on their
own, and promises, which are kept by others.

Activities are finite trees, so running one from one wait to the next ends by recursion on the tree.
-/

namespace Steward

/-- The number of a task or promise, in the order of creation. -/
abbrev TaskId := Nat

/-- The number of a timer, in the order of setting. -/
abbrev TimerId := Nat

/-- Why an activity ended without a value. -/
inductive Interrupt where
  | failed (failure : Failure)
  | cancelled
  /-- It goes on further than it was followed. -/
  | endless
  deriving Repr

/-- What leaves a coroutine that was interrupted. -/
def Interrupt.outside : Interrupt → Interrupt
  | .failed failure => .failed failure.outside
  | .cancelled => .cancelled
  | .endless => .endless

/-- How an activity ends. -/
abbrev Exit (α : Type) := Except Interrupt α

/-- What an activity waits for. -/
inductive Wait where
  /-- The next round of the loop. -/
  | turn
  | sleep (seconds : Binary64)
  | task (task : TaskId)

/-- A program over a state `σ` that can begin jobs of type `J`. -/
inductive Activity (σ J α : Type) where
  | done (result : α)
  | get (next : σ → Activity σ J α)
  | put (state : σ) (next : Activity σ J α)
  /-- Read the clock. -/
  | clock (next : Binary64 → Activity σ J α)
  /-- Give way; the answer is how the awaited task ended, or that this activity was cancelled. -/
  | wait (wait : Wait) (next : Exit Value → Activity σ J α)
  | spawn (job : J) (next : TaskId → Activity σ J α)
  /-- Make a promise that is not kept yet. -/
  | promise (next : TaskId → Activity σ J α)
  /-- Keep a promise, unless it was kept or cancelled before. -/
  | settle (task : TaskId) (exit : Exit Value) (next : Activity σ J α)
  | cancel (task : TaskId) (next : Activity σ J α)
  /-- Run a job when some time has passed. -/
  | later (seconds : Binary64) (job : J) (next : TimerId → Activity σ J α)
  /-- Take back a timer that has not fired. -/
  | withdraw (timer : TimerId) (next : Activity σ J α)
  /-- How a task has ended, if it has. -/
  | peek (task : TaskId) (next : Option (Exit Value) → Activity σ J α)

namespace Activity

variable {σ J α β : Type}

/-- Run one activity after another. -/
def bind : Activity σ J α → (α → Activity σ J β) → Activity σ J β
  | .done result, f => f result
  | .get next, f => .get fun state => (next state).bind f
  | .put state next, f => .put state (next.bind f)
  | .clock next, f => .clock fun time => (next time).bind f
  | .wait w next, f => .wait w fun exit => (next exit).bind f
  | .spawn job next, f => .spawn job fun task => (next task).bind f
  | .promise next, f => .promise fun task => (next task).bind f
  | .settle task exit next, f => .settle task exit (next.bind f)
  | .cancel task next, f => .cancel task (next.bind f)
  | .later seconds job next, f => .later seconds job fun timer => (next timer).bind f
  | .withdraw timer next, f => .withdraw timer (next.bind f)
  | .peek task next, f => .peek task fun exit => (next exit).bind f

instance : Monad (Activity σ J) where
  pure := .done
  bind := .bind

/-- Change the state in one piece. -/
def modify (f : σ → σ) : Activity σ J Unit := .get fun state => .put (f state) (.done ())

/-- Change the state in one piece and answer what came of it. -/
def atomically (f : σ → α × σ) : Activity σ J α :=
  .get fun state => let (result, state) := f state; .put state (.done result)

def read (f : σ → α) : Activity σ J α := .get fun state => .done (f state)

end Activity

/-- An activity that may be interrupted. -/
abbrev Course (σ J α : Type) := ExceptT Interrupt (Activity σ J) α

namespace Course

variable {σ J α : Type}

def ofActivity (activity : Activity σ J α) : Course σ J α := ExceptT.lift activity

def ofExit (exit : Exit α) : Course σ J α := ExceptT.mk (.done exit)

def fail (failure : Failure) : Course σ J α := throw (.failed failure)

def ofExcept (outcome : Except Failure α) : Course σ J α := ofExit (outcome.mapError .failed)

/-- How a process ended, as an ordinary result. -/
def attempt (process : Course σ J α) : Activity σ J (Exit α) := process.run

/-- Run a process in a coroutine of its own. -/
def enclosed (process : Course σ J α) : Course σ J α :=
  ExceptT.mk (process.run.bind fun exit => .done (exit.mapError Interrupt.outside))

/-- A change of the state in one piece that may fail. -/
def atomically (f : σ → Except Failure α × σ) : Course σ J α :=
  ExceptT.mk (.get fun state => let (result, state) := f state; .put state (.done (result.mapError .failed)))

def modify (f : σ → σ) : Course σ J Unit := ofActivity (.modify f)

def read (f : σ → α) : Course σ J α := ofActivity (.read f)

def clock : Course σ J Binary64 := ofActivity (.clock .done)

/-- Wait, and end where waiting ends without a value. -/
def wait (w : Wait) : Course σ J Value := ExceptT.mk (.wait w .done)

def turn : Course σ J Unit := do let _ ← wait .turn

def sleep (seconds : Binary64) : Course σ J Unit := do let _ ← wait (.sleep seconds)

def begin (job : J) : Course σ J TaskId := ofActivity (.spawn job .done)

def promise : Course σ J TaskId := ofActivity (.promise .done)

def settle (task : TaskId) (exit : Exit Value) : Course σ J Unit :=
  ofActivity (.settle task exit (.done ()))

def cancel (task : TaskId) : Course σ J Unit := ofActivity (.cancel task (.done ()))

def later (seconds : Binary64) (job : J) : Course σ J TimerId :=
  ofActivity (.later seconds job .done)

def withdraw (timer : TimerId) : Course σ J Unit := ofActivity (.withdraw timer (.done ()))

def peek (task : TaskId) : Course σ J (Option (Exit Value)) := ofActivity (.peek task .done)

/-- Run a process for each item in turn. -/
def forEach {α : Type} (items : List α) (f : α → Course σ J Unit) : Course σ J Unit :=
  match items with
  | [] => pure ()
  | item :: rest => do
    f item
    forEach rest f

end Course

end Steward
