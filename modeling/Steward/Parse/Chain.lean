import Steward.Journal
import Steward.Loop.Activity

/-!
# Chained results

A result is settled from the start, or a task settles it later.  A step is chained onto a result by
applying a function to it once it is a success; a failure passes through.  What the function answers is
a value, another result, or work that has to be awaited, and the chained result ends as that does,
whether or not anything had to be waited for.
-/

namespace Steward

/-- What a result may have come to: a value, an error of reading, or an unexpected failure. -/
structure Settlement where
  value : Value
  error : Option ParseError
  uncaught : Option Failure
  deriving Repr

namespace Settlement

def success (value : Value) : Settlement := ⟨value, none, none⟩

/-- What a failure that is raised settles a result as. -/
def ofFailure : Failure → Settlement
  | .parse error => ⟨.null, some error, none⟩
  | failure => ⟨.null, none, some failure⟩

def failed (settlement : Settlement) : Bool :=
  settlement.error.isSome || settlement.uncaught.isSome

def outcome (settlement : Settlement) : Except Failure Value :=
  match settlement.error, settlement.uncaught with
  | some error, _ => .error (.parse error)
  | none, some failure => .error failure
  | none, none => .ok settlement.value

end Settlement

/-- A result of a chain: the task that settles it, if one does, and what it has come to, which is
nothing until it is completed. -/
structure Link extends Settlement where
  task : Option TaskId
  completed : Bool

namespace Link

/-- A result that is settled from the start. -/
def settled (settlement : Settlement) : Link := ⟨settlement, none, true⟩

/-- A result that a task settles. -/
def begun (task : TaskId) : Link := ⟨.success .null, some task, false⟩

/-- Whether the result is settled as a failure. -/
def failed (link : Link) : Bool := link.completed && link.toSettlement.failed

/-- Whether the result has still to be settled by a task. -/
def isPending (link : Link) : Bool := link.task.isSome && !link.completed

/-- How the result has come out, once it has. -/
def outcome (link : Link) : Option (Except Failure Value) :=
  if link.completed then some link.toSettlement.outcome else none

end Link

/-- All results of a chain, by number, and the journal. -/
structure Chain where
  links : List Link
  journal : List Entry

instance : Journaled Chain where
  enter entry chain := { chain with journal := entry :: chain.journal }

/-- What a function answers for a result. -/
inductive Onward (F : Type) where
  | value (value : Value)
  /-- Another result. -/
  | result (link : Nat)
  /-- Work that has to be awaited. -/
  | work (name : F)

/-- What a pending result waits for. -/
inductive ChainJob (F : Type) where
  /-- Await work and settle a result by it. -/
  | work (link : Nat) (name : F)
  /-- Apply a function to a result once it is settled, and settle another one by that. -/
  | chained (link base : Nat) (function : F)

/-- The result that a job settles. -/
def ChainJob.link {F : Type} : ChainJob F → Nat
  | .work link _ => link
  | .chained link _ _ => link

abbrev ChainedCourse (F α : Type) := Course Chain (ChainJob F) α

/-- What the names of a chain's callbacks stand for.  Awaiting work answers no further work. -/
structure ChainCallbacks (F : Type) where
  await : F → ChainedCourse F (Onward F)
  apply : F → Nat → ChainedCourse F (Onward F)

namespace Chain

variable {F : Type}

def empty : Chain := ⟨[], []⟩

def link (chain : Chain) (number : Nat) : Link :=
  chain.links.getD number (.settled (.success .null))

def add (link : Link) (chain : Chain) : Chain := { chain with links := chain.links ++ [link] }

def update (number : Nat) (change : Link → Link) (chain : Chain) : Chain :=
  { chain with links := chain.links.modify number change }

/-- A result that is settled from the start. -/
def settled (settlement : Settlement) : ChainedCourse F Nat :=
  Course.ofActivity (.atomically fun chain => (chain.links.length, chain.add (.settled settlement)))

/-- A result that a task settles. -/
def pending (job : Nat → ChainJob F) : ChainedCourse F Nat := do
  let number ← Course.read (·.links.length)
  let task ← Course.begin (job number)
  Course.modify (add (.begun task))
  return number

/-- Wait until a result is settled. -/
def wait (number : Nat) : ChainedCourse F Link := do
  let link ← Course.read (·.link number)
  match link.task, link.completed with
  | some task, false =>
    let _ ← Course.wait (.task task)
    Course.read (·.link number)
  | _, _ => return link

/-- Chain a function onto a result. -/
def use (callbacks : ChainCallbacks F) (base : Nat) (function : F) : ChainedCourse F Nat := do
  let link ← Course.read (·.link base)
  if link.isPending then pending fun number => .chained number base function
  else if link.failed then return base
  else
    match ← callbacks.apply function base with
    | .result number => return number
    | .work name => pending fun number => .work number name
    | .value value => settled (.success value)

/-- What an answer comes to that leaves no work to be awaited. -/
def comeTo : Onward F → ChainedCourse F Settlement
  | .value value => return .success value
  | .result number => do return (← wait number).toSettlement
  | .work _ => return .success .null

/-- What an answer comes to. -/
def resolve (callbacks : ChainCallbacks F) : Onward F → ChainedCourse F Settlement
  | .work name => do comeTo (← callbacks.await name)
  | answer => comeTo answer

/-- What a function makes of a result once it is settled; a failure passes through. -/
def chained (callbacks : ChainCallbacks F) (base : Nat) (function : F) :
    ChainedCourse F Settlement := do
  let link ← wait base
  if link.failed then return link.toSettlement
  else resolve callbacks (← callbacks.apply function base)

/-- What a pending result is settled as, unless something is raised meanwhile.  Work is awaited as it
is, and a function is applied in a coroutine. -/
def awaitJob (callbacks : ChainCallbacks F) : ChainJob F → ChainedCourse F Settlement
  | .work _ name => resolve callbacks (.work name)
  | .chained _ base function => (chained callbacks base function).enclosed

/-- Settle a result.  Nobody else comes between. -/
def settle (number : Nat) (settlement : Settlement) : Activity Chain (ChainJob F) Unit := do
  Activity.modify (update number fun link => { link with value := settlement.value })
  Activity.modify (update number fun link => { link with error := settlement.error })
  Activity.modify (update number fun link => { link with uncaught := settlement.uncaught })
  Activity.modify (update number fun link => { link with completed := true })

/-- End the task of a pending result: it settles the result in one step if it came to an end by
itself. -/
def conclude (number : Nat) : Exit Settlement → Activity Chain (ChainJob F) (Exit Value)
  | .ok settlement => do
    settle number settlement
    return .ok .null
  | .error (.failed failure) => do
    settle number (.ofFailure failure)
    return .ok .null
  | .error .cancelled => return .error .cancelled
  | .error .endless => return .error .endless

/-- What the task of a pending result does. -/
def runJob (callbacks : ChainCallbacks F) (job : ChainJob F) :
    Activity Chain (ChainJob F) (Exit Value) := do
  conclude job.link (← Course.attempt (awaitJob callbacks job))

/-- Cancel the task of a result that has not settled. -/
def cancel (number : Nat) : ChainedCourse F Unit := do
  match ← Course.read fun chain => (chain.link number).task with
  | none => return ()
  | some task => Course.cancel task

end Chain

end Steward
