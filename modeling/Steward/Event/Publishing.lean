import Steward.World

/-!
# Subscribing and publishing

A subscription to an event that is new tells the observers its name first.  A publication goes to the
listeners that were subscribed when it began, one after the other; each may wait before the next is
called.  A listener that answers a truth value decides whether the event counts as cancelled.  A
delayed listener is called later and decides nothing.
-/

namespace Steward

namespace World

variable {F H : Type}

/-- Tell observers the name of an event, in order, up to the first that fails. -/
def tellObservers (observe : Observe F H) (event : String) :
    List F → World F H → Except Failure Unit × World F H
  | [], world => (.ok (), world)
  | observer :: rest, world =>
    match observe observer event world with
    | (.ok _, world) => tellObservers observe event rest world
    | failed => failed

/-- Subscribe a listener to its event. -/
def subscribe (observe : Observe F H) (listener : Listener (Target F)) (world : World F H) :
    Except Failure Unit × World F H :=
  let add (world : World F H) : World F H := { world with bus := world.bus.add listener }
  if world.bus.knows listener.event then (.ok (), add world)
  else
    let declared := { world with bus := world.bus.declare listener.event }
    match tellObservers observe listener.event world.bus.observers declared with
    | (.ok _, world) => (.ok (), add world)
    | failed => failed

/-- Make a listener and subscribe it. -/
def subscribeNew (observe : Observe F H) (event : String) (target : Target F) (priority : Int)
    (delay : Option Binary64) (world : World F H) :
    Except Failure Unit × Listener (Target F) × World F H :=
  let (listener, bus) := world.bus.newListener event target priority delay
  let (outcome, world) := subscribe observe listener { world with bus := bus }
  (outcome, listener, world)

/-- Tell an observer the names of some events, up to the first at which it fails. -/
def tellEvents (observe : Observe F H) (observer : F) :
    List String → World F H → Except Failure Unit × World F H
  | [], world => (.ok (), world)
  | event :: rest, world =>
    match observe observer event world with
    | (.ok _, world) => tellEvents observe observer rest world
    | failed => failed

/-- Add an observer; it is told the names of all events, those that are known at once. -/
def observeAll (observe : Observe F H) (observer : F) (world : World F H) :
    Except Failure Unit × World F H :=
  let bus := { world.bus with observers := world.bus.observers ++ [observer] }
  tellEvents observe observer bus.listeners.keys { world with bus := bus }

end World

namespace Publication

variable {F H : Type}

/-- A publication that nobody has cancelled. -/
def new (event : String) (arguments : List Value) : Publication := ⟨event, arguments, false, false⟩

/-- What a listener's answer makes of a publication. -/
def afterAnswer (publication : Publication) : Value → Publication
  | .bool cancelled => { publication with cancelled := cancelled }
  | _ => publication

/-- Let one listener handle a publication; `call` calls what it does, in a coroutine unless that is
put off. -/
def handOver (call : Target F → List Value → WorldCourse F H Value) (listener : Listener (Target F))
    (publication : Publication) : WorldCourse F H Publication :=
  match listener.delay with
  | some seconds => do
    let _ ← Course.later seconds (.delayed listener.event listener.target publication.arguments)
    return publication
  | none => do
    let answer ← (call listener.target publication.arguments).enclosed
    return publication.afterAnswer answer

/-- Let listeners handle a publication one after the other. -/
def handOverToAll (call : Target F → List Value → WorldCourse F H Value) :
    List (Listener (Target F)) → Publication → WorldCourse F H Publication
  | [], publication => return publication
  | listener :: rest, publication => do
    let publication ← handOver call listener publication
    handOverToAll call rest publication

/-- Publish to the listeners that are subscribed now. -/
def publish (call : Target F → List Value → WorldCourse F H Value) (publication : Publication) :
    WorldCourse F H Publication := do
  let listeners ← Course.read fun world => world.bus.listenersOf publication.event
  handOverToAll call listeners publication

end Publication

end Steward
