import Steward.OrderedMap
import Steward.Value

/-!
# The event bus

Listeners subscribe to events by name and are kept by priority, the lower first, and in the order of
subscription among equals.  Observers are told of every event name when it first occurs.  The bus
knows what listeners do only as a target of type `L`, and observers as a name of type `O`.
-/

namespace Steward

/-- The bus's name for an event of the platform. -/
def platformEvent (name : String) : String := "@discord." ++ name

/-- The event that asks everyone to save. -/
def saveDataEvent : String := "saveData"

structure Listener (L : Type) where
  id : Nat
  event : String
  target : L
  priority : Int
  /-- The seconds by which the call is delayed, if it is. -/
  delay : Option Binary64
  deriving DecidableEq, Repr

structure Bus (L O : Type) where
  listeners : OrderedMap String (List (Listener L))
  observers : List O
  nextListener : Nat

namespace Bus

variable {L O : Type}

def empty : Bus L O := ⟨.empty, [], 0⟩

/-- Insert a listener behind those whose priority is not higher. -/
def place (listener : Listener L) : List (Listener L) → List (Listener L)
  | [] => [listener]
  | other :: rest =>
    if listener.priority < other.priority then listener :: other :: rest
    else other :: place listener rest

def listenersOf (bus : Bus L O) (event : String) : List (Listener L) :=
  (bus.listeners.get? event).getD []

def knows (bus : Bus L O) (event : String) : Bool := bus.listeners.contains event

def hasListeners (bus : Bus L O) (event : String) : Bool := !(bus.listenersOf event).isEmpty

/-- Make an event name known. -/
def declare (bus : Bus L O) (event : String) : Bus L O :=
  { bus with listeners := bus.listeners.insertNew event [] }

/-- Make a listener that is not subscribed yet. -/
def newListener (bus : Bus L O) (event : String) (target : L) (priority : Int)
    (delay : Option Binary64) : Listener L × Bus L O :=
  (⟨bus.nextListener, event, target, priority, delay⟩, { bus with nextListener := bus.nextListener + 1 })

/-- Subscribe a listener to its event. -/
def add (bus : Bus L O) (listener : Listener L) : Bus L O :=
  { bus with
    listeners := bus.listeners.insert listener.event (place listener (bus.listenersOf listener.event)) }

/-- Unsubscribe the listener of a number from an event, if it is subscribed. -/
def remove (bus : Bus L O) (event : String) (id : Nat) : Bus L O :=
  match bus.listeners.get? event with
  | none => bus
  | some listeners =>
    { bus with listeners := bus.listeners.insert event (listeners.filter (·.id != id)) }

end Bus

end Steward
