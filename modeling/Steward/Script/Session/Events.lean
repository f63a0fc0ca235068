import Steward.App.Running
import Steward.Script.Listening

/-!
# Sessions with the event bus

Each step of a session subscribes, publishes or asks about the bus, and answers a value or fails.
-/

namespace Steward.Scripting

/-- How a publication ended. -/
def publicationValue (publication : Publication) : Value :=
  .map [("event", .text publication.event), ("args", .list publication.arguments),
    ("mutable", .bool publication.mutable), ("cancelled", .bool publication.cancelled)]

/-- The names of an event's listeners in order, null for an event that is not known.  A listener
whose name was given to another one has no name. -/
def listenerNames (event : String) (world : Scene) : Value :=
  (world.bus.listeners.get? event).elim .null fun listeners =>
    .list (listeners.map fun listener =>
      let own := world.host.listeners.entries.filter fun (_, named) => named.id = listener.id
      .list (own.map fun (name, _) => .text name))

/-- Publish an event and answer how that ended. -/
def publishNow (callbacks : Callbacks Script Names) (publication : Publication) :
    SceneCourse Value := do
  return publicationValue (← Running.publish callbacks publication)

/-- Publish an event and answer whether it was cancelled. -/
def emit (callbacks : Callbacks Script Names) (event : String) (arguments : List Value) :
    SceneCourse Value := do
  let publication ← Running.publish callbacks (.new event (arguments.map argumentOf))
  return .bool publication.cancelled

/-- A change of the world in one piece that answers nothing. -/
def change (f : Scene → Except Failure Unit × Scene) : SceneCourse Value := do
  Course.atomically f
  return .null

/-- A look at the world. -/
def ask (f : Scene → Value) : SceneCourse Value := Course.read f

/-- The description of a listener that waits in any case. -/
def waiting : Value → Value
  | .map entries => .map (("async", .bool true) :: entries.filter (·.1 != "async"))
  | other => other

def unknownStep : SceneCourse Value := Course.fail (.fault .wrongValue "not a step")

/-- Run a step of a session. -/
def eventStep (callbacks : Callbacks Script Names) : List Value → SceneCourse Value
  | [.text "subscribe", .text tag, .text event, document] => change (subscribe tag event document)
  | [.text "unsubscribe", .text tag] => change fun world => (.ok (), unsubscribe tag world)
  | .text "call" :: .text event :: arguments => publishNow callbacks (.new event arguments)
  | .text "call_mutable" :: .text event :: arguments =>
    publishNow callbacks { Publication.new event arguments with mutable := true }
  | [.text "publish", .text event, .list arguments, mutable, cancelled] =>
    publishNow callbacks ⟨event, arguments, mutable.isTruthy, cancelled.isTruthy⟩
  | [.text "has", .text event] => ask fun world => .bool (world.bus.hasListeners event)
  | .text "for_all" :: tag :: failure =>
    change (World.observeAll observe (.observer tag (failure.headD .null)))
  | [.text "spawn", .text tag, document] => do
    let listener := Target.callback (.listener tag (waiting document))
    let _ ← Course.begin (.background (.named tag) (.listen listener []))
    return .null
  | [.text "sleep", seconds] => do
    Course.sleep (binaryOf seconds)
    return .null
  | [.text "order", .text event] => ask (listenerNames event)
  | [.text "platform_event", .text name] => return .text (platformEvent name)
  | _ => unknownStep

end Steward.Scripting
