import Steward.Event.Publishing
import Steward.Script.Basic

/-!
# Scripts of listeners

Listeners and observers of the event bus, described by documents.  A listener notes its call, may wait
and publish further events, changes subscriptions, and answers a value or fails.
-/

namespace Steward.Scripting

/-- Note the name of an event, and fail if the observer is to. -/
def observe : Observe Script Names := fun script event world =>
  match script with
  | .observer tag failure =>
    let world := note [.text "event", tag, .text event] world
    if failure.isNull then (.ok (), world) else (.error (.unexpected failure.shown), world)
  | _ => (.ok (), world)

/-- Whether a listener waits. -/
def waits (document : Value) : Bool := holds document "async" || (document.get? "sleep").isSome

/-- Subscribe the listener of a description to an event, under a name. -/
def subscribe (tag event : String) (document : Value) (world : Scene) :
    Except Failure Unit × Scene :=
  let delay := match document.getD "delay" with
    | .null => none
    | seconds => some (binaryOf seconds)
  let (outcome, listener, world) := World.subscribeNew observe event
    (.callback (.listener tag document)) (intAt document "priority" 0) delay world
  match outcome with
  | .ok _ =>
    let names := { world.host with listeners := world.host.listeners.insert tag listener }
    (.ok (), { world with host := names })
  | failed => (failed, world)

/-- Unsubscribe the listener of a name, if there is one. -/
def unsubscribe (tag : String) (world : Scene) : Scene :=
  match world.host.listeners.get? tag with
  | some listener => { world with bus := world.bus.remove listener.event listener.id }
  | none => world

/-- Change subscriptions, up to the first fault. -/
def changeSubscriptions : List Value → Scene → Except Failure Unit × Scene
  | [], world => (.ok (), world)
  | .list [.text "unsubscribe", .text tag] :: rest, world =>
    changeSubscriptions rest (unsubscribe tag world)
  | .list [.text "subscribe", .text tag, .text event, document] :: rest, world =>
    match subscribe tag event document world with
    | (.ok _, world) => changeSubscriptions rest world
    | failed => failed
  | _ :: rest, world => changeSubscriptions rest world

/-- Publish the events of a description, one after the other. -/
def publishEach (reach : Reach Script Names) : List Value → SceneCourse Unit
  | [] => return ()
  | .list (.text event :: arguments) :: rest => do
    let _ ← reach.publish (.new event arguments)
    publishEach reach rest
  | _ :: rest => publishEach reach rest

/-- Run a listener. -/
def listen (reach : Reach Script Names) (script : Script) (arguments : List Value) :
    SceneCourse Value := do
  match script with
  | .listener tag document =>
    Course.modify (note [.text "call", .text tag, .list arguments])
    if waits document then
      Course.sleep (binaryOf (document.getD "sleep"))
      publishEach reach (listAt document "publish")
      Course.modify (note [.text "done", .text tag])
    Course.atomically (changeSubscriptions (listAt document "do"))
    match document.getD "raise" with
    | .null => return document.getD "ret"
    | failure => Course.fail (.unexpected failure.shown)
  | .hearing extension event =>
    Course.modify (note [.text "event", .text extension, .text event, .list arguments])
    return .null
  | _ => return .null

end Steward.Scripting
