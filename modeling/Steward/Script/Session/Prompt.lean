import Steward.App.Running
import Steward.Script.Session.Rules

/-!
# Sessions with a prompt

A session asks a member for a confirmation and then goes through a timeline: at each time an event is
published, the waiting is cancelled or the prompt's rule is destroyed.
-/

namespace Steward.Scripting

/-- The time that a prompt waits by default. -/
def standardTimeout : Binary64 := Binary64.ofNat 10

/-- Begin a prompt with the standard components in a new book, and answer its task. -/
def openPrompt (document : Value) : SceneCourse TaskId := do
  let book ← Course.ofActivity (.atomically (World.onRules (·.openBook none)))
  Course.atomically fun world => World.registerStandard observe book world
  Course.atomically fun world => World.connect observe book world
  Course.modify fun world => { world with host := { world.host with book := book } }
  let channel := channelOf <| .map [("send_id", (document.get? "message_id").getD (.int 900)),
    ("behave", document.getD "behave")]
  let timeout := (document.get? "timeout").elim standardTimeout binaryOf
  Course.begin (.errand (.confirm book channel (memberOf (document.getD "member"))
    (textAt document "warning" "") timeout))

/-- Do what a timeline says for a time. -/
def promptEvent (callbacks : Callbacks Script Names) (task : TaskId) : List Value → SceneCourse Unit
  | [.text "cancel"] => Course.cancel task
  | [.text "destroy", key] => do
    let removed ← Course.atomically fun world =>
      let (found, announced, rules) := world.rules.remove (bookOf world) key
      (found, World.tellTriggers told announced { world with rules := rules })
    Course.modify (note [.text "removed", .bool removed])
  | .text event :: arguments => do
    let _ ← Running.publish callbacks (.new event (arguments.map argumentOf))
  | _ => return ()

/-- Wait for a time and do what the timeline says for it. -/
def promptStep (callbacks : Callbacks Script Names) (task : TaskId) : Value → SceneCourse Value
  | .list (time :: event) => do
    Course.sleep (binaryOf time - (← Course.clock))
    promptEvent callbacks task event
    return .null
  | _ => unknownStep

/-- The ids of the rules that are registered. -/
def ruleIds (world : Scene) : Value :=
  .list ((world.rules.book (bookOf world)).rules.keys.map .int)

/-- How many rules listen to reactions. -/
def reactionListeners (world : Scene) : Nat :=
  match world.rules.component? Standard.reactionTrigger with
  | some (.eventTrigger _ _ _ rules) => rules.length
  | _ => 0

end Steward.Scripting
