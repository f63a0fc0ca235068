import Steward.Rule.Firing

/-!
# Confirmation prompts

A prompt is a warning with two reactions to choose from.  A rule that fires once waits for the asked
member to choose one of them on that message; a timer ends the waiting.  However the waiting ends, the
timer is taken back and the rule destroyed.
-/

namespace Steward

namespace Prompt

variable {F H : Type}

def warningColor : Nat := 0xffcc4d

/-- How a prompt was answered. -/
def timedOut : String := "timed_out"

/-- Build the rule that waits for the answer to a prompt. -/
def buildRule (book : Nat) (message asked : Int) (promise : TaskId) (store : RuleStore F) :
    Nat × RuleStore F :=
  let (rule, store) := store.build book
  let (isMessage, store) :=
    store.addComponent (.paramCondition "isMessage" .messageIs [("id", .int message)])
  let (isUser, store) := store.addComponent (.paramCondition "isUser" .userIs [("id", .int asked)])
  let (isAnswer, store) := store.addComponent (.condition none .isAnswer)
  let (answer, store) := store.addComponent (.action none (.answer promise))
  (rule, store.updateRule rule fun r =>
    { r with
      lifetime := some .once
      trigger := some Standard.reactionTrigger
      conditions := [some isMessage, some isUser, some isAnswer]
      actions := [some answer] })

/-- Send the prompt with its two reactions; the answer is the message. -/
def send (channel : Channel) (warning : String) (world : World F H) : Int × World F H :=
  let message := channel.nextMessage
  let request (request : Request) (world : World F H) : World F H := enter (.request request) world
  let world := request (.sendEmbed channel.id ("`⚠` " ++ warning, warningColor)) world
  let world := request (.addReaction message (.text Standard.confirmEmoji)) world
  (message, request (.addReaction message (.text Standard.denyEmoji)) world)

/-- Take the reactions off the prompt. -/
def clear (channel : Channel) (message : Int) (world : World F H) : Except Failure Unit × World F H :=
  let world := enter (.request (.clearReactions message)) world
  match channel.clearing with
  | .done => (.ok (), world)
  | .forbidden =>
    let text := s!"Could not clear reactions of confirmation {message}: "
    let piece := Piece.failure (.fault .forbidden "Missing Permissions")
    (.ok (), enter (.record ⟨.warning, .prompts, [.text text, piece], none⟩) world)
  | .failing => (.error (.unexpected "clear failed"), world)

/-- End the waiting because the time is over. -/
def expire (told : Told F H) (rule : Nat) (promise : TaskId) : WorldCourse F H Unit := do
  Course.atomically (World.change told (·.destroy rule))
  Course.settle promise (.ok (.text timedOut))

/-- Ask a member to confirm; the answer is how the prompt was answered. -/
def run (told : Told F H) (book : Nat) (channel : Channel) (asked : Account)
    (warning : String) (timeout : Binary64) : WorldCourse F H Value := do
  let message ← Course.ofActivity (.atomically (send channel warning))
  let promise ← Course.promise
  let rule ← Course.ofActivity
    (.atomically (World.onRules (buildRule book message asked.id promise)))
  Course.atomically (World.change told (·.create rule))
  let timer ← Course.later timeout (.expire rule promise)
  let answer ← Course.ofActivity (Course.attempt (Course.wait (.task promise)))
  Course.withdraw timer
  Course.atomically (World.change told (·.destroy rule))
  let answer ← Course.ofExit answer
  Course.atomically (clear channel message)
  return answer

end Prompt

end Steward
