import Steward.Command.Result

/-!
# Delivering results

The message of a result is sent, or an earlier message is edited, as the result's options say; then
deletions are asked for.  The answer is the message that shows the result, if one does.
-/

namespace Steward

namespace Delivery

variable {σ : Type} [Journaled σ]

/-- A conversation with the platform, which may fail. -/
abbrev Exchange (σ α : Type) := σ → Except Failure α × σ

def request (request : Request) (state : σ) : σ := enter (.request request) state

/-- Reply to a message. -/
def reply (message : Message) (payload : Payload) (state : σ) : Message × σ :=
  ({ message with id := message.id + 1000 },
    request (.reply message.id payload.content payload.embeds) state)

/-- Send a message to a channel. -/
def send (base : Message) (payload : Payload) (state : σ) : Message × σ :=
  ({ base with id := base.channel.nextMessage },
    request (.send base.channel.id payload.content payload.embeds) state)

/-- Fetch a message of a channel by its id; there is no message 404. -/
def fetchMessage (base : Message) (id : Int) (state : σ) : Except Failure Message × σ :=
  let state := request (.fetchMessage base.channel.id id) state
  if id = 404 then (.error (.fault .notFound "Unknown Message"), state)
  else (.ok { base with id := id }, state)

/-- Edit a message; the platform may answer with a message, or else the edited one counts. -/
def edit (message : Message) (payload : Payload) (state : σ) : Message × σ :=
  let state := request (.edit message.id payload.content payload.embeds) state
  match message.channel.editing with
  | .newMessage => ({ message with id := message.id + 5000 }, state)
  | .nothing | .sameMessage => (message, state)

/-- The message that shows a payload. -/
def show? (options : DeliveryOptions) (message : Message) (payload : Payload) :
    Exchange σ Message := fun state =>
  match options.editTarget with
  | some (.message target) =>
    let (sent, state) := edit target payload state
    (.ok sent, state)
  | some (.id id) =>
    match fetchMessage message id state with
    | (.error failure, state) => (.error failure, state)
    | (.ok target, state) =>
      let (sent, state) := edit target payload state
      (.ok sent, state)
  | none =>
    let (sent, state) :=
      if options.noReply then send message payload state else reply message payload state
    (.ok sent, state)

/-- Deliver a result as an answer to a message. -/
def deliver (result : CommandResult) (message : Message) : Exchange σ (Option Message) := fun state =>
  match result.outcome.payload? with
  | none => (.ok none, state)
  | some payload =>
    match show? result.options message payload state with
    | (.error failure, state) => (.error failure, state)
    | (.ok sent, state) =>
      let delay := result.options.deleteAfter
      if delay.isNull then (.ok (some sent), state)
      else
        let state := request (.delete sent.id delay) state
        let state :=
          if result.options.deletesUsage then request (.delete message.id delay) state else state
        (.ok (some sent), state)

end Delivery

end Steward
