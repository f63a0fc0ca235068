import Steward.Command.Dispatch
import Steward.Script.Basic

/-!
# Scripts of commands

Commands described by documents: their nodes, parsers, flags, assertions and executors, and what the
callbacks among them do.
-/

namespace Steward.Scripting

/-- How a reading ends, for the token it read. -/
def endingOf (document : Value) (token : String) (span : Span) : Answer Script :=
  match document with
  | .map [("token", _)] => .bare (.text token)
  | .map [("of", value)] => .outcome (.ok (valueOf value))
  | .map [("fail", text)] => .outcome (.error (.parse ⟨text.shown, some span⟩))
  | .map [("raise_parse", text)] => .outcome (.error (.parse ⟨text.shown, some span⟩))
  | .map [("raise", text)] => .outcome (.error (.unexpected text.shown))
  | document => .bare (valueOf (document.getD "value"))

/-- Read a token and the span it covers. -/
def readToken (reader : Reader) : String × Span × Reader :=
  let (token, stopped) := reader.collect CharClass.notSpace
  (token, stopped.span reader.index ((stopped.index : Int) - 1), stopped)

/-- Whether a reading ends later. -/
def endsLater (document : Value) : Bool := holds document "later"

/-- Run a parser's callback. -/
def read (script : Script) (scan : Scan Script) (world : Scene) :
    Answer Script × Reader × Scene :=
  let (token, span, stopped) := readToken scan.reader
  match script with
  | .shout => (.outcome (.ok (.text (token ++ "!"))), stopped, world)
  | .reading document =>
    if endsLater document then (.awaitable (.resolution document token span), stopped, world)
    else (endingOf (document.getD "out") token span, stopped, world)
  | _ => (.bare .null, stopped, world)

/-- Run the work that a reading has left for later. -/
def resolve : Script → SceneCourse Value
  | .resolution document token span => do
    Course.sleep (binaryOf (document.getD "delay"))
    Course.modify (note [.text "resolved", .text token])
    match endingOf (((document.getD "when").get? token).getD (document.getD "out")) token span with
    | .outcome outcome => Course.ofExcept outcome
    | .bare value => return value
    | .awaitable _ => return .null
  | _ => return .null

/-- The form in which a parser's values are written, if it has its own. -/
def written : Script → Option (Value → String)
  | .reading document =>
    if holds document "emitter" then some fun value => "<" ++ value.shown ++ ">" else none
  | _ => none

/-- The parser of a description. -/
def parserOf : Value → Parser Script
  | .text "greedy" => .greedy
  | .text "number" => .number
  | .text "duration" => .duration
  | .text "code" => .codeBlocks
  | .text "user" => .user
  | .text "member" => .member
  | .text "upper" => .custom .shout false
  | .map [("list", element)] => .list (parserOf element)
  | .map [("now", document)] => .custom (.reading document) false
  | .map [("later", .map entries)] => .custom (.reading (.map (("later", .bool true) :: entries))) true
  | .map [("later_sync", .map entries)] =>
    .custom (.reading (.map (("later", .bool true) :: entries))) false
  | _ => .string

/-- The default that a description gives. -/
def supplierOf (document : Value) : Supplier Script :=
  match document.get? "const" with
  | some value => .constant (valueOf value)
  | none => .custom (.fallback document)

/-- The default of a flag: null is none, and a switch is false by itself. -/
def flagFallbackOf (document : Value) : Option (Supplier Script) :=
  let isSwitch := (document.get? "type").isNone
  match document.get? "default" with
  | none => if isSwitch then some (.constant (.bool false)) else none
  | some given =>
    match supplierOf given with
    | .constant .null => if isSwitch then some (.constant .null) else none
    | supplier => some supplier

def flagOf (document : Value) : Flag Script where
  name := textAt document "name" ""
  aliases := textsOf (listAt document "aliases")
  parser := (document.get? "type").map parserOf
  fallback := flagFallbackOf document

def assertionOf (document : Value) : Assertion Script :=
  match document.get? "perm", document.get? "platform" with
  | some _, _ => .permissions (textsOf (listAt document "perm"))
  | none, some _ => .platform (textsOf (listAt document "platform"))
  | none, none => .custom (.assertion document)

/-- The steps of an executor, which may be wrapped to say that it waits. -/
def stepsOf (document : Value) : List Value :=
  match document with
  | .list steps => steps
  | wrapped => listAt wrapped "async"

def headOf (document : Value) : NodeHead Script :=
  let permissions := textsOf (listAt document "perms")
  { name := ((document.get? "lit").orElse fun _ => document.get? "arg").elim "" Value.shown
    kind :=
      match document.get? "type" with
      | none => .literal
      | some parser => .argument (parserOf parser)
    lead := (document.get? "prefix").bind (·.text?)
    aliases := textsOf (listAt document "aliases")
    optional := (document.get? "optional").isSome
    fallback := (document.get? "optional").map supplierOf
    flags := (listAt document "flags").map flagOf
    assertions :=
      (if permissions.isEmpty then [] else [.permissions permissions]) ++
        (listAt document "asserts").map assertionOf
    executor := (document.get? "exec").map fun steps => .execution (stepsOf steps)
    labels :=
      match document.getD "meta" with
      | .map entries => entries
      | _ => [] }

/-- The node of a description.  `depth` bounds how deep nodes lie below each other. -/
def nodeWithin : Nat → Value → Node Script
  | 0, document => .node (headOf document) []
  | depth + 1, document =>
    .node (headOf document) ((listAt document "children").map (nodeWithin depth))

def nodeOf (document : Value) : Node Script := nodeWithin document.depth document

/-- Compute a default value. -/
def supply : Invocation.Supply Script Scene := fun script readValue invocation world =>
  match script with
  | .fallback document =>
    match document.get? "arg" with
    | some name =>
      readValue .arguments name.shown none invocation (note [.text "default", name] world)
    | none =>
      (.error (failureOf invocation.reader (document.getD "raise")), invocation,
        note [.text "default", .null] world)
  | _ => (.ok .null, invocation, world)

/-- Test an assertion; a text says why it does not hold. -/
def assert (script : Script) (invocation : Invocation Script) (world : Scene) :
    Except Failure (Option String) × Scene :=
  match script with
  | .assertion document =>
    let node := invocation.currentNode.elim .null fun node => .text node.name
    let world := note [.text "assert", document.getD "tag", node, .int invocation.reader.index] world
    match document.get? "fail", document.get? "raise" with
    | some reason, _ => (.ok (some reason.shown), world)
    | none, some failure => (.error (failureOf invocation.reader failure), world)
    | none, none => (.ok none, world)
  | _ => (.ok none, world)

def embedOf : Value → Option (String × Nat)
  | .list [description, .int color] => some (description.shown, color.toNat)
  | _ => none

def payloadOf (document : Value) : Payload where
  content := (document.get? "content").bind (·.text?)
  embeds := (listAt document "embeds").filterMap embedOf

/-- What a success says: nothing, a text or a message. -/
def feedbackOf : Value → Option Feedback
  | .null => none
  | .text text => some (.text text)
  | document => some (.payload (payloadOf document))

def optionsOf (document : Value) : DeliveryOptions where
  noReply := holds document "no_reply"
  editTarget :=
    match document.getD "edit_message" with
    | .null => none
    | .int id => some (.id id)
    | message => some (.message (messageOf none message))
  deletesUsage := holds document "delete_usage"
  deleteAfter := document.getD "delete_after"

/-- What an executor returns. -/
def replyOf (document : Value) : Reply :=
  let result (outcome : Outcome) : Reply := .result ⟨outcome, optionsOf (document.getD "options")⟩
  match document.get? "text", document.get? "payload", document.get? "value", document.get? "success",
    document.get? "fail" with
  | some text, _, _, _, _ => .feedback (.text text.shown)
  | _, some payload, _, _, _ => .feedback (.payload (payloadOf payload))
  | _, _, some value, _, _ =>
    match valueOf value with
    | .null => .nothing
    | .text text => .feedback (.text text)
    | value => .other value
  | _, _, _, some feedback, _ => result (.success (feedbackOf feedback))
  | _, _, _, _, some text => result (.fail text.shown)
  | _, _, _, _, _ => .nothing

/-- Read a value for an executor. -/
def readValue (table : ValueTable) (name : String) (own : Option Value)
    (invocation : Invocation Script) :
    Activity Scene (Job Script) (Except Failure Value × Invocation Script) :=
  .atomically fun world =>
    let (outcome, invocation, world) := Invocation.readValue supply table name own invocation world
    ((outcome, invocation), world)

/-- Read arguments and show them, up to the first that has no value. -/
def readShown (invocation : Invocation Script) : List String →
    Activity Scene (Job Script) (Except Failure (List String) × Invocation Script)
  | [] => return (.ok [], invocation)
  | name :: rest => do
    match ← readValue .arguments name none invocation with
    | (.error failure, invocation) => return (.error failure, invocation)
    | (.ok value, invocation) =>
      let (outcome, invocation) ← readShown invocation rest
      return (outcome.map (value.shown :: ·), invocation)

def tableOf (word : String) : ValueTable :=
  if word == "flag" || word == "has_flag" then .flags else .arguments

/-- Run the steps of an executor. -/
def runSteps : List Value → Invocation Script →
    Activity Scene (Job Script) (Exit Reply × Invocation Script)
  | [], invocation => return (.ok .nothing, invocation)
  | .list (.text word :: .text name :: own) :: rest, invocation => do
    match word with
    | "arg" | "flag" =>
      match ← readValue (tableOf word) name (own.head?.map valueOf) invocation with
      | (.error failure, invocation) => return (.error (.failed failure), invocation)
      | (.ok value, invocation) =>
        Activity.modify (note [.text word, .text name, value])
        runSteps rest invocation
    | "has_arg" | "has_flag" =>
      let found := invocation.has (tableOf word) name
      Activity.modify (note [.text word, .text name, .bool found])
      runSteps rest invocation
    | "say" =>
      match ← readShown invocation (textsOf own) with
      | (.error failure, invocation) => return (.error (.failed failure), invocation)
      | (.ok shown, invocation) =>
        let text := name ++ ", ".intercalate shown
        return (.ok (.result (.ofOutcome (.success (some (.text text))))), invocation)
    | _ =>
      Activity.modify (note [.text "exec", .text name])
      runSteps rest invocation
  | .list [.text word, document] :: rest, invocation => do
    match word with
    | "sleep" =>
      match ← Activity.wait (.sleep (binaryOf document)) .done with
      | .error interrupt => return (.error interrupt, invocation)
      | .ok _ => runSteps rest invocation
    | "raise" => return (.error (.failed (failureOf invocation.reader document)), invocation)
    | "return" => return (.ok (replyOf document), invocation)
    | _ =>
      Activity.modify (note [.text "exec", document])
      runSteps rest invocation
  | _ :: rest, invocation => runSteps rest invocation

/-- Run an executor. -/
def execute (script : Script) (invocation : Invocation Script) :
    Activity Scene (Job Script) (Exit Reply × Invocation Script) :=
  match script with
  | .execution steps => runSteps steps invocation
  | _ => return (.ok .nothing, invocation)

end Steward.Scripting
