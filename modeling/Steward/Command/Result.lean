import Steward.Journal

/-!
# Command results

Every dispatch ends in one result.  It knows whether it is a success, which failures it carries,
which of them are unexpected and so to be traced, and how it is shown to the user.
-/

namespace Steward

/-- A message to the user: perhaps a text, and boxes of a description and a colour. -/
structure Payload where
  content : Option String
  embeds : List (String × Nat)
  deriving DecidableEq, Repr

/-- What a success says. -/
inductive Feedback where
  | text (text : String)
  | payload (payload : Payload)
  deriving DecidableEq, Repr

/-- The message to edit instead of sending one. -/
inductive EditTarget where
  | id (id : Int)
  | message (message : Message)
  deriving DecidableEq, Repr

/-- How a result's message is delivered. -/
structure DeliveryOptions where
  /-- Send to the channel instead of replying. -/
  noReply : Bool
  editTarget : Option EditTarget
  /-- Delete the command's message together with the result's. -/
  deletesUsage : Bool
  /-- Delete the result's message after some seconds; null never. -/
  deleteAfter : Value

def DeliveryOptions.standard : DeliveryOptions := ⟨false, none, false, .null⟩

/-- How options are shown; a message to edit is shown only by its id. -/
def DeliveryOptions.form (options : DeliveryOptions) : String :=
  let target := match options.editTarget with
    | some (.id id) => toString id
    | _ => "None"
  let flag (holds : Bool) : String := (Value.bool holds).quoted
  s!"ResultMessageOptions(no_reply={flag options.noReply}, edit_message={target}, " ++
    s!"delete_usage={flag options.deletesUsage}, delete_after={options.deleteAfter.quoted})"

/-- How a dispatch ended. -/
inductive Outcome where
  /-- The traversal found nothing to execute. -/
  | noExecutor
  | success (feedback : Option Feedback)
  /-- A failure for the user without an error behind it. -/
  | fail (text : String)
  | refused (text : String)
  | unparsed (error : ParseError)
  /-- A command error: its text, kind and span, and whether it is traced. -/
  | erroneous (text : String) (kind : CommandErrorKind) (span : Option Span) (traced : Bool)
      (cause : Option Failure)
  | unexpected (failure : Failure) (text : String)
  /-- Several results that failed. -/
  | several (parts : List Outcome)
  deriving Repr

structure CommandResult where
  outcome : Outcome
  options : DeliveryOptions

/-- How something is cut short that leads to a result. -/
inductive Halt where
  | reported (outcome : Outcome)
  /-- A failure that is contained by nothing. -/
  | escaped (failure : Failure)
  /-- It goes on further than it was followed. -/
  | endless
  deriving Repr

def successColor : Nat := 0x16c60c

def failureColor : Nat := 0xd93415

/-- The first two lines of a text behind a sign. -/
def statusLine (sign text : String) : String :=
  match text.splitOn "\n" with
  | first :: second :: _ => "`" ++ sign ++ "` " ++ first ++ "\n" ++ second
  | _ => "`" ++ sign ++ "` " ++ text

namespace Outcome

/-- What an unexpected failure during the traversal becomes; a command error stays what it is. -/
def ofRaised : Failure → Outcome
  | .command text kind span traced cause => .erroneous text kind span traced cause
  | failure => .unexpected failure ("System Error: `" ++ failure.message ++ "`")

/-- What an executor's failure becomes. -/
def ofExecutor (failure : Failure) : Outcome :=
  if failure.isPlain then .fail failure.message
  else .unexpected failure ("Error in executor: `" ++ failure.message ++ "`")

/-- What a failed reading becomes. -/
def ofParseFailure : Failure → Outcome
  | .parse error => .unparsed error
  | failure => .unexpected failure "Uncaught error while parsing"

def isSuccess : Outcome → Bool
  | .noExecutor | .success _ => true
  | _ => false

/-- The name of the kind of a result. -/
def kindName : Outcome → String
  | .noExecutor => "NoExecutorResult"
  | .success _ => "SuccessResult"
  | .fail _ => "FailResult"
  | .refused _ => "AssertionFailedResult"
  | .unparsed _ => "ParseErrorsResult"
  | .erroneous .. => "CommandErrorResult"
  | .unexpected .. => "UncaughtErrorResult"
  | .several _ => "MultiFailResult"

/-- How a result is shown. -/
def form (outcome : Outcome) : String :=
  s!"{outcome.kindName}(success={(Value.bool outcome.isSuccess).quoted})"

mutual

/-- The leaves of a result, in order. -/
def leaves : Outcome → List Outcome
  | .several parts => leavesOfAll parts
  | outcome => [outcome]

def leavesOfAll : List Outcome → List Outcome
  | [] => []
  | part :: rest => leaves part ++ leavesOfAll rest

end

mutual

/-- The failures that a result carries. -/
def errors : Outcome → List Failure
  | .noExecutor | .success _ | .fail _ | .refused _ => []
  | .unparsed error => [.parse error]
  | .erroneous text kind span traced cause => [.command text kind span traced cause]
  | .unexpected failure _ => [failure]
  | .several parts => errorsOfAll parts

def errorsOfAll : List Outcome → List Failure
  | [] => []
  | part :: rest => errors part ++ errorsOfAll rest

end

/-- Whether the failures are to be logged with traces. -/
def isTraced : Outcome → Bool
  | .erroneous _ _ _ traced _ => traced
  | .unexpected .. => true
  | _ => false

/-- The text that is logged with the failures. -/
def errorText? : Outcome → Option String
  | .erroneous text .. => some text
  | .unexpected _ text => some text
  | _ => none

def crossSign : String := "❌"

mutual

/-- How a failure is described to the user. -/
def description : Outcome → String
  | .noExecutor | .success _ => ""
  | .fail text | .refused text | .unexpected _ text => statusLine crossSign text
  | .unparsed error => statusLine crossSign ("Parse Error: " ++ (Failure.parse error).message)
  | .erroneous text _ span _ _ =>
    statusLine crossSign text ++
      (match span with
        | none => ""
        | some span => "\n```\n" ++ span.excerpt .brief ++ "\n```")
  | .several [part] => description part
  | .several parts => "**`❌ Multiple Errors`**\n" ++ "\n".intercalate (descriptions parts)

def descriptions : List Outcome → List String
  | [] => []
  | part :: rest => description part :: descriptions rest

end

/-- The message that a result is shown as, if it is shown. -/
def payload? : Outcome → Option Payload
  | .noExecutor => none
  | .success none => none
  | .success (some (.text text)) =>
    if text.isEmpty then none else some ⟨none, [(statusLine "✅" text, successColor)]⟩
  | .success (some (.payload payload)) => some payload
  | outcome => some ⟨none, [(outcome.description, failureColor)]⟩

end Outcome

namespace Halt

/-- The outcome that is reported, if one is. -/
def outcome? : Halt → Option Outcome
  | .reported outcome => some outcome
  | .escaped _ | .endless => none

/-- What becomes of a failure that leaves a dispatch's coroutine.  Where it can not be worded for the
report, what is raised instead escapes. -/
def ofRaised (failure : Failure) : Halt :=
  match failure.outside.instead? with
  | none => .reported (.ofRaised failure.outside)
  | some raised => .escaped raised.outside

/-- What becomes of a failed reading. -/
def ofParseFailure (failure : Failure) : Halt := .reported (.ofParseFailure failure)

/-- What becomes of an executor's failure.  Where it can not be worded for the report, what is raised
instead leaves the dispatch's coroutine. -/
def ofExecutor (failure : Failure) : Halt :=
  match failure.instead? with
  | none => .reported (.ofExecutor failure)
  | some raised => .ofRaised raised

end Halt

namespace CommandResult

def ofOutcome (outcome : Outcome) : CommandResult := ⟨outcome, .standard⟩

/-- The leaves of a result; one that is a leaf itself keeps its options. -/
def unwrap (result : CommandResult) : List CommandResult :=
  match result.outcome with
  | .several _ => result.outcome.leaves.map ofOutcome
  | _ => [result]

/-- The records that trace the failures of a result of the named command. -/
def traces (command : Option String) (result : CommandResult) : List Entry :=
  result.outcome.errors.map fun failure =>
    .logAttached .error .results
      ("Error occurred while executing command " ++ command.getD "?" ++ ": " ++
        result.outcome.errorText?.getD "None")
      failure

end CommandResult

end Steward
