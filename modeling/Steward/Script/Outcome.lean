import Steward.Command.Delivery
import Steward.Script.Command

/-!
# Descriptions of results

The outcome of a command, described by a document, so that its message and its delivery can be tried
out without running a command.
-/

namespace Steward.Scripting

/-- What a failed reading of a text becomes; other readings have no outcome. -/
def outcomeOfReading (parser : Parser Script) (text : String) (world : Scene) :
    Option Outcome × Scene :=
  let invocation : Invocation Script := .ofText text
  let (result, _, world) := parser.read ⟨some invocation.origin, read, 0⟩ invocation.scan world
  match result with
  | .settled (.error failure) => (some (.ofParseFailure failure), world)
  | .settled (.ok _) | .pending _ | .endless => (none, world)

/-- The failure of a described error. -/
def describedFailure (text : String) (document : Value) : Except Failure Failure :=
  (failureOf? (.ofString text) document).elim
    (.error (.fault .wrongValue "not a kind of error")) .ok

/-- A description of an error of a kind. -/
def ofKind (kind : String) : Value → Value
  | .map entries => .map (("kind", .text kind) :: entries)
  | other => other

/-- Whether an outcome can be a part of several failures. -/
def isFailure : Option Outcome → Bool
  | some outcome => !outcome.isSuccess
  | none => false

/-- The parts that all fail. -/
def failures (parts : List (Option Outcome)) : Except Failure Outcome :=
  if parts.all isFailure then .ok (.several (parts.filterMap id))
  else .error (.fault .missingAttribute "a part that is not a failure")

/-- The outcomes of descriptions in order, up to the first fault. -/
def describeEach (describe : Value → Scene → Except Failure (Option Outcome) × Scene) :
    List Value → Scene → Except Failure (List (Option Outcome)) × Scene
  | [], world => (.ok [], world)
  | document :: rest, world =>
    match describe document world with
    | (.error failure, world) => (.error failure, world)
    | (.ok outcome, world) =>
      let (outcomes, world) := describeEach describe rest world
      (outcomes.map (outcome :: ·), world)

/-- The outcome of a description over a text.  `depth` bounds how deep descriptions lie in each
other. -/
def describedWithin (text : String) :
    Nat → Value → Scene → Except Failure (Option Outcome) × Scene
  | 0, _, world => (.ok none, world)
  | depth + 1, document, world =>
    match document with
    | .map [("noexec", _)] => (.ok (some .noExecutor), world)
    | .map [("success", feedback)] => (.ok (some (.success (feedbackOf feedback))), world)
    | .map [("fail", reason)] => (.ok (some (.fail reason.shown)), world)
    | .map [("assertion", reason)] => (.ok (some (.refused reason.shown)), world)
    | .map [("parse", error)] =>
      ((describedFailure text (ofKind "ParseError" error)).map fun failure =>
        some (.ofParseFailure failure), world)
    | .map [("command", error)] =>
      ((describedFailure text (ofKind "CommandError" error)).map fun failure =>
        some (.ofRaised failure), world)
    | .map [("uncaught", error)] =>
      ((describedFailure text (error.getD "error")).map fun failure =>
        some (.unexpected failure (error.getD "message").shown), world)
    | .map [("multi", .list parts)] =>
      let (parts, world) := describeEach (describedWithin text depth) parts world
      (parts.bind fun parts => (failures parts).map some, world)
    | .map [("from_parse", .null)] => (.ok none, world)
    | .map [("from_parse", parser)] =>
      let (outcome, world) := outcomeOfReading (parserOf parser) text world
      (.ok outcome, world)
    | _ => (.ok none, world)

/-- The outcome of a description over a text, if it has one. -/
def describedOutcome (text : String) (document : Value) (world : Scene) :
    Except Failure (Option Outcome) × Scene :=
  describedWithin text (document.depth + 1) document world

end Steward.Scripting
