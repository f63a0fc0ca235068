import Steward.Text.Span

/-!
# Failures

Everything that can go wrong, by cause, with the wording of each cause in `Failure.message`.
-/

namespace Steward

/-- Why the text of an input line could not be read as a value. -/
structure ParseError where
  text : String
  span : Option Span
  deriving DecidableEq, Repr

/-- What a command error is about. -/
inductive CommandErrorKind where
  | system
  | executor
  | parse
  | unknownFlag
  | unknownNode
  | unknownCommand
  | assertion
  deriving DecidableEq, Repr

/-- A fault of the surroundings: a value of the wrong shape, a platform's refusal, a file that can
not be used, a misuse of the language. -/
inductive Fault where
  | wrongType
  | wrongValue
  | missingKey
  | outOfRange
  | missingAttribute
  | tooLarge
  | tooDeep
  | notFound
  | forbidden
  | malformedDocument
  | invalidDocument
  | isDirectory
  | notDirectory
  | alreadyExists
  /-- An iterator had no further item. -/
  | exhausted
  | runtime
  deriving DecidableEq, Repr

/-- Why a configuration could not be loaded. -/
inductive ConfigFault where
  | malformed
  | unreadable
  /-- The values of the named settings are not acceptable. -/
  | invalid (settings : List String)
  deriving DecidableEq, Repr

/-- The causes of failure. -/
inductive Failure where
  | parse (error : ParseError)
  /-- An error of command traversal; `traced` asks for it to be logged, and it may have been caused
  by another failure. -/
  | command (text : String) (kind : CommandErrorKind) (span : Option Span) (traced : Bool)
      (cause : Option Failure)
  /-- A command that ends itself with a message for the user. -/
  | plain (text : String)
  | absentValue (name : String)
  | interaction (text : String)
  | duplicateName (name : String) (existing new : Int)
  | unknownComponent (key : String)
  | configuration (path : String) (fault : ConfigFault)
  | missingDependency (kind name : String)
  /-- A failure of the library that fits no narrower cause. -/
  | general (text : String)
  /-- An unexpected failure of a callback. -/
  | unexpected (text : String)
  | fault (fault : Fault) (text : String)
  /-- A failure that can not be worded: whoever asks for its text has another failure raised. -/
  | mute (raises : Failure)
  deriving Repr

namespace Failure

/-- A text followed by the positions of a span, if there is one. -/
def located (text : String) : Option Span → String
  | none => text
  | some span => text ++ " @ " ++ span.positions

/-- The one-line wording of a failure, as a trace shows it. -/
def message : Failure → String
  | .parse error => located error.text error.span
  | .command text _ span _ _ => located text span
  | .plain text => text
  | .absentValue name => "`" ++ name ++ "` is a required argument"
  | .interaction text => text
  | .duplicateName name existing new =>
    s!"Interaction name '{name}' is already used by interaction {existing}, " ++
      s!"cannot register interaction {new} under it"
  | .unknownComponent key => s!"No base component registered by key '{key}'"
  | .configuration path _ => s!"While loading config {path}"
  | .missingDependency kind name => s!"Could not resolve dependency(name: {name}, kind: {kind})"
  | .general text => text
  | .unexpected text => text
  | .fault _ text => text
  | .mute _ => "<exception str() failed>"

/-- What is raised instead where the text of a failure is asked for, if it can not be worded. -/
def instead? : Failure → Option Failure
  | .mute raises => some raises
  | _ => none

/-- A text followed by the excerpt of a span, if there is one. -/
def withExcerpt (text : String) (detail : Detail) : Option Span → String
  | none => text
  | some span => text ++ "\n" ++ span.excerpt detail

/-- The text of a failure and an excerpt of the input at fault. -/
def describe (failure : Failure) (detail : Detail) : String :=
  match failure with
  | .parse error => withExcerpt error.text detail error.span
  | .command text _ span _ _ => withExcerpt text detail span
  | other => other.message

/-- Whether the failure ends a command with a plain message for the user. -/
def isPlain : Failure → Bool
  | .plain _ | .absentValue _ => true
  | _ => false

/-- What leaves a coroutine in which a failure was raised.  An exhausted iterator would look like the
end of the coroutine, so something else is raised in its place. -/
def outside : Failure → Failure
  | .fault .exhausted _ => .fault .runtime "coroutine raised StopIteration"
  | failure => failure

end Failure

end Steward
