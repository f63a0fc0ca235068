import Steward.Parse.Chain
import Steward.Script.Document
import Steward.World

/-!
# Scripts

A script is a callback described by a document, so that a bot can be tried out without writing code.
Scripts leave notes in the journal of what they are asked, and refer to listeners, rules and
components by names that they share.
-/

namespace Steward

/-- A callback described by a document. -/
inductive Script where
  /-- Read a token and answer it with an exclamation mark. -/
  | shout
  /-- Read a token and end as the document says, at once or later. -/
  | reading (document : Value)
  /-- What a reading has left for later, for the token at a span. -/
  | resolution (document : Value) (token : String) (span : Span)
  | fallback (document : Value)
  | assertion (document : Value)
  | execution (steps : List Value)
  | listener (tag : String) (document : Value)
  | observer (tag failure : Value)
  | mapper (word : String)
  /-- The callback of a component, known by a name. -/
  | component (name : String) (document : Value)
  | extension (name : String) (document : Value)
  /-- An extension's listener to an event. -/
  | hearing (extension event : String)
  | handler (word : String)
  /-- Work to be awaited, and a function that results are passed through. -/
  | work (document : Value)
  | function (document : Value)
  deriving Repr

namespace Scripting

/-- What scripts know by name. -/
structure Names where
  listeners : OrderedMap String (Listener (Target Script))
  /-- The rules by name; a name may stand for a rule that there is not. -/
  rules : OrderedMap String (Option Nat)
  components : OrderedMap String Nat
  /-- The permissions of members. -/
  members : OrderedMap String Nat
  tasks : OrderedMap String TaskId
  /-- The rule book that scripts refer to. -/
  book : Nat

def Names.empty : Names := ⟨.empty, .empty, .empty, .empty, .empty, 0⟩

/-- A world whose callbacks are scripts. -/
abbrev Scene := World Script Names

abbrev SceneCourse (α : Type) := WorldCourse Script Names α

/-- A note of a few values. -/
def note {σ : Type} [Journaled σ] (items : List Value) (state : σ) : σ :=
  enter (.note (.list items)) state

def missingVariable (name : String) : Failure := .fault .missingKey name

end Scripting

end Steward
