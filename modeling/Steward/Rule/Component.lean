import Steward.Loop.Activity
import Steward.OrderedMap
import Steward.Value

/-!
# Components of rules

A rule is put together from components: a trigger that fires it, conditions that decide whether it
runs, and actions.  Components are numbered in one table, because they can be shared: a list of
triggers may be extended after it was given to a rule.  The key of a component is its type and its
name; what is saved of a rule refers to components by their keys.
-/

namespace Steward

/-- A reference to a component, or to none. -/
abbrev ComponentRef := Option Nat

abbrev Parameters := List (String × Value)

inductive ComponentType where
  | trigger
  | condition
  | action
  deriving DecidableEq, Repr

def ComponentType.word : ComponentType → String
  | .trigger => "trigger"
  | .condition => "condition"
  | .action => "action"

/-- How the arguments of an event become the arguments of rules. -/
inductive Mapper (F : Type) where
  /-- The occasion of a member's event. -/
  | member
  | message
  | reaction
  | custom (name : F)
  deriving DecidableEq, Repr

/-- What a condition asks. -/
inductive Test (F : Type) where
  | userIsBot
  | messageIs
  | reactionIs
  | userIs
  /-- Whether a reaction is one of the two answers to a prompt. -/
  | isAnswer
  | custom (name : F)
  deriving DecidableEq, Repr

/-- What an action does. -/
inductive Deed (F : Type) where
  | giveRole
  | removeRole
  | react
  /-- Keep a prompt's promise according to the reaction. -/
  | answer (promise : TaskId)
  | custom (name : F)
  deriving DecidableEq, Repr

inductive Component (F : Type) where
  | triggerList (triggers : List ComponentRef)
  /-- A trigger for an event, with the rules that it fires. -/
  | eventTrigger (name event : String) (mapper : Option (Mapper F)) (rules : List Nat)
  /-- A trigger that a callback looks after. -/
  | customTrigger (name : Option String) (callback : F)
  | anyOf (conditions : List ComponentRef)
  | inverted (base : ComponentRef)
  | condition (name : Option String) (test : Test F)
  | paramCondition (name : String) (test : Test F) (parameters : Parameters)
  | action (name : Option String) (deed : Deed F)
  | paramAction (name : String) (deed : Deed F) (parameters : Parameters)
  deriving Repr

namespace Component

variable {F : Type}

def type : Component F → ComponentType
  | .triggerList _ | .eventTrigger .. | .customTrigger .. => .trigger
  | .anyOf _ | .inverted _ | .condition .. | .paramCondition .. => .condition
  | .action .. | .paramAction .. => .action

def name? : Component F → Option String
  | .triggerList _ => some "list"
  | .anyOf _ => some "orList"
  | .inverted _ => some "inverted"
  | .eventTrigger name .. | .paramCondition name .. | .paramAction name .. => some name
  | .customTrigger name _ | .condition name _ | .action name _ => name

def key (component : Component F) : String :=
  component.type.word ++ "::" ++ component.name?.getD "None"

/-- The word for the kind of a component. -/
def kindName : Component F → String
  | .triggerList _ => "TriggerList"
  | .eventTrigger .. => "EventTrigger"
  | .customTrigger .. => "ManualTrigger"
  | .anyOf _ => "OrConditionList"
  | .inverted _ => "InvertedCondition"
  | .condition .. => "FunctionCondition"
  | .paramCondition .. => "ParamCondition"
  | .action .. => "FunctionAction"
  | .paramAction .. => "ParamAction"

def label (component : Component F) : String := component.kindName ++ "(" ++ component.key ++ ")"

/-- Whether a component is saved with parameters. -/
def isParameterized : Component F → Bool
  | .triggerList _ | .anyOf _ | .inverted _ | .paramCondition .. | .paramAction .. => true
  | _ => false

end Component

end Steward
