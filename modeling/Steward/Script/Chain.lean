import Steward.Script.Basic

/-!
# Scripts of chained results

Results, the work that settles them and the functions chained onto them, described by documents.
-/

namespace Steward.Scripting

abbrev ChainCourse (α : Type) := ChainedCourse Script α

/-- The reader of descriptions that are not about a text. -/
def noReader : Reader := .ofString ""

/-- Make the result of a description. -/
def resultOf (document : Value) : ChainCourse Nat :=
  match document with
  | .map [("failure", text)] => Chain.settled (.ofFailure (.parse ⟨text.shown, none⟩))
  | .map [("uncaught", text)] => Chain.settled (.ofFailure (.unexpected text.shown))
  | .map [("pending", work)] => Chain.pending fun number => .work number (.work work)
  | document => Chain.settled (.success (valueOf (document.getD "of")))

/-- The outcome that a description ends with. -/
def outcomeOf (document : Value) : ChainCourse (Onward Script) := do
  match document.get? "result", document.get? "raise" with
  | some result, _ => return .result (← resultOf result)
  | none, some failure => Course.fail (failureOf noReader failure)
  | none, none => return .value (valueOf (document.getD "value"))

/-- Do the work of a description. -/
def await : Script → ChainCourse (Onward Script)
  | .work document => do
    Course.sleep (binaryOf (document.getD "delay"))
    Course.modify (note [.text "later", document.getD "tag"])
    outcomeOf document
  | _ => return .value .null

/-- Apply the function of a description to a result; `form` is how the result is noted. -/
def apply (form : Link → Value) (function : Script) (base : Nat) : ChainCourse (Onward Script) := do
  match function with
  | .function document =>
    let link ← Course.read (·.link base)
    Course.modify (note [.text "use", document.getD "tag", form link])
    match document.get? "add", document.get? "same", document.get? "async" with
    | some amount, _, _ =>
      match link.value.plus? (valueOf amount) with
      | some sum => return .value sum
      | none => Course.fail (.fault .wrongType "not a sum")
    | none, some _, _ => return .result base
    | none, none, some work => return .work (.work work)
    | none, none, none => outcomeOf document
  | _ => return .value .null

def chainCallbacks (form : Link → Value) : ChainCallbacks Script := ⟨await, apply form⟩

end Steward.Scripting
