import Steward.Rule.Store

/-!
# Listening to triggers

A rule that is enabled is attached to its trigger.  An event trigger holds the rules attached to it,
each once; a list of triggers passes the rule on to its members; a trigger of a callback's own is told
about it.  What callbacks are told is part of the answer, in order, up to where a fault ended it.
-/

namespace Steward

/-- What the callback of a trigger is told: whether a rule begins or ends listening. -/
structure Announcement (F : Type) where
  callback : F
  begins : Bool
  rule : Nat
  deriving DecidableEq, Repr

namespace RuleStore

variable {F : Type}

/-- The outcome of an operation on triggers, with what was announced meanwhile. -/
abbrev Announced (F : Type) := Except Failure Unit × List (Announcement F) × RuleStore F

def notATrigger : Failure := .fault .missingAttribute "not a trigger"

/-- What an event trigger's rules become when a rule begins or ends listening. -/
def adjust (begins : Bool) (rule : Nat) (rules : List Nat) : List Nat :=
  if begins then (if rules.contains rule then rules else rules ++ [rule]) else rules.erase rule

/-- Tell triggers in order that a rule begins or ends listening, up to the first fault. -/
def tellAll (tellOne : ComponentRef → RuleStore F → Announced F) :
    List ComponentRef → RuleStore F → Announced F
  | [], store => (.ok (), [], store)
  | trigger :: rest, store =>
    match tellOne trigger store with
    | (.error failure, announced, store) => (.error failure, announced, store)
    | (.ok _, announced, store) =>
      let (outcome, further, store) := tellAll tellOne rest store
      (outcome, announced ++ further, store)

/-- Tell a trigger that a rule begins or ends listening.  `depth` bounds how deep lists of triggers
lie in each other. -/
def tellWithin (begins : Bool) (rule : Nat) : Nat → ComponentRef → RuleStore F → Announced F
  | 0, _, store => (.error (.fault .tooDeep "a list of triggers lies in itself"), [], store)
  | depth + 1, trigger, store =>
    match trigger with
    | none => (.error notATrigger, [], store)
    | some id =>
      match store.component? id with
      | some (.eventTrigger name event mapper rules) =>
        (.ok (), [], store.setComponent id (.eventTrigger name event mapper (adjust begins rule rules)))
      | some (.customTrigger _ callback) => (.ok (), [⟨callback, begins, rule⟩], store)
      | some (.triggerList triggers) => tellAll (tellWithin begins rule depth) triggers store
      | _ => (.error notATrigger, [], store)

/-- Tell a trigger that a rule begins or ends listening.  Lists that do not lie in themselves are at
most as deep as there are components. -/
def tell (store : RuleStore F) (begins : Bool) (rule : Nat) (trigger : ComponentRef) : Announced F :=
  tellWithin begins rule (store.components.length + 1) trigger store

/-- Begin listening to the rule's trigger. -/
def enable (store : RuleStore F) (id : Nat) : Announced F :=
  match store.rule? id with
  | none => (.ok (), [], store)
  | some rule =>
    if rule.enabled || rule.destroyed then (.ok (), [], store)
    else
      match store.tell true id rule.trigger with
      | (.error failure, announced, store) => (.error failure, announced, store)
      | (.ok _, announced, store) =>
        (.ok (), announced, store.updateRule id fun rule => { rule with enabled := true })

/-- Stop listening to the rule's trigger. -/
def disable (store : RuleStore F) (id : Nat) : Announced F :=
  match store.rule? id with
  | none => (.ok (), [], store)
  | some rule =>
    if !rule.enabled then (.ok (), [], store)
    else
      match store.tell false id rule.trigger with
      | (.error failure, announced, store) => (.error failure, announced, store)
      | (.ok _, announced, store) =>
        (.ok (), announced, store.updateRule id fun rule => { rule with enabled := false })

/-- Stop listening for good and leave the book. -/
def destroy (store : RuleStore F) (id : Nat) : Announced F :=
  match store.rule? id with
  | none => (.ok (), [], store)
  | some rule =>
    if rule.destroyed then (.ok (), [], store)
    else
      match store.disable id with
      | (.error failure, announced, store) => (.error failure, announced, store)
      | (.ok _, announced, store) =>
        let store := store.updateRule id fun rule => { rule with destroyed := true }
        (.ok (), announced, store.unregister rule.book id)

/-- Finish building a rule: it begins to listen to its trigger, which must be set. -/
def create (store : RuleStore F) (id : Nat) : Announced F :=
  match store.rule? id with
  | none => (.ok (), [], store)
  | some rule =>
    if rule.trigger.isNone then (.error (.interaction (rule.label ++ " has no trigger")), [], store)
    else store.enable id

/-- Destroy the rule of an id or a name; the answer begins with whether there was one. -/
def remove (store : RuleStore F) (index : Nat) (key : Value) :
    Except Failure Bool × List (Announcement F) × RuleStore F :=
  match store.get? index key with
  | .error failure => (.error failure, [], store)
  | .ok none => (.ok false, [], store)
  | .ok (some id) =>
    let (outcome, announced, store) := store.destroy id
    (outcome.map fun _ => true, announced, store)

/-- Settle the lifetime of a rule that is about to run its actions: it is destroyed unless it
persists. -/
def settleLifetime (store : RuleStore F) (id : Nat) : Announced F :=
  match (store.rule? id).bind (·.lifetime) with
  | none => store.destroy id
  | some lifetime =>
    let (persists, remaining) := lifetime.settle
    let store := store.updateRule id fun rule => { rule with lifetime := some remaining }
    if persists then (.ok (), [], store) else store.destroy id

end RuleStore

end Steward
