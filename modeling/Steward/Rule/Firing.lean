import Steward.Event.Publishing
import Steward.Rule.Listening
import Steward.Rule.Saved

/-!
# Firing rules

A rule that fires tests its conditions in order and stops at the first that does not hold.  Then its
lifetime is settled, so that a rule that does not persist is destroyed before its actions run; the
actions run in order, each to its end.  Actions can be added to the rule meanwhile, without end; they
are followed as far as the patience of the callbacks goes.  The triggers of a book listen to the bus
with one subscription for each event.
-/

namespace Steward

namespace World

variable {F H : Type}

/-- Tell the callbacks of triggers what was announced to them. -/
def tellTriggers (told : Told F H) (announced : List (Announcement F)) (world : World F H) :
    World F H :=
  announced.foldl
    (fun world a => told a.callback a.begins (world.rules.idOf a.rule) world) world

/-- Do something to the rules that is announced to triggers. -/
def change (told : Told F H) (f : RuleStore F → RuleStore.Announced F) (world : World F H) :
    Except Failure Unit × World F H :=
  let (outcome, announced, rules) := f world.rules
  (outcome, tellTriggers told announced { world with rules := rules })

/-- Whether one of some conditions holds, tested in order up to the first that does. -/
def anyHolds (check : ComponentRef → World F H → Except Failure Value × World F H) :
    List ComponentRef → World F H → Except Failure Value × World F H
  | [], world => (.ok (.bool false), world)
  | condition :: rest, world =>
    match check condition world with
    | (.error failure, world) => (.error failure, world)
    | (.ok answer, world) =>
      if answer.isTruthy then (.ok (.bool true), world) else anyHolds check rest world

/-- The answer of a single test. -/
def answerTest (callbacks : Callbacks F H) (test : Test F) (arguments : Value)
    (parameters : Parameters) (world : World F H) : Except Failure Value × World F H :=
  match test with
  | .custom name => callbacks.test name arguments parameters world
  | standard =>
    ((Standard.answer? standard arguments parameters).getD (.error Standard.noAttribute), world)

/-- The answer of a condition.  `depth` bounds how deep conditions lie in each other. -/
def checkWithin (callbacks : Callbacks F H) (arguments : Value) :
    Nat → ComponentRef → World F H → Except Failure Value × World F H
  | 0, _, world => (.error RuleStore.endless, world)
  | depth + 1, condition, world =>
    match condition.bind world.rules.component? with
    | some (.anyOf conditions) => anyHolds (checkWithin callbacks arguments depth) conditions world
    | some (.inverted base) =>
      match checkWithin callbacks arguments depth base world with
      | (.ok answer, world) => (.ok (.bool !answer.isTruthy), world)
      | failed => failed
    | some (.condition _ test) => answerTest callbacks test arguments [] world
    | some (.paramCondition _ test parameters) => answerTest callbacks test arguments parameters world
    | _ => (.error RuleStore.noComponent, world)

/-- The answer of a condition. -/
def check (callbacks : Callbacks F H) (arguments : Value) (condition : ComponentRef)
    (world : World F H) : Except Failure Value × World F H :=
  checkWithin callbacks arguments (world.rules.components.length + 1) condition world

/-- Whether all conditions hold, tested in order up to the first that does not. -/
def allHold (callbacks : Callbacks F H) (arguments : Value) :
    List ComponentRef → World F H → Except Failure Bool × World F H
  | [], world => (.ok true, world)
  | condition :: rest, world =>
    match check callbacks arguments condition world with
    | (.error failure, world) => (.error failure, world)
    | (.ok answer, world) =>
      if answer.isTruthy then allHold callbacks arguments rest world else (.ok false, world)

/-- The first part of a firing: whether the actions are to run.  The lifetime is settled if so. -/
def begin (callbacks : Callbacks F H) (id : Nat) (arguments : Value) (world : World F H) :
    Except Failure Bool × World F H :=
  match world.rules.rule? id with
  | none => (.ok false, world)
  | some rule =>
    if rule.destroyed then (.ok false, world)
    else
      match allHold callbacks arguments rule.conditions world with
      | (.ok true, world) =>
        let (outcome, world) := change callbacks.told (·.settleLifetime id) world
        (outcome.map fun _ => true, world)
      | answer => answer

end World

namespace Firing

variable {F H : Type}

/-- Keep a prompt's promise, unless it is kept, by whether the reaction confirms. -/
def keepPromise (promise : TaskId) (arguments : Value) : WorldCourse F H Unit := do
  match ← Course.peek promise, arguments with
  | some _, _ => return ()
  | none, .occasion _ _ _ _ _ reaction =>
    let emoji ← Course.ofExcept (Standard.emojiOf reaction)
    let answer := if emoji == Standard.confirmEmoji then "confirmed" else "denied"
    Course.settle promise (.ok (.text answer))
  | none, _ => Course.fail Standard.noAttribute

/-- Run what an action does, to its end. -/
def runDeed (callbacks : Callbacks F H) (reach : Reach F H) (deed : Deed F) (arguments : Value)
    (parameters : Parameters) : WorldCourse F H Unit :=
  match deed with
  | .custom name => do
    let _ ← callbacks.act reach name arguments parameters
  | .answer promise => keepPromise promise arguments
  | standard => do
    let outcome := (Standard.request? standard arguments parameters).getD (.error Standard.noAttribute)
    let request ← Course.ofExcept outcome
    Course.modify (enter (.request request))

/-- Run an action, to its end. -/
def runAction (callbacks : Callbacks F H) (reach : Reach F H) (action : ComponentRef)
    (arguments : Value) : WorldCourse F H Unit := do
  match ← Course.read fun world => action.bind world.rules.component? with
  | some (.action _ deed) => runDeed callbacks reach deed arguments []
  | some (.paramAction _ deed parameters) => runDeed callbacks reach deed arguments parameters
  | _ => Course.fail RuleStore.noComponent

/-- The action of a rule at a place. -/
def actionAt? (id place : Nat) (world : World F H) : Option ComponentRef :=
  (world.rules.rule? id).bind fun rule => rule.actions[place]?

/-- Run the actions of a rule from a place on, those that are added meanwhile included.  `fuel` is how
many of them are followed. -/
def runActionsFrom (callbacks : Callbacks F H) (reach : Reach F H) (id : Nat) (arguments : Value) :
    Nat → Nat → WorldCourse F H Unit
  | 0, place => do
    match ← Course.read (actionAt? id place) with
    | none => return ()
    | some _ => throw .endless
  | fuel + 1, place => do
    match ← Course.read (actionAt? id place) with
    | none => return ()
    | some action =>
      runAction callbacks reach action arguments
      runActionsFrom callbacks reach id arguments fuel (place + 1)

/-- Fire a rule; the answer is whether its actions ran. -/
def fireRule (callbacks : Callbacks F H) (reach : Reach F H) (id : Nat) (arguments : Value) :
    WorldCourse F H Bool := do
  if ← Course.atomically (World.begin callbacks id arguments) then
    let count ← Course.read fun world => ((world.rules.rule? id).map (·.actions.length)).getD 0
    runActionsFrom callbacks reach id arguments (count + callbacks.patience) 0
    return true
  else return false

/-- Turn the arguments of an event into the arguments of rules. -/
def mapArguments (callbacks : Callbacks F H) (mapper : Option (Mapper F)) (arguments : List Value) :
    Except Failure Value :=
  match mapper with
  | none => .ok (.tuple arguments)
  | some (.custom name) => callbacks.mapper name arguments
  | some standard => (Standard.occasion? standard arguments).getD (.error Standard.noAttribute)

/-- Fire the rules that listen to a trigger. -/
def fireTrigger (callbacks : Callbacks F H) (reach : Reach F H) (trigger : ComponentRef)
    (arguments : List Value) : WorldCourse F H Unit := do
  match ← Course.read fun world => trigger.bind world.rules.component? with
  | some (.eventTrigger _ _ mapper rules) =>
    let mapped ← Course.ofExcept (mapArguments callbacks mapper arguments)
    Course.forEach rules fun rule => do
      let _ ← fireRule callbacks reach rule mapped
  | _ => Course.fail RuleStore.notATrigger

/-- Fire the triggers of a book that are attached to an event. -/
def fireAttached (callbacks : Callbacks F H) (reach : Reach F H) (book : Nat) (event : String)
    (arguments : List Value) : WorldCourse F H Unit := do
  let triggers ← Course.read fun world =>
    ((world.rules.book book).attached.get? event).getD []
  Course.forEach triggers fun trigger => fireTrigger callbacks reach (some trigger) arguments

end Firing

namespace World

variable {F H : Type}

/-- Attach an event trigger of a book to the bus, with a subscription if its event is new to the
book. -/
def attach (observe : Observe F H) (index trigger : Nat) (event : String) (world : World F H) :
    Except Failure Unit × World F H :=
  let setTriggers (triggers : List Nat) (world : World F H) : World F H :=
    { world with
      rules := world.rules.updateBook index fun book =>
        { book with attached := book.attached.insert event triggers } }
  match (world.rules.book index).attached.get? event with
  | some triggers =>
    (.ok (), if triggers.contains trigger then world else setTriggers (triggers ++ [trigger]) world)
  | none =>
    match subscribeNew observe event (.fireRules index event) 0 none (setTriggers [] world) with
    | (.error failure, _, world) => (.error failure, world)
    | (.ok _, _, world) => (.ok (), setTriggers [trigger] world)

/-- Attach those of some components that are event triggers. -/
def attachAll (observe : Observe F H) (index : Nat) :
    List Nat → World F H → Except Failure Unit × World F H
  | [], world => (.ok (), world)
  | id :: rest, world =>
    match world.rules.component? id with
    | some (.eventTrigger _ event _ _) =>
      match attach observe index id event world with
      | (.ok _, world) => attachAll observe index rest world
      | failed => failed
    | _ => attachAll observe index rest world

/-- Connect the event triggers of a book to the bus. -/
def connect (observe : Observe F H) (index : Nat) (world : World F H) :
    Except Failure Unit × World F H :=
  let rules := world.rules.updateBook index fun book => { book with connected := true }
  attachAll observe index (rules.book index).base.values { world with rules := rules }

/-- Register a named component as one that saved rules are rebuilt from. -/
def registerBase (observe : Observe F H) (index : Nat) (component : ComponentRef)
    (world : World F H) : Except Failure Unit × World F H :=
  match component with
  | none => (.error RuleStore.noComponent, world)
  | some id =>
    match world.rules.component? id with
    | none => (.error RuleStore.noComponent, world)
    | some found =>
      if found.name?.isNone then
        (.error (.interaction ("Can not register unnamed component " ++ found.label)), world)
      else
        let rules := world.rules.updateBook index fun book =>
          { book with base := book.base.insert found.key id }
        let world := { world with rules := rules }
        if (rules.book index).connected then attachAll observe index [id] world else (.ok (), world)

/-- Register components one after the other, up to the first fault. -/
def registerAll (observe : Observe F H) (index : Nat) :
    List Nat → World F H → Except Failure Unit × World F H
  | [], world => (.ok (), world)
  | id :: rest, world =>
    match registerBase observe index (some id) world with
    | (.ok _, world) => registerAll observe index rest world
    | failed => failed

/-- Register the standard components. -/
def registerStandard (observe : Observe F H) (index : Nat) (world : World F H) :
    Except Failure Unit × World F H :=
  registerAll observe index (List.range (Standard.components (F := F)).length) world

def omission (label : String) : Entry :=
  .log .warning .interactions
    ("Component " ++ label ++ " can not be serialized, saving it as " ++ unserializableMarker)

/-- Save something of the rules, with a record of every component that had to be left out. -/
def saving {α : Type} (f : RuleStore F → Except Failure α × List String) (world : World F H) :
    Except Failure α × World F H :=
  let (outcome, omitted) := f world.rules
  (outcome, world.enterAll (omitted.map omission))

/-- Keep a document in its place. -/
def store (place : Option DataPlace) (document : Value) (world : World F H) :
    Except Failure Unit × World F H :=
  match place with
  | none => (.error (.fault .missingAttribute "no storage"), world)
  | some place =>
    let (outcome, storage) := world.storage.save document place
    (outcome, { world with storage := storage })

/-- The document in a place. -/
def stored (place : Option DataPlace) (world : World F H) : Except Failure Value :=
  place.elim (.error (.fault .missingAttribute "no storage")) world.storage.load

/-- Save the persistent rules of a book. -/
def saveRules (index : Nat) (world : World F H) : Except Failure Unit × World F H :=
  match saving (·.saveBook index) world with
  | (.error failure, world) => (.error failure, world)
  | (.ok document, world) => store (world.rules.book index).place document world

/-- Load saved rules one by one; one that can not be rebuilt is skipped.  The answer counts those
that were loaded. -/
def loadEntries [Validator] (told : Told F H) (index : Nat) :
    List Value → Nat → World F H → Except Failure Nat × World F H
  | [], count, world => (.ok count, world)
  | data :: rest, count, world =>
    match world.onRules (·.adopt index data) with
    | (.error failure, world) =>
      let message := [Piece.text ("Skipping persisted interaction " ++ RuleStore.entryLabel data ++ ": "),
        .failure failure]
      loadEntries told index rest count
        (enter (.record ⟨.warning, .interactions, message, none⟩) world)
    | (.ok rule, world) =>
      match change told (·.create rule) world with
      | (.error failure, world) => (.error failure, world)
      | (.ok _, world) => loadEntries told index rest (count + 1) world

/-- Load, register and enable the saved rules of a book. -/
def loadRules [Validator] (told : Told F H) (index : Nat) (world : World F H) :
    Except Failure Nat × World F H :=
  match world.stored (world.rules.book index).place >>= RuleStore.savedEntries with
  | .error failure => (.error failure, world)
  | .ok entries =>
    match loadEntries told index entries 0 world with
    | (.error failure, world) => (.error failure, world)
    | (.ok count, world) =>
      (.ok count,
        enter (.log .info .interactions s!"Loaded {count} persistent interactions") world)

end World

end Steward
