import Steward.Document.Storage
import Steward.Rule.Component

/-!
# Rules and rule books

A rule book registers rules by id and by name, and the base components that saved rules are rebuilt
from.  Rules keep their identity when they move between books or are replaced in one, so they are
numbered in a table beside the components.
-/

namespace Steward

/-- How long a rule stays registered. -/
inductive Lifetime where
  | forever
  | once
  /-- Until its actions have run some more times. -/
  | uses (remaining : Int)
  deriving DecidableEq, Repr

/-- Whether a rule stays registered after a firing that its conditions let pass, and the lifetime it
has from then on. -/
def Lifetime.settle : Lifetime → Bool × Lifetime
  | .forever => (true, .forever)
  | .once => (false, .once)
  | .uses remaining => (1 < remaining, .uses (remaining - 1))

structure Rule where
  /-- The book that the rule belongs to. -/
  book : Nat
  id : Int
  name : Option String
  persistent : Bool
  lifetime : Option Lifetime
  trigger : ComponentRef
  conditions : List ComponentRef
  actions : List ComponentRef
  enabled : Bool
  destroyed : Bool
  deriving DecidableEq, Repr

def Rule.new (book : Nat) (id : Int) : Rule where
  book := book
  id := id
  name := none
  persistent := false
  lifetime := none
  trigger := none
  conditions := []
  actions := []
  enabled := false
  destroyed := false

def Rule.label (rule : Rule) : String :=
  match rule.name with
  | some name =>
    if name.isEmpty then s!"Interaction(id: {rule.id})" else s!"Interaction(id: {rule.id}, name: {name})"
  | none => s!"Interaction(id: {rule.id})"

structure RuleBook where
  /-- Where the persistent rules are kept. -/
  place : Option DataPlace
  /-- The base components by key. -/
  base : OrderedMap String Nat
  rules : OrderedMap Int Nat
  rulesByName : OrderedMap String Nat
  nextId : Int
  /-- Whether the book's triggers listen to the bus. -/
  connected : Bool
  /-- The triggers attached to each event. -/
  attached : OrderedMap String (List Nat)
  deriving Repr

structure RuleStore (F : Type) where
  components : List (Component F)
  rules : List Rule
  books : List RuleBook

namespace RuleStore

variable {F : Type}

def component? (store : RuleStore F) (id : Nat) : Option (Component F) := store.components[id]?

def addComponent (store : RuleStore F) (component : Component F) : Nat × RuleStore F :=
  (store.components.length, { store with components := store.components ++ [component] })

def setComponent (store : RuleStore F) (id : Nat) (component : Component F) : RuleStore F :=
  { store with components := store.components.set id component }

def rule? (store : RuleStore F) (id : Nat) : Option Rule := store.rules[id]?

def addRule (store : RuleStore F) (rule : Rule) : Nat × RuleStore F :=
  (store.rules.length, { store with rules := store.rules ++ [rule] })

def updateRule (store : RuleStore F) (id : Nat) (f : Rule → Rule) : RuleStore F :=
  { store with rules := store.rules.modify id f }

def emptyBook (place : Option DataPlace) : RuleBook := ⟨place, .empty, .empty, .empty, 1, false, .empty⟩

def book (store : RuleStore F) (index : Nat) : RuleBook := store.books.getD index (emptyBook none)

def updateBook (store : RuleStore F) (index : Nat) (f : RuleBook → RuleBook) : RuleStore F :=
  { store with books := store.books.modify index f }

/-- The id of a rule in the table of rules. -/
def idOf (store : RuleStore F) (rule : Nat) : Int := ((store.rule? rule).map (·.id)).getD 0

def nameOf (store : RuleStore F) (rule : Nat) : Option String := (store.rule? rule).bind (·.name)

/-- Whether a rule is the one registered under its id. -/
def isRegistered (store : RuleStore F) (index rule : Nat) : Bool :=
  (store.book index).rules.get? (store.idOf rule) == some rule

/-- Take a name off the index if it stands for a rule. -/
def forgetName (book : RuleBook) (name : Option String) (rule : Nat) : RuleBook :=
  match name with
  | some name =>
    if book.rulesByName.get? name = some rule then
      { book with rulesByName := book.rulesByName.erase name }
    else book
  | none => book

/-- A name is free for a rule unless it stands for a rule of another id. -/
def checkName (store : RuleStore F) (index rule : Nat) (name : String) : Except Failure Unit :=
  match (store.book index).rulesByName.get? name with
  | some existing =>
    if store.idOf existing = store.idOf rule then .ok ()
    else .error (.duplicateName name (store.idOf existing) (store.idOf rule))
  | none => .ok ()

/-- Register a rule under its id and name.  A rule that has the id is replaced. -/
def register (store : RuleStore F) (index rule : Nat) : Except Failure Unit × RuleStore F :=
  let name := store.nameOf rule
  match name.elim (.ok ()) (store.checkName index rule) with
  | .error failure => (.error failure, store)
  | .ok _ =>
    let id := store.idOf rule
    let replaced : Option String :=
      match (store.book index).rules.get? id with
      | some old => if old = rule then none else store.nameOf old
      | none => none
    let store := store.updateBook index fun book =>
      let byName := match replaced with
        | some name => book.rulesByName.erase name
        | none => book.rulesByName
      { book with
        rules := book.rules.insert id rule
        rulesByName := match name with
          | some name => byName.insert name rule
          | none => byName
        nextId := max book.nextId (id + 1) }
    (.ok (), store.updateRule rule fun r => { r with book := index })

/-- Give a rule another name. -/
def rename (store : RuleStore F) (index rule : Nat) (name : String) :
    Except Failure Unit × RuleStore F :=
  match store.checkName index rule name with
  | .error failure => (.error failure, store)
  | .ok _ =>
    let old := store.nameOf rule
    let store := store.updateBook index (forgetName · old rule)
    let store := store.updateRule rule fun r => { r with name := some name }
    if store.isRegistered index rule then
      (.ok (), store.updateBook index fun book =>
        { book with rulesByName := book.rulesByName.insert name rule })
    else (.ok (), store)

/-- Take a rule off the tables where they hold it. -/
def unregister (store : RuleStore F) (index rule : Nat) : RuleStore F :=
  let registered := store.isRegistered index rule
  let id := store.idOf rule
  let name := store.nameOf rule
  store.updateBook index fun book =>
    let book := if registered then { book with rules := book.rules.erase id } else book
    forgetName book name rule

/-- Hand out the next id. -/
def newId (store : RuleStore F) (index : Nat) : Int × RuleStore F :=
  ((store.book index).nextId,
    store.updateBook index fun book => { book with nextId := book.nextId + 1 })

/-- Begin a rule: it is registered under a new id at once. -/
def build (store : RuleStore F) (index : Nat) : Nat × RuleStore F :=
  let (id, store) := store.newId index
  let (rule, store) := store.addRule (.new index id)
  (rule, (store.register index rule).2)

/-- The rule of an id or a name, if there is one.  Lists and mappings can not be names. -/
def get? (store : RuleStore F) (index : Nat) : Value → Except Failure (Option Nat)
  | .int id => .ok ((store.book index).rules.get? id)
  | .bool id => .ok ((store.book index).rules.get? (if id then 1 else 0))
  | .text name => .ok ((store.book index).rulesByName.get? name)
  | .list _ | .map _ => .error (.fault .wrongType "not a key")
  | _ => .ok none

/-- Give a rule a name if one is given, and keep it for good. -/
def persist (store : RuleStore F) (rule : Nat) (name : Option String) :
    Except Failure Unit × RuleStore F :=
  let book := ((store.rule? rule).map (·.book)).getD 0
  match name.elim (Except.ok (), store) (store.rename book rule) with
  | (.error failure, store) => (.error failure, store)
  | (.ok _, store) =>
    (.ok (), store.updateRule rule fun r => { r with persistent := true, lifetime := some .forever })

def missing (what : String) : Failure := .interaction (what ++ " can not be None")

/-- Set the trigger of a rule. -/
def setTrigger (store : RuleStore F) (rule : Nat) (trigger : ComponentRef) :
    Except Failure Unit × RuleStore F :=
  if trigger.isNone then (.error (missing "Trigger"), store)
  else (.ok (), store.updateRule rule fun r => { r with trigger := trigger })

/-- Add a condition to a rule. -/
def addCondition (store : RuleStore F) (rule : Nat) (condition : ComponentRef) :
    Except Failure Unit × RuleStore F :=
  if condition.isNone then (.error (missing "Condition"), store)
  else (.ok (), store.updateRule rule fun r => { r with conditions := r.conditions ++ [condition] })

/-- Add an action to a rule. -/
def addAction (store : RuleStore F) (rule : Nat) (action : ComponentRef) :
    Except Failure Unit × RuleStore F :=
  if action.isNone then (.error (missing "Action"), store)
  else (.ok (), store.updateRule rule fun r => { r with actions := r.actions ++ [action] })

end RuleStore

end Steward
