import Steward.Command.Node
import Steward.Command.Result
import Steward.Loop.Activity

/-!
# Invocations

An invocation is the state of one command run: the line as far as it is read, the nodes visited, the
flags and arguments they brought, and the results read for them.  Reading a value that was not given
asks for its default once and keeps it.
-/

namespace Steward

structure Invocation (F : Type) where
  scan : Scan F
  message : Option Message
  origin : Origin
  command : Option (Node F)
  /-- The visited nodes, in order. -/
  chain : List (Node F)
  knownFlags : OrderedMap String (Flag F)
  knownArguments : OrderedMap String (Node F)
  flagResults : OrderedMap String (ParseResult Nat)
  argumentResults : OrderedMap String (ParseResult Nat)
  /-- The lookups that arguments and flags depend on, in the order of reading. -/
  awaited : List Nat
  /-- How awaited lookups ended. -/
  outcomes : OrderedMap Nat (Except Failure Value)
  /-- The tasks of the lookups, once they run. -/
  tasks : List TaskId
  /-- Whether the stage of execution was reached. -/
  executed : Bool

/-- The two tables of values. -/
inductive ValueTable where
  | arguments
  | flags
  deriving DecidableEq, Repr

namespace Invocation

variable {F σ : Type}

def ofText (text : String) : Invocation F where
  scan := .ofReader (.ofString text)
  message := none
  origin := ⟨.null, none, none⟩
  command := none
  chain := []
  knownFlags := .empty
  knownArguments := .empty
  flagResults := .empty
  argumentResults := .empty
  awaited := []
  outcomes := .empty
  tasks := []
  executed := false

/-- An invocation that reads the content of a message; a message without one can not be read. -/
def ofMessage (message : Message) (client : Option Client) : Except Failure (Invocation F) :=
  match message.content with
  | none => .error (.fault .wrongType "a message without content")
  | some content => .ok
    { ofText content with
      message := some message
      origin := ⟨.account message.author, client, message.guild⟩ }

def reader (invocation : Invocation F) : Reader := invocation.scan.reader

def withReader (invocation : Invocation F) (reader : Reader) : Invocation F :=
  { invocation with scan := { invocation.scan with reader := reader } }

/-- The invoking member, in a guild. -/
def member (invocation : Invocation F) : Option Account := invocation.message.bind Message.member

def currentNode (invocation : Invocation F) : Option (Node F) := invocation.chain.getLast?

def results (invocation : Invocation F) : ValueTable → OrderedMap String (ParseResult Nat)
  | .arguments => invocation.argumentResults
  | .flags => invocation.flagResults

/-- The default of the argument or flag known under a name. -/
def fallback? (invocation : Invocation F) (table : ValueTable) (name : String) :
    Option (Supplier F) :=
  match table with
  | .arguments => (invocation.knownArguments.get? name).bind (·.head.fallback)
  | .flags => (invocation.knownFlags.get? name).bind (·.fallback)

def setResult (invocation : Invocation F) (table : ValueTable) (name : String)
    (result : ParseResult Nat) : Invocation F :=
  match table with
  | .arguments =>
    { invocation with argumentResults := invocation.argumentResults.insert name result }
  | .flags => { invocation with flagResults := invocation.flagResults.insert name result }

/-- Record a result that was read, and that it has to be awaited. -/
def recordResult (invocation : Invocation F) (table : ValueTable) (name : String)
    (result : ParseResult Nat) : Invocation F :=
  let recorded := invocation.setResult table name result
  match result with
  | .settled _ | .endless => recorded
  | .pending lookup => { recorded with awaited := recorded.awaited ++ [lookup] }

/-- How a result stands: its outcome, if it has one. -/
def outcome? (invocation : Invocation F) : ParseResult Nat → Option (Except Failure Value)
  | .settled outcome => some outcome
  | .pending lookup => invocation.outcomes.get? lookup
  | .endless => none

/-- The value of a result; null unless it is a success. -/
def valueOf (invocation : Invocation F) (result : ParseResult Nat) : Value :=
  match invocation.outcome? result with
  | some (.ok value) => value
  | _ => .null

/-- Whether a value is at hand under a name. -/
def has (invocation : Invocation F) (table : ValueTable) (name : String) : Bool :=
  (invocation.results table).contains name

/-- Reads a value under a name, with a default of the read's own. -/
abbrev ReadValue (F σ : Type) :=
  ValueTable → String → Option Value → Invocation F → σ → Except Failure Value × Invocation F × σ

/-- Computes a default value; it may read other values. -/
abbrev Supply (F σ : Type) :=
  F → ReadValue F σ → Invocation F → σ → Except Failure Value × Invocation F × σ

/-- Read a value: the recorded one, else the default of its owner, which is then recorded, else the
read's own default.  `depth` bounds how deep defaults read other defaults. -/
def readWithin (supply : Supply F σ) : Nat → ReadValue F σ
  | depth, table, name, ownDefault, invocation, state =>
    match (invocation.results table).get? name with
    | some result => (.ok (invocation.valueOf result), invocation, state)
    | none =>
      match invocation.fallback? table name with
      | some (.constant value) =>
        (.ok value, invocation.setResult table name (.settled (.ok value)), state)
      | some (.custom supplier) =>
        match depth with
        | 0 => (.error (.fault .tooDeep "defaults depend on each other"), invocation, state)
        | depth + 1 =>
          match supply supplier (readWithin supply depth) invocation state with
          | (.ok value, invocation, state) =>
            (.ok value, invocation.setResult table name (.settled (.ok value)), state)
          | (.error failure, invocation, state) => (.error failure, invocation, state)
      | none =>
        match ownDefault with
        | some value => (.ok value, invocation, state)
        | none => (.error (.absentValue name), invocation, state)

/-- Read a value.  Defaults that do not depend on each other are at most as deep as there are
names. -/
def readValue (supply : Supply F σ) : ReadValue F σ := fun table name ownDefault invocation state =>
  readWithin supply (invocation.knownArguments.size + invocation.knownFlags.size + 1) table name
    ownDefault invocation state

/-- The lead and name of the command. -/
def commandLabel (invocation : Invocation F) : Option String :=
  invocation.command.map fun node => node.head.lead.getD "" ++ node.name

/-- How an invocation is shown. -/
def form (invocation : Invocation F) : String :=
  let name : Value := invocation.command.elim .null fun node => .text node.name
  s!"CommandContext(command={name.quoted}, reader={invocation.reader.form})"

end Invocation

end Steward
