import Steward.Command.Invocation
import Steward.Command.Registry

/-!
# Walking a command tree

The traversal follows a line through a command tree: at every node its assertions are tested, its own
token is read, then its flags, and the next token selects a child, a literal before an argument.
Where the line ends, optional arguments are entered without being read.  It answers the executor to
run, the deepest on the way, or the outcome that ended the walk early.  It never waits.

A walk is a program: a finite tree of instructions.  `Walk.run` carries it out with the callbacks of
the tree.  Since parsers may move the cursor back, flags can be read without end, as can the elements
of a list; a walk is followed for a number of them that its environment chooses, and says so if there
are more.
-/

namespace Steward

/-- What a walk depends on besides the line: the callbacks of the tree. -/
structure WalkEnv (F σ : Type) where
  parser : F → Scan F → σ → Answer F × Reader × σ
  /-- Tests an assertion; a text says why it does not hold. -/
  assertion : F → Invocation F → σ → Except Failure (Option String) × σ
  /-- The first of some permissions that a member lacks, if permissions can be checked. -/
  lacking : Option (Account → List String → σ → Except Failure (Option String) × σ)
  /-- How many flags behind a token and elements of a list are followed, besides one for each
  character left. -/
  patience : Nat := 0

namespace WalkEnv

variable {F σ : Type}

/-- Test an assertion: why it does not hold, if so, or what ends the walk. -/
def test (env : WalkEnv F σ) (assertion : Assertion F) (invocation : Invocation F) (state : σ) :
    Except Halt (Option String) × σ :=
  match assertion with
  | .permissions paths =>
    match env.lacking with
    | none =>
      (.error (.reported (.erroneous "No permission manager available" .system none true none)), state)
    | some lacking =>
      match invocation.member with
      | none => (.ok (some "Permissions can only be checked in a guild"), state)
      | some member =>
        match lacking member paths state with
        | (.ok missing, state) =>
          (.ok (missing.map fun path => "Lacking permission `" ++ path ++ "`"), state)
        | (.error failure, state) => (.error (.ofRaised failure), state)
  | .platform names =>
    match invocation.message, invocation.member with
    | some message, some member =>
      let granted := message.channel.granted.getD ((member.membership.map (·.granted)).getD [])
      let missing := names.find? fun name => !granted.contains name
      (.ok (missing.map fun name => "Lacking permission `" ++ name ++ "`"), state)
    | _, _ => (.ok none, state)
  | .custom name =>
    match env.assertion name invocation state with
    | (.ok reason, state) => (.ok reason, state)
    | (.error failure, state) => (.error (.ofRaised failure), state)

/-- Read a value at the cursor of an invocation. -/
def read (env : WalkEnv F σ) (parser : Parser F) (invocation : Invocation F) (state : σ) :
    ParseResult Nat × Invocation F × σ :=
  let (result, scan, state) :=
    parser.read ⟨some invocation.origin, env.parser, env.patience⟩ invocation.scan state
  (result, { invocation with scan := scan }, state)

end WalkEnv

/-- A program that follows a line through a command tree. -/
inductive Walk (F α : Type) where
  | done (value : α)
  /-- End the walk early. -/
  | stop (halt : Halt)
  | look (next : Invocation F → Walk F α)
  | change (f : Invocation F → Invocation F) (next : Walk F α)
  /-- A node joins the chain. -/
  | join (node : Node F) (next : Walk F α)
  /-- Test an assertion; a text says why it does not hold. -/
  | test (assertion : Assertion F) (next : Option String → Walk F α)
  /-- Read a value at the cursor. -/
  | read (parser : Parser F) (next : ParseResult Nat → Walk F α)
  /-- Record a result that was read under a name. -/
  | record (table : ValueTable) (name : String) (result : ParseResult Nat) (next : Walk F α)

namespace Invocation

variable {F : Type}

/-- Join a node to the chain. -/
def visiting (invocation : Invocation F) (node : Node F) : Invocation F :=
  { invocation with chain := invocation.chain ++ [node] }

end Invocation

namespace Walk

variable {F σ α β : Type}

def bind : Walk F α → (α → Walk F β) → Walk F β
  | .done value, f => f value
  | .stop halt, _ => .stop halt
  | .look next, f => .look fun invocation => (next invocation).bind f
  | .change g next, f => .change g (next.bind f)
  | .join node next, f => .join node (next.bind f)
  | .test assertion next, f => .test assertion fun reason => (next reason).bind f
  | .read parser next, f => .read parser fun result => (next result).bind f
  | .record table name result next, f => .record table name result (next.bind f)

instance : Monad (Walk F) where
  pure := .done
  bind := .bind

/-- Carry out a walk. -/
def run (env : WalkEnv F σ) :
    Walk F α → Invocation F → σ → Except Halt α × Invocation F × σ
  | .done value, invocation, state => (.ok value, invocation, state)
  | .stop halt, invocation, state => (.error halt, invocation, state)
  | .look next, invocation, state => run env (next invocation) invocation state
  | .change f next, invocation, state => run env next (f invocation) state
  | .join node next, invocation, state => run env next (invocation.visiting node) state
  | .test assertion next, invocation, state =>
    match env.test assertion invocation state with
    | (.ok reason, state) => run env (next reason) invocation state
    | (.error halt, state) => (.error halt, invocation, state)
  | .read parser next, invocation, state =>
    match env.read parser invocation state with
    | (result, invocation, state) => run env (next result) invocation state
  | .record table name result next, invocation, state =>
    run env next (invocation.recordResult table name result) state

def get : Walk F (Invocation F) := .look .done

def modify (f : Invocation F → Invocation F) : Walk F Unit := .change f (.done ())

/-- A use of the reader. -/
def reading (f : Reader → α × Reader) : Walk F α :=
  .look fun invocation =>
    .change (·.withReader (f invocation.reader).2) (.done (f invocation.reader).1)

def skipSpace : Walk F Unit := reading fun reader => ((), reader.skipSpace)

/-- Consume the token at the cursor. -/
def token : Walk F String := reading (·.collect CharClass.notSpace)

/-- Test assertions in order; the first that does not hold ends the walk. -/
def testAssertions : List (Assertion F) → Walk F Unit
  | [] => .done ()
  | assertion :: rest =>
    .test assertion fun
      | some reason => .stop (.reported (.refused reason))
      | none => testAssertions rest

/-- Read a value and record it under a name; a failure ends the walk. -/
def readValue (table : ValueTable) (name : String) (parser : Parser F) : Walk F Unit :=
  .read parser fun
    | .settled (.error failure) => .stop (.ofParseFailure failure)
    | .endless => .stop .endless
    | result => .record table name result (.done ())

/-- Make the flags of a node known, under their names and aliases. -/
def knowFlags (flags : List (Flag F)) : Walk F Unit :=
  modify fun invocation =>
    { invocation with
      knownFlags := flags.foldl
        (fun known flag => (flag.name :: flag.aliases).foldl (fun known name => known.insert name flag) known)
        invocation.knownFlags }

/-- Make the argument below a node known, unless one of its name is. -/
def knowArgument (node : Node F) : Walk F Unit :=
  match node.argumentChild? with
  | none => .done ()
  | some child => modify fun invocation =>
    { invocation with knownArguments := invocation.knownArguments.insertNew child.name child }

/-- Read one flag after its dash. -/
def readFlag : Walk F Unit := do
  reading fun reader => ((), reader.advance)
  let start := (← get).reader.index
  let name ← token
  let invocation ← get
  match invocation.knownFlags.get? name with
  | none =>
    let span := invocation.reader.span start ((invocation.reader.index : Int) - 1)
    .stop (.reported
      (.erroneous ("No flag by alias `" ++ name ++ "`") .unknownFlag (some span) false none))
  | some flag =>
    match flag.parser with
    | none => .record .flags flag.name (.settled (.ok (.bool true))) (.done ())
    | some parser => do
      skipSpace
      readValue .flags flag.name parser
    skipSpace

/-- Read flags while a dash follows.  `fuel` is how many of them are followed. -/
def readFlags : Nat → Walk F Unit
  | 0 => do
    if (← get).reader.current = '-' then .stop .endless
    else .done ()
  | fuel + 1 => do
    if (← get).reader.current = '-' then
      readFlag
      readFlags fuel
    else .done ()

/-- Enter a node: it joins the chain if its assertions hold. -/
def enter (node : Node F) : Walk F Unit := .join node (testAssertions node.head.assertions)

/-- Read a node's own token: a literal's is passed over, an argument's value is recorded. -/
def readOwn (node : Node F) : Walk F Unit :=
  match node.head.kind with
  | .literal => do let _ ← token
  | .argument parser => readValue .arguments node.name parser

def executorBelow (node : Node F) (executor : Option F) : Option F :=
  match node.head.executor with
  | some own => some own
  | none => executor

mutual

/-- Enter a node that the line's end left out, and go on with the argument below it. -/
def fill : Node F → Option F → Walk F (Option F)
  | .node head children, executor =>
    let node : Node F := .node head children
    if node.isLiteral || !head.optional then .done executor
    else do
      enter node
      knowFlags head.flags
      knowArgument node
      match fillArgument children (executorBelow node executor) with
      | some next => next
      | none => .done (executorBelow node executor)

/-- Fill the first argument among some nodes, if there is one. -/
def fillArgument : List (Node F) → Option F → Option (Walk F (Option F))
  | [], _ => none
  | child :: rest, executor =>
    if child.isLiteral then fillArgument rest executor else some (fill child executor)

end

mutual

/-- Visit a node with the cursor at its token, and go on below it. -/
def visit (patience : Nat) : Node F → Option F → Walk F (Option F)
  | .node head children, executor =>
    let node : Node F := .node head children
    do
      enter node
      readOwn node
      knowFlags head.flags
      skipSpace
      readFlags ((← get).reader.remaining.length + patience)
      knowArgument node
      skipSpace
      let executor := executorBelow node executor
      let reader := (← get).reader
      if reader.atEnd then
        match fillArgument children executor with
        | some next => next
        | none => .done executor
      else
        let next := reader.upcoming CharClass.notSpace
        match visitSelected patience (Node.isSelectedBy next) children executor with
        | some visitChild => visitChild
        | none =>
          match visitSelected patience (!·.isLiteral) children executor with
          | some visitChild => visitChild
          | none =>
            let unknown ← token
            .stop (.reported (.fail ("No subcommand by name `" ++ unknown ++ "`")))

/-- Visit the first selected node, if there is one. -/
def visitSelected (patience : Nat) (isSelected : Node F → Bool) :
    List (Node F) → Option F → Option (Walk F (Option F))
  | [], _ => none
  | child :: rest, executor =>
    if isSelected child then some (visit patience child executor)
    else visitSelected patience isSelected rest executor

end

/-- Find the command of a line and walk its tree. -/
def ofLine (patience : Nat) (registry : CommandRegistry F) : Walk F (Option F) := do
  let name := LowerCase.lower ((← get).reader.upcoming CharClass.notSpace)
  match registry.table.get? name with
  | none => .stop (.reported (.fail ("No command by name `" ++ name ++ "`")))
  | some command =>
    modify fun invocation => { invocation with command := some command }
    if (← get).reader.atEnd then fill command none else visit patience command none

end Walk

end Steward
