import Mathlib.Data.List.Chain
import Steward.Proofs.Command.WalkTrace
import Steward.Proofs.Parse.Lookups

/-!
# How far a walk gets

The invariant of a walk is `Walk.Advance`: the nodes that joined the chain, each
with its assertions tested and held in order, the results that were read, none
of them a failure, and the lookups that have to be awaited for them.  Every part
of a walk keeps it, and parts in a row add up.

The main results follow the walk of a tree down from a node, by induction on the
tree.  A visit that is not stopped goes along a path of children and ends where
the line does; filling in what the line's end left out goes along such a path
without moving the reader.
-/

namespace Steward

variable {F σ : Type}

/-! ## Trees -/

/-- Reason about a node from its children. -/
theorem Node.inductionOn {motive : Node F → Prop}
    (step : ∀ head children, (∀ child ∈ children, motive child) →
      motive (.node head children)) :
    ∀ node, motive node
  | .node head children =>
      step head children fun child _ => inductionOn step child

/-- Each node is a child of the one before it, and the first one is given. -/
structure Node.IsPathFrom (start : Node F) (nodes : List (Node F)) : Prop where
  starts : ∀ first ∈ nodes.head?, first = start
  descends : nodes.IsChain fun parent child => child ∈ parent.children

namespace Node.IsPathFrom

variable {node child : Node F} {nodes : List (Node F)}

theorem nil : IsPathFrom node [] := by
  exact ⟨by simp, .nil⟩

theorem singleton : IsPathFrom node [node] := by
  exact ⟨by simp, .singleton node⟩

/-- A path from a child is one from its parent. -/
theorem cons (below : IsPathFrom child nodes) (member : child ∈ node.children) :
    IsPathFrom node (node :: nodes) := by
  cases nodes with
  | nil =>
      exact .singleton
  | cons first rest =>
      cases below.starts first rfl
      exact ⟨by simp, .cons_cons member below.descends⟩

end Node.IsPathFrom

/-- The deepest executor among some nodes, or the one from before. -/
def Node.deepestExecutor (before : Option F) (nodes : List (Node F)) : Option F :=
  nodes.foldl (fun executor node => Walk.executorBelow node executor) before

theorem Node.deepestExecutor_eq (before : Option F) (nodes : List (Node F)) :
    Node.deepestExecutor before nodes =
      ((nodes.filterMap (·.head.executor)).getLast?).or before := by
  induction nodes generalizing before with
  | nil =>
      simp [deepestExecutor]
  | cons node rest ih =>
      rw [deepestExecutor, List.foldl_cons, ← deepestExecutor, ih]
      cases own : node.head.executor with
      | none =>
          simp [Walk.executorBelow, own]
      | some executor =>
          have found : (node :: rest).filterMap (·.head.executor) =
              executor :: rest.filterMap (·.head.executor) := by
            simp [own]
          rw [found, List.getLast?_cons]
          cases (rest.filterMap (·.head.executor)).getLast? <;> simp [Walk.executorBelow, own]

namespace Walk

/-! ## The invariant of a walk -/

/-- Whether an event is about entering nodes. -/
def Event.isPassage : Event F → Bool
  | .joined _ | .tested .. => true
  | .read .. | .recorded .. => false

/-- The lookup that a result that was read waits for. -/
def Event.lookup? : Event F → Option Nat
  | .read _ (.pending lookup) => some lookup
  | _ => none

/-- The lookup that a result that was recorded waits for. -/
def Event.recorded? : Event F → Option Nat
  | .recorded _ _ (.pending lookup) => some lookup
  | _ => none

/-- What a walk stops with where a result was read that is no value and will not be settled later. -/
def halt? : ParseResult Nat → Option Halt
  | .settled (.error failure) => some (.ofParseFailure failure)
  | .endless => some .endless
  | .settled (.ok _) | .pending _ => none

/-- Reading a value goes on only with what is or may become one. -/
theorem readValue_eq (table : ValueTable) (name : String) (parser : Parser F) :
    readValue table name parser = .read parser fun result =>
      match halt? result with
      | some halt => .stop halt
      | none => .record table name result (.done ()) := by
  refine congrArg (Walk.read parser) (funext fun result => ?_)
  rcases result with (failure | value) | lookup | _ <;> rfl

/-- What it takes to enter a node: it joins the chain, and its assertions are
tested in order and hold. -/
def passage (node : Node F) : List (Event F) :=
  .joined node :: node.head.assertions.map fun assertion => .tested assertion (.ok none)

/-- How far a part of a walk gets that is not stopped: the nodes that joined the
chain meanwhile, and the events. -/
structure Advance
    (start stop : Invocation F) (joined : List (Node F)) (events : List (Event F)) : Prop where
  chain : stop.chain = start.chain ++ joined
  command : stop.command = start.command
  outcomes : stop.outcomes = start.outcomes
  passages : events.filter Event.isPassage = joined.flatMap passage
  sound : ∀ parser result, .read parser result ∈ events → halt? result = none
  awaited : stop.awaited = start.awaited ++ events.filterMap Event.lookup?
  recorded : events.filterMap Event.recorded? = events.filterMap Event.lookup?
  grows : start.scan.lookups.length ≤ stop.scan.lookups.length
  begun : ∀ lookup ∈ events.filterMap Event.lookup?, lookup < stop.scan.lookups.length

namespace Advance

variable {start middle stop : Invocation F} {first second : List (Node F)}
  {events further : List (Event F)}

theorem trans
    (left : Advance start middle first events)
    (right : Advance middle stop second further) :
    Advance start stop (first ++ second) (events ++ further) where
  chain := by
    rw [right.chain, left.chain, List.append_assoc]
  command := right.command.trans left.command
  outcomes := right.outcomes.trans left.outcomes
  passages := by
    rw [List.filter_append, left.passages, right.passages, List.flatMap_append]
  sound := by
    intro parser result member
    rcases List.mem_append.1 member with earlier | later
    · exact left.sound parser result earlier
    · exact right.sound parser result later
  awaited := by
    rw [right.awaited, left.awaited, List.filterMap_append, List.append_assoc]
  recorded := by
    rw [List.filterMap_append, List.filterMap_append, left.recorded, right.recorded]
  grows := Nat.le_trans left.grows right.grows
  begun := by
    intro lookup member
    rw [List.filterMap_append] at member
    rcases List.mem_append.1 member with earlier | later
    · exact Nat.lt_of_lt_of_le (left.begun lookup earlier) right.grows
    · exact right.begun lookup later

/-- A part of a walk that reads and enters nothing. -/
theorem silent
    (chain : stop.chain = start.chain) (command : stop.command = start.command)
    (outcomes : stop.outcomes = start.outcomes) (awaited : stop.awaited = start.awaited)
    (lookups : stop.scan.lookups = start.scan.lookups) :
    Advance start stop [] [] where
  chain := by simp [chain]
  command := command
  outcomes := outcomes
  passages := rfl
  sound := by simp
  awaited := by simp [awaited]
  recorded := rfl
  grows := by simp [lookups]
  begun := by simp

theorem refl (start : Invocation F) : Advance start start [] [] := by
  exact .silent rfl rfl rfl rfl rfl

end Advance

end Walk

/-! ## Recording a result -/

namespace Invocation

variable (invocation : Invocation F) (table : ValueTable) (name : String)
  (result : ParseResult Nat)

@[simp]
theorem recordResult_chain :
    (invocation.recordResult table name result).chain = invocation.chain := by
  cases table <;> cases result <;> rfl

@[simp]
theorem recordResult_command :
    (invocation.recordResult table name result).command = invocation.command := by
  cases table <;> cases result <;> rfl

@[simp]
theorem recordResult_outcomes :
    (invocation.recordResult table name result).outcomes = invocation.outcomes := by
  cases table <;> cases result <;> rfl

@[simp]
theorem recordResult_scan :
    (invocation.recordResult table name result).scan = invocation.scan := by
  cases table <;> cases result <;> rfl

@[simp]
theorem recordResult_awaited_settled (outcome : Except Failure Value) :
    (invocation.recordResult table name (.settled outcome)).awaited = invocation.awaited := by
  cases table <;> rfl

@[simp]
theorem recordResult_awaited_pending (lookup : Nat) :
    (invocation.recordResult table name (.pending lookup)).awaited =
      invocation.awaited ++ [lookup] := by
  cases table <;> rfl

end Invocation

namespace Walk

/-! ## The parts of a visit -/

section Parts

variable {env : WalkEnv F σ} {start stop : Invocation F} {state after : σ}
  {events : List (Event F)}

theorem reading_advance {α : Type} {answer : α} {f : Reader → α × Reader}
    (goes : (reading f).Goes env start state events answer stop after) :
    Advance start stop [] events := by
  simp only [reading, goes_look_iff, goes_change_iff, goes_done_iff] at goes
  rcases goes with ⟨rfl, -, rfl, -⟩
  exact .silent rfl rfl rfl rfl rfl

theorem knowFlags_advance {flags : List (Flag F)} {answer : Unit}
    (goes : (knowFlags flags).Goes env start state events answer stop after) :
    Advance start stop [] events ∧ stop.reader = start.reader := by
  simp only [knowFlags, modify, goes_change_iff, goes_done_iff] at goes
  rcases goes with ⟨rfl, -, rfl, -⟩
  exact ⟨.silent rfl rfl rfl rfl rfl, rfl⟩

theorem knowArgument_advance {node : Node F} {answer : Unit}
    (goes : (knowArgument node).Goes env start state events answer stop after) :
    Advance start stop [] events ∧ stop.reader = start.reader := by
  unfold knowArgument at goes
  split at goes
  · simp only [goes_done_iff] at goes
    rcases goes with ⟨rfl, -, rfl, -⟩
    exact ⟨.refl start, rfl⟩
  · simp only [modify, goes_change_iff, goes_done_iff] at goes
    rcases goes with ⟨rfl, -, rfl, -⟩
    exact ⟨.silent rfl rfl rfl rfl rfl, rfl⟩

/-- Assertions after which a walk goes on have all been tested and hold. -/
theorem testAssertions_goes {assertions : List (Assertion F)} {answer : Unit}
    (goes : (testAssertions assertions).Goes env start state events answer stop after) :
    stop = start ∧ events = assertions.map fun assertion => .tested assertion (.ok none) := by
  induction assertions generalizing state events with
  | nil =>
      simp only [testAssertions, goes_done_iff] at goes
      rcases goes with ⟨rfl, -, rfl, -⟩
      exact ⟨rfl, rfl⟩
  | cons assertion rest ih =>
      rw [testAssertions, goes_test_iff] at goes
      rcases goes with ⟨reason, between, later, -, goes, rfl⟩
      cases reason with
      | some reason =>
          exact absurd goes (not_goes_stop _)
      | none =>
          rcases ih goes with ⟨unchanged, rfl⟩
          exact ⟨unchanged, rfl⟩

/-- A node that was entered has joined the chain, and its assertions held. -/
theorem enter_advance {node : Node F} {answer : Unit}
    (goes : (enter node).Goes env start state events answer stop after) :
    Advance start stop [node] events ∧ stop.reader = start.reader := by
  rw [enter, goes_join_iff] at goes
  rcases goes with ⟨tests, goes, rfl⟩
  rcases testAssertions_goes goes with ⟨rfl, rfl⟩
  refine ⟨?_, rfl⟩
  constructor
  · rfl
  · rfl
  · rfl
  · simp [passage, Event.isPassage]
  · simp
  · simp [Event.lookup?, Invocation.visiting]
  · simp [List.filterMap_cons, List.filterMap_map, Function.comp_def, Event.recorded?,
      Event.lookup?]
  · exact Nat.le_refl _
  · simp [Event.lookup?]

theorem recordSettled_advance {table : ValueTable} {name : String}
    {outcome : Except Failure Value} {answer : Unit}
    (goes : (record table name (.settled outcome) (.done ())).Goes env start state events
      answer stop after) :
    Advance start stop [] events := by
  simp only [goes_record_iff, goes_done_iff] at goes
  rcases goes with ⟨_, ⟨rfl, -, rfl, -⟩, rfl⟩
  constructor <;> simp [List.filterMap_cons, Event.isPassage, Event.recorded?, Event.lookup?]

/-- A value that was read is no failure, and if it is pending it has to be
awaited. -/
theorem readValue_advance {table : ValueTable} {name : String} {parser : Parser F}
    {answer : Unit}
    (goes : (readValue table name parser).Goes env start state events answer stop after) :
    Advance start stop [] events := by
  rw [readValue, goes_read_iff] at goes
  rcases goes with ⟨result, reached, between, rest, read, goes, rfl⟩
  have begins := parser.read_begins ⟨some start.origin, env.parser, env.patience⟩ start.scan state
  simp only [WalkEnv.read, Prod.mk.injEq] at read
  rcases read with ⟨rfl, rfl, -⟩
  generalize (parser.read _ start.scan state).1 = result at begins goes ⊢
  generalize (parser.read _ start.scan state).2.1 = scan at begins goes
  have grows := begins.grows
  cases result with
  | settled outcome =>
      cases outcome with
      | error failure =>
          exact absurd goes (not_goes_stop _)
      | ok value =>
          simp only [goes_record_iff, goes_done_iff] at goes
          rcases goes with ⟨_, ⟨rfl, -, rfl, -⟩, rfl⟩
          constructor <;>
            simp [List.filterMap_cons, Event.isPassage, Event.recorded?, Event.lookup?, halt?, grows]
  | pending lookup =>
      have begun := begins.begun lookup rfl
      simp only [goes_record_iff, goes_done_iff] at goes
      rcases goes with ⟨_, ⟨rfl, -, rfl, -⟩, rfl⟩
      constructor <;>
        simp [List.filterMap_cons, Event.isPassage, Event.recorded?, Event.lookup?, halt?, grows,
          begun]
  | endless =>
      exact absurd goes (not_goes_stop _)

theorem readOwn_advance {node : Node F} {answer : Unit}
    (goes : (readOwn node).Goes env start state events answer stop after) :
    Advance start stop [] events := by
  unfold readOwn at goes
  split at goes
  · rw [goes_seq_iff] at goes
    rcases goes with ⟨_, _, _, _, _, goes, done, rfl⟩
    rcases (goes_pure_iff _).1 done with ⟨rfl, -, rfl, -⟩
    simpa using reading_advance goes
  · exact readValue_advance goes

theorem readFlag_advance {answer : Unit}
    (goes : readFlag.Goes env start state events answer stop after) :
    Advance start stop [] events := by
  rw [readFlag, goes_seq_iff] at goes
  rcases goes with ⟨_, _, _, _, _, dash, goes, rfl⟩
  rw [goes_get_seq_iff, goes_seq_iff] at goes
  rcases goes with ⟨_, _, _, _, _, name, goes, rfl⟩
  rw [goes_get_seq_iff] at goes
  refine (reading_advance dash).trans ((reading_advance name).trans ?_)
  split at goes
  · exact absurd goes (not_goes_stop _)
  · split at goes
    · rw [goes_seq_iff] at goes
      rcases goes with ⟨_, _, _, _, _, record, space, rfl⟩
      exact (recordSettled_advance record).trans (reading_advance space)
    · rw [goes_seq_iff] at goes
      rcases goes with ⟨_, _, _, _, _, space, goes, rfl⟩
      rw [goes_seq_iff] at goes
      rcases goes with ⟨_, _, _, _, _, value, space', rfl⟩
      exact (reading_advance space).trans
        ((readValue_advance value).trans (reading_advance space'))

/-- A search for flags that may not follow any ends where there is none. -/
theorem readFlags_zero_goes_iff {answer : Unit} :
    (readFlags 0).Goes env start state events answer stop after ↔
      start.reader.current ≠ '-' ∧ events = [] ∧ start = stop ∧ state = after := by
  rw [readFlags, goes_get_seq_iff]
  split
  · rename_i dash
    exact iff_of_false (not_goes_stop _) fun stays => stays.1 dash
  · rename_i noDash
    simp [noDash]

theorem readFlags_advance {fuel : Nat} {answer : Unit}
    (goes : (readFlags fuel).Goes env start state events answer stop after) :
    Advance start stop [] events := by
  induction fuel generalizing start state events with
  | zero =>
      rcases readFlags_zero_goes_iff.1 goes with ⟨-, rfl, rfl, -⟩
      exact .refl start
  | succ fuel ih =>
      rw [readFlags, goes_get_seq_iff] at goes
      split at goes
      · rw [goes_seq_iff] at goes
        rcases goes with ⟨_, _, _, _, _, flag, goes, rfl⟩
        exact (readFlag_advance flag).trans (ih goes)
      · rcases (goes_done_iff _).1 goes with ⟨rfl, -, rfl, -⟩
        exact .refl start

/-! ## The way down a tree -/

theorem exists_of_fillArgument {children : List (Node F)} {executor : Option F}
    {next : Walk F (Option F)} (found : fillArgument children executor = some next) :
    ∃ child ∈ children, child.isLiteral = false ∧ next = fill child executor := by
  induction children with
  | nil =>
      simp [fillArgument] at found
  | cons child rest ih =>
      rw [fillArgument] at found
      split at found
      · rcases ih found with ⟨other, member, argument, rfl⟩
        exact ⟨other, List.mem_cons_of_mem _ member, argument, rfl⟩
      · rename_i argument
        cases found
        exact ⟨child, List.mem_cons_self, by simpa using argument, rfl⟩

theorem exists_of_visitSelected {patience : Nat} {isSelected : Node F → Bool}
    {children : List (Node F)} {executor : Option F} {next : Walk F (Option F)}
    (found : visitSelected patience isSelected children executor = some next) :
    ∃ child ∈ children, isSelected child = true ∧ next = visit patience child executor := by
  induction children with
  | nil =>
      simp [visitSelected] at found
  | cons child rest ih =>
      rw [visitSelected] at found
      split at found
      · rename_i selected
        cases found
        exact ⟨child, List.mem_cons_self, selected, rfl⟩
      · rcases ih found with ⟨other, member, selected, rfl⟩
        exact ⟨other, List.mem_cons_of_mem _ member, selected, rfl⟩

/-- Filling in what the end of the line left out goes along a path of children,
and the reader stays where it is. -/
theorem fill_goes (node : Node F) {executor answer : Option F}
    (goes : (fill node executor).Goes env start state events answer stop after) :
    ∃ nodes,
      Advance start stop nodes events ∧
      node.IsPathFrom nodes ∧
      answer = Node.deepestExecutor executor nodes ∧
      stop.reader = start.reader := by
  induction node using Node.inductionOn generalizing start state events executor with
  | step head children ih =>
      rw [fill] at goes
      split at goes
      · rcases (goes_done_iff _).1 goes with ⟨rfl, rfl, rfl, -⟩
        exact ⟨[], .refl start, .nil, rfl, rfl⟩
      · rw [goes_seq_iff] at goes
        rcases goes with ⟨_, _, _, _, _, enters, goes, rfl⟩
        rw [goes_seq_iff] at goes
        rcases goes with ⟨_, _, _, _, _, flags, goes, rfl⟩
        rw [goes_seq_iff] at goes
        rcases goes with ⟨_, _, _, _, _, argument, goes, rfl⟩
        rcases enter_advance enters with ⟨enters, atNode⟩
        rcases knowFlags_advance flags with ⟨flags, atFlags⟩
        rcases knowArgument_advance argument with ⟨argument, atArgument⟩
        have entered := enters.trans (flags.trans argument)
        have stays := (atArgument.trans atFlags).trans atNode
        split at goes
        · rename_i found
          rcases exists_of_fillArgument found with ⟨child, member, -, rfl⟩
          rcases ih child member goes with ⟨nodes, advance, path, rfl, below⟩
          refine ⟨.node head children :: nodes, ?_, path.cons member, rfl, below.trans stays⟩
          simpa using entered.trans advance
        · rcases (goes_done_iff _).1 goes with ⟨rfl, rfl, rfl, -⟩
          exact ⟨[.node head children], by simpa using entered, .singleton, rfl, stays⟩

/-- A visit that is not stopped goes along a path of children, and the reader
ends where the line does. -/
theorem visit_goes (node : Node F) {patience : Nat} {executor answer : Option F}
    (goes : (visit patience node executor).Goes env start state events answer stop after) :
    ∃ nodes,
      Advance start stop nodes events ∧
      node.IsPathFrom nodes ∧
      answer = Node.deepestExecutor executor nodes ∧
      stop.reader.atEnd = true := by
  induction node using Node.inductionOn generalizing start state events executor with
  | step head children ih =>
      rw [visit, goes_seq_iff] at goes
      rcases goes with ⟨_, _, _, _, _, enters, goes, rfl⟩
      rw [goes_seq_iff] at goes
      rcases goes with ⟨_, _, _, _, _, own, goes, rfl⟩
      rw [goes_seq_iff] at goes
      rcases goes with ⟨_, _, _, _, _, known, goes, rfl⟩
      rw [goes_seq_iff] at goes
      rcases goes with ⟨_, _, _, _, _, space, goes, rfl⟩
      rw [goes_get_seq_iff, goes_seq_iff] at goes
      rcases goes with ⟨_, _, _, _, _, flags, goes, rfl⟩
      rw [goes_seq_iff] at goes
      rcases goes with ⟨_, _, _, _, _, argument, goes, rfl⟩
      rw [goes_seq_iff] at goes
      rcases goes with ⟨_, _, reached, _, _, space', goes, rfl⟩
      rw [goes_get_seq_iff] at goes
      dsimp only at goes
      have entered :=
        (enter_advance enters).1.trans <|
          (readOwn_advance own).trans <|
            (knowFlags_advance known).1.trans <|
              (reading_advance space).trans <|
                (readFlags_advance flags).trans <|
                  (knowArgument_advance argument).1.trans (reading_advance space')
      split at goes
      · rename_i atEnd
        split at goes
        · -- The line ends here, and an argument below is filled in.
          rename_i found
          rcases exists_of_fillArgument found with ⟨child, member, -, rfl⟩
          rcases fill_goes child goes with ⟨nodes, advance, path, rfl, stays⟩
          refine ⟨.node head children :: nodes, ?_, path.cons member, rfl, ?_⟩
          · simpa using entered.trans advance
          · rw [stays]
            exact atEnd
        · rcases (goes_done_iff _).1 goes with ⟨rfl, rfl, rfl, -⟩
          exact ⟨[.node head children], by simpa using entered, .singleton, rfl, atEnd⟩
      · split at goes
        · -- A literal below matches the next token.
          rename_i found
          rcases exists_of_visitSelected found with ⟨child, member, -, rfl⟩
          rcases ih child member goes with ⟨nodes, advance, path, rfl, ends⟩
          refine ⟨.node head children :: nodes, ?_, path.cons member, rfl, ends⟩
          simpa using entered.trans advance
        · split at goes
          · -- None does, and an argument below reads the next token.
            rename_i found
            rcases exists_of_visitSelected found with ⟨child, member, -, rfl⟩
            rcases ih child member goes with ⟨nodes, advance, path, rfl, ends⟩
            refine ⟨.node head children :: nodes, ?_, path.cons member, rfl, ends⟩
            simpa using entered.trans advance
          · rw [goes_seq_iff] at goes
            rcases goes with ⟨_, _, _, _, _, _, goes, rfl⟩
            exact absurd goes (not_goes_stop _)

/-- The command that the first token of a line names. -/
def commandOf (registry : CommandRegistry F) (reader : Reader) : Option (Node F) :=
  registry.table.get? (LowerCase.lower (reader.upcoming CharClass.notSpace))

/-- A line's walk that is not stopped has found the line's command, and goes along
a path from it to the end of the line. -/
theorem ofLine_goes {patience : Nat} {registry : CommandRegistry F} {answer : Option F}
    (goes : (ofLine patience registry).Goes env start state events answer stop after) :
    ∃ command nodes,
      commandOf registry start.reader = some command ∧
      Advance { start with command := some command } stop nodes events ∧
      command.IsPathFrom nodes ∧
      answer = Node.deepestExecutor none nodes ∧
      stop.reader.atEnd = true := by
  rw [ofLine, goes_get_seq_iff] at goes
  dsimp only at goes
  split at goes
  · exact absurd goes (not_goes_stop _)
  · rename_i command found
    rw [goes_seq_iff] at goes
    rcases goes with ⟨_, _, _, _, _, modified, goes, rfl⟩
    simp only [modify, goes_change_iff, goes_done_iff] at modified
    rcases modified with ⟨rfl, -, rfl, rfl⟩
    rw [goes_get_seq_iff] at goes
    split at goes
    · rename_i atEnd
      rcases fill_goes command goes with ⟨nodes, advance, path, rfl, stays⟩
      refine ⟨command, nodes, found, advance, path, rfl, ?_⟩
      rw [stays]
      exact atEnd
    · rcases visit_goes command goes with ⟨nodes, advance, path, rfl, ends⟩
      exact ⟨command, nodes, found, advance, path, rfl, ends⟩

end Parts

end Walk

end Steward
