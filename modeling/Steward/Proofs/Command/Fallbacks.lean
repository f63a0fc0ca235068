import Steward.Proofs.Command.Clearance
import Steward.Proofs.Command.Leading

/-!
# The defaults of arguments that are left out

A node of the chain makes the argument below it known by its name, whether or not
the line goes on to that argument, and the first one known under a name stays.  So
when an executor asks for an argument that the line left out, it is given the
default of the first argument of that name below the nodes of the chain, which
need not be the argument that the walk entered.

`Walk.Learns` says what a part of a walk makes known.  The main result states when
an argument that was left out is read with its own default.
-/

namespace Steward

variable {F σ J : Type}

/-- The first argument of a name below some nodes, in their order. -/
def Node.announced (nodes : List (Node F)) (name : String) : Option (Node F) :=
  (nodes.filterMap Node.argumentChild?).find? (·.name = name)

namespace Node

theorem announced_append (first second : List (Node F)) (name : String) :
    announced (first ++ second) name = (announced first name).or (announced second name) := by
  rw [announced, List.filterMap_append, List.find?_append]
  rfl

theorem announced_singleton (node : Node F) (name : String) :
    announced [node] name = node.argumentChild?.filter (·.name = name) := by
  cases found : node.argumentChild? with
  | none =>
      simp [announced, found]
  | some child =>
      by_cases same : child.name = name <;> simp [announced, found, Option.filter, same]

end Node

/-! ## What a walk makes known -/

/-- A node of a chain is a literal, or a result was recorded under its name, or it can be
left out. -/
def Invocation.AccountsFor (invocation : Invocation F) (node : Node F) : Prop :=
  node.isLiteral = false → invocation.has .arguments node.name = false →
    node.head.optional = true

namespace Invocation

variable (invocation : Invocation F) (table : ValueTable) (name : String)
  (result : ParseResult Nat)

@[simp]
theorem recordResult_knownArguments :
    (invocation.recordResult table name result).knownArguments = invocation.knownArguments := by
  cases table <;> cases result <;> rfl

theorem recordResult_argumentResults :
    (invocation.recordResult table name result).argumentResults =
      if table = .arguments then invocation.argumentResults.insert name result
      else invocation.argumentResults := by
  cases table <;> cases result <;> rfl

theorem has_recordResult_iff (other : String) :
    (invocation.recordResult table name result).has .arguments other = true ↔
      (table = .arguments ∧ name = other) ∨ invocation.has .arguments other = true := by
  simp only [has, results, recordResult_argumentResults, OrderedMap.contains]
  by_cases wanted : table = .arguments
  · by_cases same : name = other <;> simp [wanted, same, OrderedMap.get?_insert]
  · simp [wanted]

end Invocation

namespace Walk

/-- What a part of a walk leaves behind: the nodes that joined the chain, and the nodes
whose arguments were made known.  Results that are there stay there. -/
structure Learns (start stop : Invocation F) (joined announcing : List (Node F)) : Prop where
  chain : stop.chain = start.chain ++ joined
  known : ∀ name, stop.knownArguments.get? name =
    (start.knownArguments.get? name).or (Node.announced announcing name)
  keeps : ∀ name, start.has .arguments name = true → stop.has .arguments name = true

namespace Learns

variable {start middle stop : Invocation F} {joined further announcing more : List (Node F)}

theorem trans (left : Learns start middle joined announcing)
    (right : Learns middle stop further more) :
    Learns start stop (joined ++ further) (announcing ++ more) where
  chain := by
    rw [right.chain, left.chain, List.append_assoc]
  known := by
    intro name
    rw [right.known, left.known, Node.announced_append, Option.or_assoc]
  keeps := fun name present => right.keeps name (left.keeps name present)

theorem of_known (chain : stop.chain = start.chain)
    (known : stop.knownArguments = start.knownArguments)
    (keeps : ∀ name, start.has .arguments name = true → stop.has .arguments name = true) :
    Learns start stop [] [] where
  chain := by simp [chain]
  known := by simp [known, Node.announced]
  keeps := keeps

theorem refl (start : Invocation F) : Learns start start [] [] := by
  exact .of_known rfl rfl fun _ present => present

theorem accountsFor (learns : Learns start stop joined announcing) {node : Node F}
    (accounts : start.AccountsFor node) : stop.AccountsFor node := by
  intro isArgument missing
  apply accounts isArgument
  rw [Bool.eq_false_iff] at missing ⊢
  exact fun present => missing (learns.keeps node.name present)

end Learns

section Parts

variable {env : WalkEnv F σ} {start stop : Invocation F} {state after : σ}
  {events : List (Event F)}

theorem reading_learns {α : Type} {answer : α} {f : Reader → α × Reader}
    (goes : (reading f).Goes env start state events answer stop after) :
    Learns start stop [] [] := by
  simp only [reading, goes_look_iff, goes_change_iff, goes_done_iff] at goes
  rcases goes with ⟨-, -, rfl, -⟩
  exact .of_known rfl rfl fun _ present => present

theorem knowFlags_learns {flags : List (Flag F)} {answer : Unit}
    (goes : (knowFlags flags).Goes env start state events answer stop after) :
    Learns start stop [] [] := by
  simp only [knowFlags, modify, goes_change_iff, goes_done_iff] at goes
  rcases goes with ⟨-, -, rfl, -⟩
  exact .of_known rfl rfl fun _ present => present

theorem knowArgument_learns {node : Node F} {answer : Unit}
    (goes : (knowArgument node).Goes env start state events answer stop after) :
    Learns start stop [] [node] := by
  unfold knowArgument at goes
  split at goes
  · rename_i nothing
    rcases (goes_done_iff _).1 goes with ⟨-, -, rfl, -⟩
    exact ⟨by simp, by simp [Node.announced_singleton, nothing], fun _ present => present⟩
  · rename_i child found
    simp only [modify, goes_change_iff, goes_done_iff] at goes
    rcases goes with ⟨-, -, rfl, -⟩
    refine ⟨by simp, ?_, fun _ present => present⟩
    intro name
    rw [OrderedMap.get?_insertNew, Node.announced_singleton, found]
    simp [Option.filter]

theorem enter_learns {node : Node F} {answer : Unit}
    (goes : (enter node).Goes env start state events answer stop after) :
    Learns start stop [node] [] := by
  rw [enter, goes_join_iff] at goes
  rcases goes with ⟨tests, goes, -⟩
  rcases testAssertions_goes goes with ⟨rfl, -⟩
  exact ⟨rfl, by simp [Invocation.visiting, Node.announced], fun _ present => present⟩

theorem record_learns {table : ValueTable} {name : String} {result : ParseResult Nat}
    {answer : Unit}
    (goes : (record table name result (.done ())).Goes env start state events answer stop
      after) :
    Learns start stop [] [] ∧ (table = .arguments → stop.has .arguments name = true) := by
  simp only [goes_record_iff, goes_done_iff] at goes
  rcases goes with ⟨_, ⟨-, -, rfl, -⟩, -⟩
  constructor
  · refine .of_known (by simp) (by simp) ?_
    intro other present
    exact (start.has_recordResult_iff table name result other).2 (.inr present)
  · intro isArgument
    exact (start.has_recordResult_iff table name result name).2 (.inl ⟨isArgument, rfl⟩)

theorem readValue_learns {table : ValueTable} {name : String} {parser : Parser F}
    {answer : Unit}
    (goes : (readValue table name parser).Goes env start state events answer stop after) :
    Learns start stop [] [] ∧ (table = .arguments → stop.has .arguments name = true) := by
  rw [readValue, goes_read_iff] at goes
  rcases goes with ⟨result, reached, between, rest, read, goes, -⟩
  have moved : Learns start reached [] [] := by
    simp only [WalkEnv.read, Prod.mk.injEq] at read
    rcases read with ⟨-, rfl, -⟩
    exact .of_known rfl rfl fun _ present => present
  rcases result with (failure | value) | lookup | _
  · exact absurd goes (not_goes_stop _)
  · rcases record_learns goes with ⟨learns, recorded⟩
    exact ⟨moved.trans learns, recorded⟩
  · rcases record_learns goes with ⟨learns, recorded⟩
    exact ⟨moved.trans learns, recorded⟩
  · exact absurd goes (not_goes_stop _)

theorem readOwn_learns {node : Node F} {answer : Unit}
    (goes : (readOwn node).Goes env start state events answer stop after) :
    Learns start stop [] [] ∧ stop.AccountsFor node := by
  unfold readOwn at goes
  split at goes
  · rename_i literal
    rw [goes_seq_iff] at goes
    rcases goes with ⟨_, _, _, _, _, goes, done, -⟩
    rcases (goes_pure_iff _).1 done with ⟨-, -, rfl, -⟩
    refine ⟨reading_learns goes, ?_⟩
    intro isArgument
    simp [Node.isLiteral, literal] at isArgument
  · rcases readValue_learns goes with ⟨learns, recorded⟩
    refine ⟨learns, ?_⟩
    intro _ missing
    simp [recorded rfl] at missing

theorem readFlag_learns {answer : Unit}
    (goes : readFlag.Goes env start state events answer stop after) :
    Learns start stop [] [] := by
  rw [readFlag_eq, goes_seq_iff] at goes
  rcases goes with ⟨_, _, _, _, _, dash, goes, -⟩
  rw [goes_get_seq_iff, goes_seq_iff] at goes
  rcases goes with ⟨_, _, _, _, _, name, goes, -⟩
  rw [goes_get_seq_iff] at goes
  refine (reading_learns dash).trans ((reading_learns name).trans ?_)
  unfold useFlag at goes
  split at goes
  · exact absurd goes (not_goes_stop _)
  · split at goes
    · rw [goes_seq_iff] at goes
      rcases goes with ⟨_, _, _, _, _, record, space, -⟩
      exact (record_learns record).1.trans (reading_learns space)
    · rw [goes_seq_iff] at goes
      rcases goes with ⟨_, _, _, _, _, space, goes, -⟩
      rw [goes_seq_iff] at goes
      rcases goes with ⟨_, _, _, _, _, value, space', -⟩
      exact (reading_learns space).trans
        ((readValue_learns value).1.trans (reading_learns space'))

theorem readFlags_learns {fuel : Nat} {answer : Unit}
    (goes : (readFlags fuel).Goes env start state events answer stop after) :
    Learns start stop [] [] := by
  induction fuel generalizing start state events with
  | zero =>
      rcases readFlags_zero_goes_iff.1 goes with ⟨-, -, rfl, -⟩
      exact .refl start
  | succ fuel ih =>
      rw [readFlags, goes_get_seq_iff] at goes
      split at goes
      · rw [goes_seq_iff] at goes
        rcases goes with ⟨_, _, _, _, _, flag, goes, -⟩
        exact (readFlag_learns flag).trans (ih goes)
      · rcases (goes_done_iff _).1 goes with ⟨-, -, rfl, -⟩
        exact .refl start

/-! ## The way down a tree -/

/-- What a way down a tree leaves behind: the nodes that joined the chain are those whose
arguments were made known, and each of them is accounted for. -/
structure Descends (start stop : Invocation F) (nodes : List (Node F)) : Prop where
  learns : Learns start stop nodes nodes
  accounts : ∀ node ∈ nodes, stop.AccountsFor node

namespace Descends

variable {middle : Invocation F} {node : Node F} {nodes : List (Node F)}

theorem nil (start : Invocation F) : Descends start start [] := by
  exact ⟨.refl start, by simp⟩

theorem singleton (entered : Learns start stop [node] [node])
    (accounts : stop.AccountsFor node) : Descends start stop [node] := by
  exact ⟨entered, by simpa using accounts⟩

theorem cons (entered : Learns start middle [node] [node]) (accounts : middle.AccountsFor node)
    (below : Descends middle stop nodes) : Descends start stop (node :: nodes) := by
  refine ⟨entered.trans below.learns, ?_⟩
  intro other member
  rcases List.mem_cons.1 member with rfl | member
  · exact below.learns.accountsFor accounts
  · exact below.accounts other member

end Descends

theorem fill_descends (node : Node F) {executor answer : Option F}
    (goes : (fill node executor).Goes env start state events answer stop after) :
    ∃ nodes, Descends start stop nodes := by
  induction node using Node.inductionOn generalizing start state events executor with
  | step head children ih =>
      rw [fill] at goes
      split at goes
      · rcases (goes_done_iff _).1 goes with ⟨-, -, rfl, -⟩
        exact ⟨[], .nil start⟩
      · rename_i enters
        have optional : (Node.node head children).isLiteral = false ∧ head.optional = true := by
          simpa using enters
        rw [goes_seq_iff] at goes
        rcases goes with ⟨_, _, _, _, _, enters, goes, -⟩
        rw [goes_seq_iff] at goes
        rcases goes with ⟨_, _, _, _, _, flags, goes, -⟩
        rw [goes_seq_iff] at goes
        rcases goes with ⟨_, _, reached, _, _, argument, goes, -⟩
        have entered : Learns start reached [.node head children] [.node head children] :=
          (enter_learns enters).trans <|
            (knowFlags_learns flags).trans (knowArgument_learns argument)
        have accounts : reached.AccountsFor (.node head children) := fun _ _ => optional.2
        split at goes
        · rename_i found
          rcases exists_of_fillArgument found with ⟨child, member, -, rfl⟩
          rcases ih child member goes with ⟨nodes, below⟩
          exact ⟨.node head children :: nodes, .cons entered accounts below⟩
        · rcases (goes_done_iff _).1 goes with ⟨-, -, rfl, -⟩
          exact ⟨[.node head children], .singleton entered accounts⟩

theorem visit_descends (node : Node F) {patience : Nat} {executor answer : Option F}
    (goes : (visit patience node executor).Goes env start state events answer stop after) :
    ∃ nodes, Descends start stop nodes := by
  induction node using Node.inductionOn generalizing start state events executor with
  | step head children ih =>
      rw [visit_eq, goes_seq_iff] at goes
      rcases goes with ⟨_, _, _, _, _, enters, goes, -⟩
      rw [goes_seq_iff] at goes
      rcases goes with ⟨_, _, _, _, _, own, goes, -⟩
      rw [goes_seq_iff] at goes
      rcases goes with ⟨_, _, _, _, _, known, goes, -⟩
      rw [goes_seq_iff] at goes
      rcases goes with ⟨_, _, _, _, _, space, goes, -⟩
      rw [goes_get_seq_iff, goes_seq_iff] at goes
      rcases goes with ⟨_, _, _, _, _, flags, goes, -⟩
      rw [goes_seq_iff] at goes
      rcases goes with ⟨_, _, _, _, _, argument, goes, -⟩
      rw [goes_seq_iff] at goes
      rcases goes with ⟨_, _, reached, _, _, space', goes, -⟩
      rw [goes_get_seq_iff] at goes
      rcases readOwn_learns own with ⟨own, accounts⟩
      have later : Learns _ reached [] [.node head children] :=
        (knowFlags_learns known).trans <|
          (reading_learns space).trans <|
            (readFlags_learns flags).trans <|
              (knowArgument_learns argument).trans (reading_learns space')
      have entered : Learns start reached [.node head children] [.node head children] :=
        (enter_learns enters).trans (own.trans later)
      have accounts := later.accountsFor accounts
      unfold goOn at goes
      split at goes
      · split at goes
        · -- The line ends here, and an argument below is filled in.
          rename_i found
          rcases exists_of_fillArgument found with ⟨child, -, -, rfl⟩
          rcases fill_descends child goes with ⟨nodes, below⟩
          exact ⟨.node head children :: nodes, .cons entered accounts below⟩
        · rcases (goes_done_iff _).1 goes with ⟨-, -, rfl, -⟩
          exact ⟨[.node head children], .singleton entered accounts⟩
      · split at goes
        · rename_i found
          rcases exists_of_visitSelected found with ⟨child, member, -, rfl⟩
          rcases ih child member goes with ⟨nodes, below⟩
          exact ⟨.node head children :: nodes, .cons entered accounts below⟩
        · split at goes
          · rename_i found
            rcases exists_of_visitSelected found with ⟨child, member, -, rfl⟩
            rcases ih child member goes with ⟨nodes, below⟩
            exact ⟨.node head children :: nodes, .cons entered accounts below⟩
          · rw [goes_seq_iff] at goes
            rcases goes with ⟨_, _, _, _, _, -, goes, -⟩
            exact absurd goes (not_goes_stop _)

theorem ofLine_descends {registry : CommandRegistry F} {answer : Option F}
    (goes : (ofLine env.patience registry).Goes env start state events answer stop after) :
    ∃ command nodes, Descends { start with command := some command } stop nodes := by
  rw [ofLine, goes_get_seq_iff] at goes
  dsimp only at goes
  split at goes
  · exact absurd goes (not_goes_stop _)
  · rename_i command found
    rw [goes_seq_iff] at goes
    rcases goes with ⟨_, _, _, _, _, modified, goes, -⟩
    simp only [modify, goes_change_iff, goes_done_iff] at modified
    rcases modified with ⟨-, -, rfl, rfl⟩
    rw [goes_get_seq_iff] at goes
    split at goes
    · exact ⟨command, fill_descends command goes⟩
    · exact ⟨command, visit_descends command goes⟩

end Parts

end Walk

/-! ## Reading what was left out -/

namespace Invocation

variable {τ : Type}

/-- What a default answers where a name has no result: a constant, or what a supplier
computes; without a default the value is absent. -/
def supplied (supply : Supply F τ) (name : String) (fallback : Option (Supplier F))
    (now : Invocation F) (state : τ) : Except Failure Value :=
  match fallback with
  | some (.constant value) => .ok value
  | some (.custom supplier) =>
    (supply supplier (readWithin supply (now.knownArguments.size + now.knownFlags.size)) now
      state).1
  | none => .error (.absentValue name)

/-- A name without a result is read by the default of whoever is known under it. -/
theorem readValue_of_missing (supply : Supply F τ) {name : String} {now : Invocation F}
    (missing : now.has .arguments name = false) (state : τ) :
    (now.readValue supply .arguments name none state).1 =
      supplied supply name (now.fallback? .arguments name) now state := by
  have absent : (now.results .arguments).get? name = none := by
    simpa [has, OrderedMap.contains] using missing
  rw [readValue, readWithin, absent]
  rcases fallback : now.fallback? .arguments name with _ | value | supplier
  · rfl
  · rfl
  · simp only [supplied]
    rcases supply supplier (readWithin supply _) now state with ⟨failure | value, _, _⟩ <;> rfl

/-- Suppliers of which some answer null and the others fail. -/
def answering (answers : F → Bool) : Supply F Unit := fun supplier _ now state =>
  if answers supplier then (.ok .null, now, state) else (.error (.absentValue ""), now, state)

theorem supplied_answering (answers : F → Bool) (name : String) (supplier : F)
    (now : Invocation F) :
    supplied (answering answers) name (some (.custom supplier)) now () =
      if answers supplier then .ok .null else .error (.absentValue "") := by
  simp only [supplied, answering]
  split <;> rfl

/-- Only a supplier itself answers like it, whatever the suppliers compute. -/
theorem eq_of_supplied_custom {name : String} {supplier : F} {other : Option (Supplier F)}
    (now : Invocation F)
    (alike : ∀ supply : Supply F Unit,
      supplied supply name (some (.custom supplier)) now () = supplied supply name other now ()) :
    some (.custom supplier) = other := by
  classical
  rcases other with _ | value | second
  · have answers := alike (answering fun _ => true)
    rw [supplied_answering] at answers
    cases answers
  · have answers := alike (answering fun _ => false)
    rw [supplied_answering] at answers
    cases answers
  · -- Only the first supplier answers, so the second one is the same.
    have answers := alike (answering fun name => decide (name = supplier))
    rw [supplied_answering, supplied_answering] at answers
    by_cases same : second = supplier
    · rw [same]
    · simp [same] at answers

/-- Defaults that answer alike whatever the suppliers compute are the same. -/
theorem eq_of_supplied {name : String} {first second : Option (Supplier F)} (now : Invocation F)
    (alike : ∀ supply : Supply F Unit,
      supplied supply name first now () = supplied supply name second now ()) :
    first = second := by
  rcases first with _ | value | supplier
  · rcases second with _ | other | other
    · rfl
    · cases alike (answering fun _ => true)
    · exact (eq_of_supplied_custom now fun supply => (alike supply).symm).symm
  · rcases second with _ | other | other
    · cases alike (answering fun _ => true)
    · cases alike (answering fun _ => true)
      rfl
    · exact (eq_of_supplied_custom now fun supply => (alike supply).symm).symm
  · exact eq_of_supplied_custom now alike

end Invocation

namespace Dispatch

/-- An argument is read by its own default wherever it is read on the way of an executor and no
result was recorded under its name before. -/
def ReadsOwnDefault (ready : Invocation F) (node : Node F) : Prop :=
  ∀ (τ : Type) (supply : Invocation.Supply F τ) (now : Invocation F) (state : τ),
    now.knownArguments = ready.knownArguments → now.has .arguments node.name = false →
    (now.readValue supply .arguments node.name none state).1 =
      Invocation.supplied supply node.name node.head.fallback now state

/-- An argument that was left out is read by its own default exactly if it has the default of the
first argument that was announced under its name. -/
theorem readsOwnDefault_iff {ready : Invocation F} {node : Node F}
    (missing : ready.has .arguments node.name = false) :
    ReadsOwnDefault ready node ↔ ready.fallback? .arguments node.name = node.head.fallback := by
  constructor
  · intro own
    apply Invocation.eq_of_supplied ready
    intro supply
    rw [← Invocation.readValue_of_missing supply missing, own Unit supply ready () rfl missing]
  · intro same τ supply now state known missing
    have kept : now.fallback? .arguments node.name = ready.fallback? .arguments node.name := by
      simp only [Invocation.fallback?, known]
    rw [Invocation.readValue_of_missing supply missing, kept, same]

/-- An invocation that is ready knows the arguments that the nodes of its chain announced, the first
under each name, and its chain is accounted for. -/
theorem announced_of_approach
    {env : WalkEnv F σ} {begin : LookupJob F → J} {registry : CommandRegistry F}
    {start ready : Invocation F} {executor : F} {history : List (Happening σ J)}
    (fresh : start.chain = []) (ignorant : start.knownArguments = .empty)
    (ends : (approach env begin registry start).Ends history (.ready executor ready)) :
    (∀ name, ready.knownArguments.get? name = Node.announced ready.chain name) ∧
    ∀ node ∈ ready.chain, ready.AccountsFor node := by
  obtain ⟨state, walked, after, begins, turn, waits, walks, -, awaiting, -, -⟩ :=
    approach_ends ends
  have same := (awaitPending_ends awaiting).1
  have knows : ready.knownArguments = walked.knownArguments := by
    rw [same]
  have has : ∀ name, ready.has .arguments name = walked.has .arguments name := by
    intro name
    rw [same]
    rfl
  rcases Walk.ofLine_descends ⟨walks, rfl⟩ with ⟨command, nodes, descends⟩
  have chain : ready.chain = nodes := by
    rw [same, descends.learns.chain, fresh]
    rfl
  constructor
  · intro name
    rw [knows, chain, descends.learns.known name, ignorant, OrderedMap.get?_empty,
      Option.none_or]
  · intro node visited isArgument missing
    rw [chain] at visited
    rw [has] at missing
    exact descends.accounts node visited isArgument missing

/-- When an executor runs, every argument of the chain without a result under its name is an
optional one, which the end of the line left out.  It is read by its own default exactly if it has
the default of the first argument of its name below the nodes of the chain. -/
theorem skipped_reads_own_default_iff
    (env : DispatchEnv F σ J) (registry : CommandRegistry F)
    (text : String) (message : Option Message) (origin : Origin)
    {history : List (Happening σ J)} {executor : F} {ready : Invocation F}
    (ends : (approach env.toWalkEnv env.begin registry
      { Invocation.ofText text with message := message, origin := origin }).Ends history
        (.ready executor ready))
    {node : Node F} (visited : node ∈ ready.chain) (isArgument : node.isLiteral = false)
    (missing : ready.has .arguments node.name = false) :
    node.head.optional = true ∧
      (ReadsOwnDefault ready node ↔
        (Node.announced ready.chain node.name).bind (·.head.fallback) = node.head.fallback) := by
  rcases announced_of_approach rfl rfl ends with ⟨announced, accounts⟩
  refine ⟨accounts node visited isArgument missing, ?_⟩
  rw [readsOwnDefault_iff missing, Invocation.fallback?, announced]

end Dispatch

/-! ## A default that is not the argument's own -/

namespace Shout

/-- Someone to speak to, or else the given ones. -/
def listener (others : String) : Node String :=
  .node
    { name := "who", kind := .argument .string, lead := none, aliases := [], optional := true
      fallback := some (.constant (.text others)), flags := [], assertions := []
      executor := some "speak", labels := [] }
    []

def loudly : Node String :=
  .node
    { name := "loudly", kind := .literal, lead := none, aliases := [], optional := false
      fallback := none, flags := [], assertions := [], executor := none, labels := [] }
    [listener "everyone"]

/-- Speak to the world, or loudly to everyone. -/
def say : Node String :=
  .node
    { name := "say", kind := .literal, lead := some "?", aliases := [], optional := false
      fallback := none, flags := [], assertions := [], executor := none, labels := [] }
    [listener "world", loudly]

def env : DispatchEnv String Unit (LookupJob String) where
  parser _ scan state := (.outcome (.ok .null), scan.reader, state)
  assertion _ _ state := (.ok none, state)
  lacking := none
  execute _ invocation := .done (.ok .nothing, invocation)
  begin := id

def registry : CommandRegistry String := ((CommandRegistry.new "?" false).register say).2

def history : List (Happening Unit (LookupJob String)) :=
  [.saw (), .left (), .waited .turn (.ok .null)]

theorem arrives :
    ∃ ready,
      (Dispatch.approach env.toWalkEnv env.begin registry
        { Invocation.ofText "?say loudly" with
          message := none, origin := ⟨.null, none, none⟩ }).Ends
        history (.ready "speak" ready) ∧
      ready.chain = [say, loudly, listener "everyone"] ∧
      ready.has .arguments "who" = false ∧
      ∀ supply : Invocation.Supply String Unit,
        (ready.readValue supply .arguments "who" none ()).1 = .ok (.text "world") := by
  exact ⟨_, .get _ (.put (.wait _ .done)), rfl, rfl, fun _ => rfl⟩

/-- Whoever speaks loudly to nobody in particular speaks to the world, since the argument of the
command itself was announced first. -/
theorem speaks_to_the_world :
    ∃ ready,
      (Dispatch.approach env.toWalkEnv env.begin registry
        { Invocation.ofText "?say loudly" with
          message := none, origin := ⟨.null, none, none⟩ }).Ends
        history (.ready "speak" ready) ∧
      ready.chain = [say, loudly, listener "everyone"] ∧
      ready.has .arguments "who" = false ∧
      (listener "everyone").head.optional = true ∧
      ¬ Dispatch.ReadsOwnDefault ready (listener "everyone") ∧
      ∀ supply : Invocation.Supply String Unit,
        (ready.readValue supply .arguments "who" none ()).1 = .ok (.text "world") := by
  rcases arrives with ⟨ready, ends, chain, missing, reads⟩
  have visited : listener "everyone" ∈ ready.chain := by
    simp [chain]
  rcases Dispatch.skipped_reads_own_default_iff env registry "?say loudly" none
    ⟨.null, none, none⟩ ends visited rfl missing with ⟨optional, own_iff⟩
  have announced :
      (Node.announced ready.chain (listener "everyone").name).bind (·.head.fallback) =
        some (.constant (.text "world")) := by
    rw [chain]
    rfl
  refine ⟨ready, ends, chain, missing, optional, ?_, reads⟩
  rw [own_iff, announced]
  simp [listener, Node.head]

end Shout

end Steward
