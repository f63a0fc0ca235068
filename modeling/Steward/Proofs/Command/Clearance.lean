import Steward.Proofs.Command.Advance
import Steward.Proofs.Command.Approach
import Steward.Proofs.Loop.History
import Steward.Proofs.OrderedMap

/-!
# What holds when an executor runs

A dispatch is its approach, and then at most one executor.  Whatever the callbacks
of the tree and the lookups do, an executor that runs is cleared: the nodes of the
chain form a path of the tree that begins at the line's command, every assertion
on it was tested and held, all that was read has settled successfully, and nothing
of the line is left.

The walk itself is followed in `Walk.ofLine_goes`.  What is added here is the part
that waits: the lookups are begun in the order of reading, and an approach that
arrives at an executor has waited for each of them and seen it succeed.
-/

namespace Steward

variable {F σ J α : Type}

open Activity

/-! ## Beginning lookups -/

/-- A lookup is begun as a task of its own, after the tasks of those before it. -/
structure Scan.Begun
    (begin : LookupJob F → J) (origin : Origin) (reader : Reader)
    (launches : List (Launch F)) (history : List (Happening σ J)) (earlier tasks : List TaskId) :
    Prop where
  length_eq : tasks.length = launches.length
  spawned : ∀ number launch, launches[number]? = some launch →
    ∃ task, tasks[number]? = some task ∧
      .spawned (begin (.prepare origin reader (earlier ++ tasks.take number) launch.lookup))
        task ∈ history

theorem Scan.beginLookups_cons_ends
    {begin : LookupJob F → J} {origin : Origin} {reader : Reader}
    {launch : Launch F} {rest : List (Launch F)} {earlier answer : List TaskId}
    {history : List (Happening σ J)}
    (ends : (Scan.beginLookups begin origin reader (launch :: rest) earlier).Ends history
      answer) :
    ∃ task dropping later,
      (Scan.beginLookups begin origin reader rest (earlier ++ [task])).Ends later answer ∧
      history =
        .spawned (begin (.prepare origin reader earlier launch.lookup)) task ::
          (dropping ++ later) := by
  rw [Scan.beginLookups, ends_spawn_seq_iff] at ends
  rcases ends with ⟨task, history, ends, rfl⟩
  dsimp only at ends
  split at ends
  · rw [ends_seq_iff] at ends
    rcases ends with ⟨dropping, _, later, -, ends, rfl⟩
    exact ⟨task, dropping, later, ends, rfl⟩
  · exact ⟨task, [], history, ends, rfl⟩

theorem Scan.beginLookups_ends
    {begin : LookupJob F → J} {origin : Origin} {reader : Reader}
    {launches : List (Launch F)} {earlier answer : List TaskId}
    {history : List (Happening σ J)}
    (ends : (Scan.beginLookups begin origin reader launches earlier).Ends history answer) :
    ∃ tasks, answer = earlier ++ tasks ∧
      Scan.Begun begin origin reader launches history earlier tasks := by
  induction launches generalizing earlier history with
  | nil =>
      rcases (ends_pure_iff _ _ _).1 ends with ⟨rfl, rfl⟩
      exact ⟨[], by simp, rfl, by simp⟩
  | cons launch rest ih =>
      rcases Scan.beginLookups_cons_ends ends with ⟨task, dropping, later, goesOn, rfl⟩
      rcases ih goesOn with ⟨tasks, rfl, begun⟩
      refine ⟨task :: tasks, by simp, by simp [begun.length_eq], ?_⟩
      intro number other found
      cases number with
      | zero =>
          cases found
          exact ⟨task, rfl, by simp⟩
      | succ number =>
          rcases begun.spawned number other found with ⟨begunTask, position, spawned⟩
          refine ⟨begunTask, position, ?_⟩
          simp only [List.append_assoc, List.singleton_append] at spawned
          simp [spawned]

namespace Dispatch

/-! ## Awaiting lookups -/

/-- How a lookup was awaited: its task ended with an outcome, which was kept. -/
def Awaited (invocation : Invocation F) (history : List (Happening σ J)) (lookup : Nat) : Prop :=
  ∃ outcome, invocation.outcomes.get? lookup = some outcome ∧
    .waited (.task (invocation.tasks.getD lookup 0)) (outcome.mapError .failed) ∈ history

theorem Awaited.mono
    {invocation : Invocation F} {history longer : List (Happening σ J)} {lookup : Nat}
    (awaited : Awaited invocation history lookup) (subset : history ⊆ longer) :
    Awaited invocation longer lookup := by
  rcases awaited with ⟨outcome, found, waited⟩
  exact ⟨outcome, found, subset waited⟩

theorem awaitEach_cons_ends
    {lookup : Nat} {rest : List Nat} {start stop : Invocation F}
    {history : List (Happening σ J)}
    (ends : (awaitEach (lookup :: rest) start : Activity σ J _).Ends history (.ok stop)) :
    ∃ outcome later,
      (awaitEach rest
        { start with outcomes := start.outcomes.insert lookup outcome } : Activity σ J _).Ends
          later (.ok stop) ∧
      history =
        .waited (.task (start.tasks.getD lookup 0)) (outcome.mapError .failed) :: later := by
  rw [awaitEach, ends_wait_seq_iff] at ends
  rcases ends with ⟨exit, later, ends, rfl⟩
  cases exit with
  | ok value =>
      exact ⟨.ok value, later, ends, rfl⟩
  | error interrupt =>
      cases interrupt with
      | failed failure =>
          exact ⟨.error failure, later, ends, rfl⟩
      | cancelled =>
          exact absurd ends not_ends_interrupted
      | endless =>
          exact absurd ends not_ends_interrupted

theorem awaitEach_ends
    {lookups : List Nat} {start stop : Invocation F} {history : List (Happening σ J)}
    (ends : (awaitEach lookups start : Activity σ J _).Ends history (.ok stop)) :
    stop = { start with outcomes := stop.outcomes } ∧
      (∀ lookup, lookup ∉ lookups →
        stop.outcomes.get? lookup = start.outcomes.get? lookup) ∧
      ∀ lookup ∈ lookups, Awaited stop history lookup := by
  induction lookups generalizing start history with
  | nil =>
      rcases (ends_pure_iff _ _ _).1 ends with ⟨rfl, same⟩
      cases same
      exact ⟨rfl, fun _ _ => rfl, by simp⟩
  | cons lookup rest ih =>
      rcases awaitEach_cons_ends ends with ⟨outcome, later, goesOn, rfl⟩
      rcases ih goesOn with ⟨same, kept, awaited⟩
      have tasks : stop.tasks = start.tasks := by
        rw [same]
      refine ⟨same, ?_, ?_⟩
      · intro other absent
        rw [List.mem_cons, not_or] at absent
        rw [kept other absent.2, OrderedMap.get?_insert_of_ne _ _ (Ne.symm absent.1)]
      · intro other member
        by_cases again : other ∈ rest
        · rcases awaited other again with ⟨final, found, waited⟩
          exact ⟨final, found, List.mem_cons_of_mem _ waited⟩
        · have first : other = lookup := by
            simpa [again] using member
          subst first
          refine ⟨outcome, ?_, ?_⟩
          · rw [kept other again, OrderedMap.get?_insert_self]
          · rw [tasks]
            exact List.mem_cons_self

theorem awaitPending_ends
    {start stop : Invocation F} {history : List (Happening σ J)}
    (ends : (awaitPending start : Activity σ J _).Ends history (.ok stop)) :
    stop = { start with outcomes := stop.outcomes } ∧
      ∀ lookup ∈ start.awaited, Awaited stop history lookup := by
  unfold awaitPending at ends
  split at ends
  · rename_i nothing
    rcases (ends_pure_iff _ _ _).1 ends with ⟨rfl, same⟩
    cases same
    rw [List.isEmpty_iff] at nothing
    exact ⟨rfl, by simp [nothing]⟩
  · rw [ends_wait_seq_iff] at ends
    rcases ends with ⟨joining, _, ends, rfl⟩
    rcases joining with interrupt | _
    · exact absurd ends not_ends_interrupted
    rw [ends_seq_iff] at ends
    rcases ends with ⟨waits, reached, _, each, ends, rfl⟩
    rcases reached with interrupt | reached
    · exact absurd ends not_ends_interrupted
    -- Joining the lookups takes two more rounds, which change nothing.
    rw [ends_wait_seq_iff] at ends
    rcases ends with ⟨joined, _, ends, rfl⟩
    rcases joined with interrupt | _
    · exact absurd ends not_ends_interrupted
    rw [ends_wait_seq_iff] at ends
    rcases ends with ⟨resumed, _, ends, rfl⟩
    rcases resumed with interrupt | _
    · exact absurd ends not_ends_interrupted
    rcases (ends_pure_iff _ _ _).1 ends with ⟨rfl, same⟩
    cases same
    rcases awaitEach_ends each with ⟨same, -, awaited⟩
    refine ⟨same, ?_⟩
    intro lookup member
    exact (awaited lookup member).mono (by simp)

/-- If none of the awaited lookups failed, each of them has a value. -/
theorem Awaited.succeeded
    {invocation : Invocation F} {history : List (Happening σ J)} {lookup : Nat}
    (awaited : Awaited invocation history lookup)
    (nothing_failed : failures invocation = []) (member : lookup ∈ invocation.awaited) :
    ∃ value, invocation.outcomes.get? lookup = some (.ok value) ∧
      .waited (.task (invocation.tasks.getD lookup 0)) (.ok value) ∈ history := by
  rcases awaited with ⟨outcome, found, waited⟩
  cases outcome with
  | ok value =>
      exact ⟨value, found, waited⟩
  | error failure =>
      have failed : failure ∈ failures invocation := by
        rw [failures, List.mem_filterMap]
        exact ⟨lookup, member, by simp [found]⟩
      simp [nothing_failed] at failed

/-! ## The clearance of an executor -/

/-- A result that was read has settled successfully.  A lookup that it waited for
was begun, and its task was awaited and ended with the value. -/
def Settled (begin : LookupJob F → J) (ready : Invocation F)
    (history : List (Happening σ J)) : ParseResult Nat → Prop
  | .settled outcome => ∃ value, outcome = .ok value
  | .endless => False
  | .pending lookup =>
      ∃ launch task value,
        ready.scan.lookups[lookup]? = some launch ∧
        .spawned (begin (.prepare ready.origin ready.reader (ready.tasks.take lookup)
          launch.lookup)) task ∈ history ∧
        ready.tasks[lookup]? = some task ∧
        .waited (.task task) (.ok value) ∈ history ∧
        ready.outcomes.get? lookup = some (.ok value)

/-- What an executor can rely on when it runs: `events` are those of the walk of
the line, `history` is what happened up to now, and `ready` is the invocation that
the executor is given. -/
structure Cleared
    (begin : LookupJob F → J) (command : Node F)
    (events : List (Walk.Event F)) (history : List (Happening σ J))
    (executor : F) (ready : Invocation F) : Prop where
  /-- The chain begins at the line's command, and each node is a child of the one
  before it. -/
  command_eq : ready.command = some command
  starts : ready.chain.head? = some command
  descends : ready.chain.IsChain fun parent child => child ∈ parent.children
  /-- The nodes of the chain were entered in order: the assertions of each were
  tested, and all of them held. -/
  passages : events.filter Walk.Event.isPassage = ready.chain.flatMap Walk.passage
  /-- The executor is that of the last node that has one. -/
  deepest : (ready.chain.filterMap (·.head.executor)).getLast? = some executor
  /-- Whatever was read has settled successfully. -/
  settled : ∀ parser result, .read parser result ∈ events →
    Settled begin ready history result
  /-- Nothing of the line is left. -/
  atEnd : ready.reader.atEnd = true

/-- What remains of an approach after an outcome that it ends with. -/
theorem not_over_ends
    {activity : Activity σ J α} {result : α → Exit CommandResult}
    {invocation : α → Invocation F} {executor : F} {ready : Invocation F}
    {history : List (Happening σ J)} :
    ¬ (activity >>= fun value => pure (Approach.over (result value) (invocation value))).Ends
      history (.ready executor ready) := by
  intro ends
  rw [ends_seq_iff] at ends
  rcases ends with ⟨_, _, _, -, ends, -⟩
  cases ((ends_pure_iff _ _ _).1 ends).2

/-- The part of an approach that arrives at an executor, after the walk of the line. -/
theorem launch_ends
    {begin : LookupJob F → J} {answer : Except Halt (Option F)} {walked ready : Invocation F}
    {executor : F} {history : List (Happening σ J)}
    (ends : (launch begin answer walked).Ends history (.ready executor ready)) :
    ∃ begins turn waits,
      answer = .ok (some executor) ∧
      (Scan.beginLookups begin walked.origin walked.reader walked.scan.lookups []).Ends
        begins ready.tasks ∧
      (awaitPending { walked with tasks := ready.tasks, executed := true }).Ends waits
        (.ok ready) ∧
      failures ready = [] ∧
      history = begins ++ .waited .turn (.ok turn) :: waits := by
  rw [launch, ends_seq_iff] at ends
  rcases ends with ⟨begins, tasks, _, begun, ends, rfl⟩
  rcases answer with outcome | _ | found
  · exact absurd ends not_over_ends
  · exact absurd ends not_over_ends
  rw [proceed, ends_wait_seq_iff] at ends
  rcases ends with ⟨turn, _, ends, rfl⟩
  rcases turn with interrupt | turn
  · exact absurd ends not_over_ends
  dsimp only at ends
  rw [gather, ends_seq_iff] at ends
  rcases ends with ⟨waits, awaited, _, awaiting, ends, rfl⟩
  rcases awaited with interrupt | reached
  · exact absurd ends not_over_ends
  dsimp only [judge] at ends
  split at ends
  · rename_i nothing_failed
    rcases (ends_pure_iff _ _ _).1 ends with ⟨rfl, same⟩
    cases same
    have tasks_eq : ready.tasks = tasks := by
      rw [(awaitPending_ends awaiting).1]
    subst tasks_eq
    exact ⟨begins, turn, waits, rfl, begun, awaiting, nothing_failed, by simp⟩
  · exact absurd ends not_over_ends

/-- An approach that arrives at an executor walks the line, and goes on from there. -/
theorem approach_ends
    {env : WalkEnv F σ} {begin : LookupJob F → J} {registry : CommandRegistry F}
    {start ready : Invocation F} {executor : F} {history : List (Happening σ J)}
    (ends : (approach env begin registry start).Ends history (.ready executor ready)) :
    ∃ state walked after begins turn waits,
      (Walk.ofLine env.patience registry).run env start state = (.ok (some executor), walked, after) ∧
      (Scan.beginLookups begin walked.origin walked.reader walked.scan.lookups []).Ends
        begins ready.tasks ∧
      (awaitPending { walked with tasks := ready.tasks, executed := true }).Ends waits
        (.ok ready) ∧
      failures ready = [] ∧
      history = .saw state :: .left after :: (begins ++ .waited .turn (.ok turn) :: waits) := by
  rw [approach_eq] at ends
  cases ends with
  | get state ends =>
      rcases walks : (Walk.ofLine env.patience registry).run env start state with ⟨answer, walked, after⟩
      simp only [walks] at ends
      cases ends with
      | put ends =>
          rcases launch_ends ends with
            ⟨begins, turn, waits, rfl, begun, awaiting, nothing_failed, rfl⟩
          exact ⟨state, walked, after, begins, turn, waits, walks, begun, awaiting, nothing_failed,
            rfl⟩

/-- What the walk of a line read has settled by the time its lookups are over. -/
theorem settled_of_advance
    {begin : LookupJob F → J} {start walked ready : Invocation F} {nodes : List (Node F)}
    {events : List (Walk.Event F)} {begins waits history : List (Happening σ J)}
    {parser : Parser F} {result : ParseResult Nat}
    (advance : Walk.Advance start walked nodes events) (nothing : start.awaited = [])
    (begun : (Scan.beginLookups begin walked.origin walked.reader walked.scan.lookups []).Ends
      begins ready.tasks)
    (awaiting : (awaitPending
      { walked with tasks := ready.tasks, executed := true }).Ends waits (.ok ready))
    (nothing_failed : failures ready = [])
    (begins_subset : begins ⊆ history) (waits_subset : waits ⊆ history)
    (member : .read parser result ∈ events) :
    Settled begin ready history result := by
  rcases awaitPending_ends awaiting with ⟨same, awaited⟩
  rcases Scan.beginLookups_ends begun with ⟨tasks, tasks_eq, begun⟩
  rw [List.nil_append] at tasks_eq
  subst tasks_eq
  cases result with
  | endless =>
      exact nomatch advance.sound parser _ member
  | settled outcome =>
      cases outcome with
      | error failure =>
          exact nomatch advance.sound parser _ member
      | ok value =>
          exact ⟨value, rfl⟩
  | pending lookup =>
      have waiting : lookup ∈ events.filterMap Walk.Event.lookup? :=
        List.mem_filterMap.2 ⟨_, member, rfl⟩
      have recorded : lookup ∈ walked.awaited := by
        rw [advance.awaited, nothing]
        exact waiting
      have bound := advance.begun lookup waiting
      rcases begun.spawned lookup walked.scan.lookups[lookup] (List.getElem?_eq_getElem bound) with
        ⟨task, position, spawned⟩
      have kept : lookup ∈ ready.awaited := by
        rw [same]
        exact recorded
      rcases (awaited lookup recorded).succeeded nothing_failed kept with ⟨value, found, waited⟩
      rw [List.getD_eq_getElem?_getD, position] at waited
      refine ⟨walked.scan.lookups[lookup], task, value, ?_, ?_, position,
        waits_subset waited, found⟩
      · rw [same]
        exact List.getElem?_eq_getElem bound
      · rw [same]
        exact begins_subset spawned

/-- An approach that arrives at an executor clears it. -/
theorem cleared_of_approach
    {env : WalkEnv F σ} {begin : LookupJob F → J} {registry : CommandRegistry F}
    {start ready : Invocation F} {executor : F} {history : List (Happening σ J)}
    (fresh : start.chain = []) (nothing : start.awaited = [])
    (ends : (approach env begin registry start).Ends history (.ready executor ready)) :
    ∃ state rest command,
      history = .saw state :: rest ∧
      Walk.commandOf registry start.reader = some command ∧
      Cleared begin command ((Walk.ofLine env.patience registry).trace env start state) history executor
        ready := by
  obtain ⟨state, walked, after, begins, turn, waits, walks, begun, awaiting, nothing_failed,
    rfl⟩ := approach_ends ends
  rcases Walk.ofLine_goes ⟨walks, rfl⟩ with ⟨command, nodes, found, advance, path, answer, atEnd⟩
  have same := (awaitPending_ends awaiting).1
  have chain : ready.chain = nodes := by
    rw [same, advance.chain, fresh]
    rfl
  have deepest : (nodes.filterMap (·.head.executor)).getLast? = some executor := by
    simpa [Node.deepestExecutor_eq] using answer.symm
  refine ⟨state, _, command, rfl, found, ?_⟩
  constructor
  · rw [same]
    exact advance.command
  · rw [chain]
    cases nodes with
    | nil =>
        simp at deepest
    | cons first rest =>
        exact congrArg some (path.starts first rfl)
  · rw [chain]
    exact path.descends
  · rw [chain]
    exact advance.passages
  · rw [chain]
    exact deepest
  · intro parser result member
    refine settled_of_advance advance nothing begun awaiting nothing_failed ?_ ?_ member
    · intro happening earlier
      simp [earlier]
    · intro happening later
      simp [later]
  · rw [same]
    exact atEnd

/-- A dispatch is its approach and then at most one executor, once: where the
approach arrives, the executor runs on the invocation that it arrived with, and
what follows is only the conclusion.  Whatever the callbacks and the lookups do,
an executor that the approach arrives at is cleared. -/
theorem run_executes_once_cleared
    (env : DispatchEnv F σ J) (registry : CommandRegistry F)
    (text : String) (message : Option Message) (origin : Origin) :
    let start : Invocation F := { Invocation.ofText text with message := message, origin := origin }
    (run env registry start =
      (approach env.toWalkEnv env.begin registry start).bind fun
        | .over result invocation => .done (result, invocation)
        | .ready executor ready =>
          (env.execute executor ready).bind fun (exit, invocation) =>
            conclude (resultOfExit exit) invocation) ∧
    ∀ history executor ready,
      (approach env.toWalkEnv env.begin registry start).Ends history (.ready executor ready) →
      ∃ state rest command,
        history = .saw state :: rest ∧
        Walk.commandOf registry start.reader = some command ∧
        Cleared env.begin command ((Walk.ofLine env.patience registry).trace env.toWalkEnv start state)
          history executor ready := by
  intro start
  constructor
  · rfl
  · intro history executor ready ends
    exact cleared_of_approach rfl rfl ends

/-- A guarded command whose argument has to be looked up. -/
def greeting : Node String :=
  .node
    { name := "greet", kind := .literal, lead := none, aliases := [], optional := false
      fallback := none, flags := [], assertions := [.custom "guard"], executor := none
      labels := [] }
    [.node
      { name := "whom", kind := .argument (.custom "find" true), lead := none, aliases := []
        optional := false, fallback := none, flags := [], assertions := []
        executor := some "greet", labels := [] }
      []]

/-- Everyone may pass the guard, and what is read is asked for. -/
def greetingEnv : DispatchEnv String Unit (LookupJob String) where
  parser _ scan state := (.awaitable "ask", (scan.reader.collect CharClass.notSpace).2, state)
  assertion _ _ state := (.ok none, state)
  lacking := none
  execute _ invocation := .done (.ok .nothing, invocation)
  begin := id

def greetingHistory : List (Happening Unit (LookupJob String)) :=
  [.saw (), .left (), .spawned (.custom "ask") 7, .waited .turn (.ok .null),
    .waited .turn (.ok .null), .waited (.task 7) (.ok (.text "me")),
    .waited .turn (.ok .null), .waited .turn (.ok .null)]

def greetingRegistry : CommandRegistry String :=
  ((CommandRegistry.new "!" false).register greeting).2

theorem greeting_arrives :
    ∃ ready,
      (approach greetingEnv.toWalkEnv greetingEnv.begin greetingRegistry
        { Invocation.ofText "!greet me" with
          message := none, origin := ⟨.null, none, none⟩ }).Ends
        greetingHistory (.ready "greet" ready) := by
  exact ⟨_, .get _ (.put (.spawn _ (.wait _ (.wait _ (.wait _ (.wait _ (.wait _ .done)))))))⟩

theorem greeting_executes_once_cleared :
    let start : Invocation String :=
      { Invocation.ofText "!greet me" with message := none, origin := ⟨.null, none, none⟩ }
    ∃ ready,
      (approach greetingEnv.toWalkEnv greetingEnv.begin greetingRegistry start).Ends
        greetingHistory (.ready "greet" ready) ∧
      ∃ state rest command,
        greetingHistory = .saw state :: rest ∧
        Walk.commandOf greetingRegistry start.reader = some command ∧
        Cleared greetingEnv.begin command
          ((Walk.ofLine greetingEnv.patience greetingRegistry).trace greetingEnv.toWalkEnv start state)
          greetingHistory "greet" ready := by
  rcases greeting_arrives with ⟨ready, ends⟩
  have cleared :=
    (run_executes_once_cleared greetingEnv greetingRegistry "!greet me" none
      ⟨.null, none, none⟩).2
  exact ⟨ready, ends, cleared greetingHistory "greet" ready ends⟩

end Dispatch

end Steward
