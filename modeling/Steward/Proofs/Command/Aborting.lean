import Steward.Proofs.Command.Regular
import Steward.Proofs.Command.Timing
import Steward.Proofs.Parse.Chaining

/-!
# Dispatches that end on the way

Where the walk of a line ends before there is an executor to run, the dispatch is over at
once: the lookups that were begun are scheduled but have not run, and the recorded ones are
cancelled before they can.

A lookup that another one is chained to is not recorded, and so is not cancelled.  It stands
ready to begin when the dispatch returns, and begins when its turn comes.  Hence a lookup of
an aborted line acts exactly if another lookup is chained to it (`aborted_lookup_acts_iff`).
-/

namespace Steward

variable {F σ J α : Type}

/-- A regular walk accounts for the lookups that it begins, wherever it ends. -/
theorem Walk.Regular.run_accounted {walk : Walk F α} (regular : walk.Regular)
    (env : WalkEnv F σ) {start : Invocation F} (state : σ)
    (accounted : Scan.Accounted start.scan.lookups start.awaited) :
    Scan.Accounted (walk.run env start state).2.1.scan.lookups
      (walk.run env start state).2.1.awaited := by
  induction regular generalizing start state with
  | done | stop =>
      exact accounted
  | look _ ih =>
      exact ih start state accounted
  | change lookups awaited _ ih =>
      refine ih state ?_
      rw [lookups, awaited]
      exact accounted
  | join node _ ih =>
      exact ih state accounted
  | @test assertion next _ ih =>
      rw [run]
      rcases env.test assertion start state with ⟨outcome | reason, between⟩
      · exact accounted
      · exact ih reason between accounted
  | @read parser next table name following stops records _ ih =>
      have accounts := parser.read_accounts ⟨some start.origin, env.parser, env.patience⟩ start.scan state
        start.awaited accounted
      simp only [run, WalkEnv.read]
      generalize (parser.read _ start.scan state).2.2 = after
      generalize (parser.read _ start.scan state).2.1 = scan at accounts ⊢
      generalize (parser.read _ start.scan state).1 = result at accounts ⊢
      -- A reading that failed has nothing to await; any other result is recorded at once.
      rcases result with (failure | value) | lookup | _
      · rw [stops _ _ rfl, run]
        simpa [ParseResult.awaited] using accounts
      · rw [records _ rfl, run]
        apply ih
        simpa [ParseResult.awaited] using accounts
      · rw [records _ rfl, run]
        apply ih
        simpa [ParseResult.awaited] using accounts
      · rw [stops _ _ rfl, run]
        simpa [ParseResult.awaited] using accounts
  | record table name value _ ih =>
      rw [run]
      apply ih
      simpa using accounted

/-- The walk of a line accounts for the lookups that it begins. -/
theorem Walk.ofLine_accounted {env : WalkEnv F σ} {registry : CommandRegistry F}
    {start last : Invocation F} {state after : σ} {walked : Except Halt (Option F)}
    (fresh : start.scan.lookups = []) (nothing : start.awaited = [])
    (walks : (ofLine env.patience registry).run env start state = (walked, last, after)) :
    Scan.Accounted last.scan.lookups last.awaited := by
  have known := (ofLine_regular env.patience registry).run_accounted env state
    (fresh.symm ▸ nothing.symm ▸ Scan.Accounted.nil)
  rw [walks] at known
  exact known

/-! ## Cancelling lookups -/

namespace Dispatch

variable {loop : Loop σ J} {task : TaskId}

/-- Cancelling lookups that are ready interrupts these and leaves other ready tasks as they
are. -/
theorem cancelEach_goesThrough (run : J → Activity σ J (Exit Value)) (invocation : Invocation F)
    (lookups : List Nat) (coherent : loop.Coherent (some task))
    (ready : ∀ lookup ∈ lookups, loop.IsReady (invocation.tasks.getD lookup 0)) :
    ∃ after history,
      Loop.GoesThrough run task loop (cancelPending.go invocation lookups) history () after ∧
      Loop.Leads (some task) (some task) loop after ∧
      ∀ (other : TaskId) answer resumed, loop.tasks[other]? = some (.ready answer resumed) →
        after.tasks[other]? = some (.ready
          (if other ∈ lookups.map (invocation.tasks.getD · 0) then .error .cancelled else answer)
          resumed) := by
  induction lookups generalizing loop with
  | nil =>
      refine ⟨loop, [], .done, coherent.refl, ?_⟩
      intro other answer resumed found
      simpa using found
  | cons lookup rest ih =>
      let first := invocation.tasks.getD lookup 0
      let given := loop.cancel first (loop.tasks.length + 1)
      have cancelled : Loop.Leads (some task) (some task) loop given := coherent.cancel _ _
      rcases ready lookup List.mem_cons_self with ⟨own, begins, there⟩
      have stands : ∀ (other : TaskId) answer resumed,
          loop.tasks[other]? = some (.ready answer resumed) →
          given.tasks[other]? = some (.ready
            (if other = first then .error .cancelled else answer) resumed) := by
        intro other answer resumed found
        rw [show given = _ from Loop.cancel_of_ready there _]
        show (loop.tasks.set _ _)[other]? = _
        by_cases here : other = first
        · subst here
          cases there.symm.trans found
          rw [if_pos rfl, List.getElem?_set_self (List.getElem?_eq_some_iff.1 found).1]
        · rw [if_neg here, List.getElem?_set_ne (Ne.symm here)]
          exact found
      have still : ∀ other ∈ rest, given.IsReady (invocation.tasks.getD other 0) := by
        intro other member
        rcases ready other (List.mem_cons_of_mem _ member) with ⟨answer, resumed, found⟩
        exact ⟨_, _, stands _ answer resumed found⟩
      rcases ih cancelled.coherent still with ⟨after, history, goes, leads, others⟩
      refine ⟨after, .cancelled first :: history, goes.cancel, cancelled.trans leads, ?_⟩
      intro other answer resumed found
      have member : other ∈ (lookup :: rest).map (invocation.tasks.getD · 0) ↔
          other = first ∨ other ∈ rest.map (invocation.tasks.getD · 0) := List.mem_cons
      rw [others other _ resumed (stands other answer resumed found)]
      by_cases here : other = first
      · rw [if_pos here, ite_self, if_pos (member.2 (.inl here))]
      · rw [if_neg here]
        simp only [member, here, false_or]

/-! ## Dispatches that are over at once -/

/-- How a walk that comes to an end ends a dispatch that has no executor to run. -/
def abortion : Except Halt (Option F) → Option (Exit CommandResult)
  | .error .endless => none
  | .error halt => some halt.exit
  | .ok none => some (.ok (.ofOutcome .noExecutor))
  | .ok (some _) => none

theorem proceed_of_abortion {walked : Except Halt (Option F)} {exit : Exit CommandResult}
    (aborts : abortion walked = some exit) (invocation : Invocation F) :
    (proceed walked invocation : Activity σ J _) =
      (cancelPending invocation).bind fun _ => .done (.over exit invocation) := by
  rcases walked with halt | _ | executor
  · cases halt <;> cases aborts <;> rfl
  · cases aborts
    rfl
  · cases aborts

theorem perform_get_bind (jobs : J → Activity σ J (Exit Value)) (next : σ → Activity σ J α)
    (rest : α → Activity σ J (Exit Value)) :
    Loop.perform jobs task loop ((Activity.get next).bind rest) =
      Loop.perform jobs task loop ((next loop.state).bind rest) := by
  rfl

/-- An approach begins with the walk of its line and goes on behind its lookups. -/
theorem perform_approach (jobs : J → Activity σ J (Exit Value)) (env : WalkEnv F σ)
    (begin : LookupJob F → J) (registry : CommandRegistry F) {start last : Invocation F}
    {walked : Except Halt (Option F)} {after : σ}
    (walks : (Walk.ofLine env.patience registry).run env start loop.state = (walked, last, after))
    (rest : Approach F → Activity σ J (Exit Value)) :
    Loop.perform jobs task loop ((approach env begin registry start).bind rest) =
      Loop.perform jobs task { loop with state := after }
        ((Scan.beginLookups begin last.origin last.reader last.scan.lookups []).bind fun tasks =>
          (proceed walked { last with tasks := tasks }).bind rest) := by
  rw [approach_eq, perform_get_bind]
  dsimp only
  rw [walks]
  show Loop.perform jobs task { loop with state := after }
    ((launch begin walked last).bind rest) = _
  exact congrArg _ (Activity.bind_assoc _ _ _)

/-- The tasks of some lookups are those that were begun for them. -/
theorem mem_tasks_begun_iff (tasks : Nat) {last : Invocation F} {lookups : List Nat}
    (bound : ∀ lookup ∈ lookups, lookup < last.scan.lookups.length) (lookup : Nat) :
    tasks + lookup ∈ lookups.map ((begun tasks last).tasks.getD · 0) ↔ lookup ∈ lookups := by
  rw [List.mem_map]
  constructor
  · rintro ⟨other, member, same⟩
    rw [getD_tasks_begun tasks (bound other member)] at same
    rwa [← Nat.add_left_cancel same]
  · intro member
    exact ⟨lookup, member, getD_tasks_begun tasks (bound lookup member)⟩

/-- A dispatch that is aborted goes through in one piece.  Of the lookups of its line, those
that others are chained to are to begin when it returns, and the rest were given up. -/
theorem run_aborts (jobs : J → Activity σ J (Exit Value)) (env : DispatchEnv F σ J)
    (registry : CommandRegistry F) {start last : Invocation F}
    {walked : Except Halt (Option F)} {after : σ} {exit : Exit CommandResult}
    (coherent : loop.Coherent (some task)) (fresh : start.scan.lookups = [])
    (nothing : start.awaited = [])
    (walks : (Walk.ofLine env.patience registry).run env.toWalkEnv start loop.state =
      (walked, last, after))
    (aborts : abortion walked = some exit) :
    ∃ returned, Loop.Leads (some task) (some task) loop returned ∧
      (∀ lookup launch, last.scan.lookups[lookup]? = some launch →
        if lookup ∈ chainBases last.scan.lookups then
          returned.IsToBegin (loop.tasks.length + lookup)
            (jobs (env.begin (.prepare last.origin last.reader
              (List.range' loop.tasks.length lookup) launch.lookup)))
        else returned.IsGivenUp (loop.tasks.length + lookup)) ∧
      ∀ next : Exit CommandResult × Invocation F → Activity σ J (Exit Value),
        Loop.perform jobs task loop ((run env registry start).bind next) =
          Loop.perform jobs task returned
            (next (exit, begun loop.tasks.length last)) := by
  have accounted := Walk.ofLine_accounted fresh nothing walks
  let stop := begun loop.tasks.length last
  have entered : Loop.Leads (some task) (some task) loop { loop with state := after } :=
    coherent.withState after
  rcases beginLookups_goesThrough jobs task env.begin last.origin last.reader last.scan.lookups []
      { loop with state := after } with ⟨between, _, starts, hasBegun, leads⟩
  have begins := leads entered.coherent
  have ready : ∀ lookup ∈ last.awaited, between.IsReady (stop.tasks.getD lookup 0) := by
    intro lookup member
    have bound := accounted.recorded_lt lookup member
    rw [getD_tasks_begun _ bound]
    exact ⟨_, _, hasBegun.ready lookup _ (List.getElem?_eq_getElem bound)⟩
  rcases cancelEach_goesThrough jobs stop last.awaited begins.coherent ready with
    ⟨returned, _, concludes, cancels, stands⟩
  refine ⟨returned, entered.trans (begins.trans cancels), ?_, ?_⟩
  · intro lookup launch found
    have status := stands _ _ _ (hasBegun.ready lookup launch found)
    have recorded := mem_tasks_begun_iff loop.tasks.length accounted.recorded_lt lookup
    simp only [stop, recorded, List.nil_append] at status
    have known := accounted.unrecorded lookup launch found
    by_cases base : lookup ∈ chainBases last.scan.lookups
    · rcases known.1 base with ⟨kept, unnoted⟩
      rw [if_pos base, Loop.IsToBegin]
      rw [if_neg unnoted, kept] at status
      exact status
    · -- A lookup that is nobody's base was recorded, or was dropped when it was begun.
      rw [if_neg base]
      refine .inl ⟨jobs (env.begin (.prepare last.origin last.reader
        (List.range' loop.tasks.length lookup) launch.lookup)), status.trans ?_⟩
      by_cases noted : lookup ∈ last.awaited
      · rw [if_pos noted]
      · have dropped : launch.dropped = true := by
          by_contra kept
          exact base (known.2 ⟨by simpa using kept, noted⟩)
        rw [if_neg noted, dropped]
        rfl
  · intro next
    show Loop.perform jobs task loop ((Activity.bind (approach _ _ _ _) _).bind next) = _
    rw [Activity.bind_assoc, perform_approach jobs _ _ _ walks, starts.performs, List.nil_append,
      proceed_of_abortion aborts, Activity.bind_assoc]
    exact concludes.performs _

section Trials

variable {env : DispatchEnv F σ J} {registry : CommandRegistry F} {start last : Invocation F}
  {walked : Except Halt (Option F)} {after : σ} {exit : Exit CommandResult} {trial : Trial σ J}

/-- An aborted dispatch has returned before the loop takes a step. -/
theorem comesTo_of_abortion (sound : trial.IsSound)
    (runs : ∃ next, trial.body = (run env registry start).bind next)
    (walks : (Walk.ofLine env.patience registry).run env.toWalkEnv start trial.loop.state =
      (walked, last, after)) (aborts : abortion walked = some exit) :
    trial.ComesTo (run env registry start) 0
      (exit, begun trial.loop.tasks.length last) := by
  rcases runs with ⟨next, body⟩
  rcases approach_begins (body.trans (Activity.bind_assoc _ _ _)) walks with
    ⟨begins, further, ends, history, reached⟩
  have quiet : (proceed walked (begun trial.loop.tasks.length last) :
      Activity σ J _).WaitsFor fun _ => False := by
    rw [proceed_of_abortion aborts]
    exact (cancelPending_waitsFor _).bind fun _ => trivial
  rcases reached.of_bind (Trial.rests sound 0) with ⟨on, following, within, -⟩ |
    ⟨early, answer, rest, proceeds, -, rfl⟩
  · exact (quiet.along within).1.elim
  · have answers : answer = .over exit (begun trial.loop.tasks.length last) := by
      have concludes := proceeds.ends
      rw [proceed_of_abortion aborts] at concludes
      rcases concludes.exists_of_bind with ⟨_, _, _, -, last, -⟩
      exact ((Activity.ends_done_iff _ _ _).1 last).2.symm
    subst answers
    have approached := approach_ends_of_proceed walks ends proceeds.ends
    refine ⟨_, rest, ?_, run_ends_of_over approached⟩
    rw [history, List.append_assoc]

/-- The tasks of the lookups come behind the one that dispatches their line. -/
theorem task_ne_lookupTask (sound : trial.IsSound) (lookup : Nat) :
    some trial.task ≠ some (lookupTask trial lookup) := by
  intro same
  rcases sound.runs trial.task rfl with ⟨answer, resumed, found⟩
  have old := (List.getElem?_eq_some_iff.1 found).1
  rw [Option.some.inj same, lookupTask] at old
  omega

variable (sound : trial.IsSound) (runs : ∃ next, trial.body = (run env registry start).bind next)
  (fresh : start.scan.lookups = []) (nothing : start.awaited = [])
  (walks : (Walk.ofLine env.patience registry).run env.toWalkEnv start trial.loop.state =
    (walked, last, after)) (aborts : abortion walked = some exit)

include sound runs fresh nothing walks aborts

/-- What the loop is when an aborted dispatch has returned leads to the first step. -/
theorem returned_of_abortion :
    ∃ returned : Loop σ J, returned.Coherent (some trial.task) ∧
      Loop.Leads (some trial.task) none returned (trial.after 0).loop ∧
      ∀ lookup launch, last.scan.lookups[lookup]? = some launch →
        if lookup ∈ chainBases last.scan.lookups then
          returned.IsToBegin (lookupTask trial lookup)
            (trial.run (env.begin (.prepare last.origin last.reader
              (List.range' trial.loop.tasks.length lookup) launch.lookup)))
        else returned.IsGivenUp (lookupTask trial lookup) := by
  rcases runs with ⟨next, body⟩
  rcases run_aborts trial.run env registry sound fresh nothing walks aborts with
    ⟨returned, leads, stands, performs⟩
  refine ⟨returned, leads.coherent, ?_, stands⟩
  have rest := (leads.coherent.perform trial.run
    (next (exit, begun trial.loop.tasks.length last))).leads
  rw [← performs, ← body] at rest
  exact rest

/-- A lookup of an aborted line that no other one is chained to never acts. -/
theorem idle_of_abortion {lookup : Nat} (bound : lookup < last.scan.lookups.length)
    (single : lookup ∉ chainBases last.scan.lookups) (steps : Nat) :
    ¬ (trial.after steps).loop.Acts (lookupTask trial lookup) := by
  rcases returned_of_abortion sound runs fresh nothing walks aborts with
    ⟨returned, coherent, leads, stands⟩
  have givenUp := stands lookup _ (List.getElem?_eq_getElem bound)
  rw [if_neg single] at givenUp
  have stays := givenUp.leads leads coherent (task_ne_lookupTask sound lookup)
  have later := stays.later leads.coherent trial.run steps
  rw [← Trial.loop_after, Nat.zero_add] at later
  exact later.not_acts

/-- A lookup of an aborted line that another one is chained to goes on with its work when its
turn comes, unless it is cancelled by someone else. -/
theorem turnComes_of_abortion {lookup : Nat} {launch : Launch F}
    (found : last.scan.lookups[lookup]? = some launch)
    (base : lookup ∈ chainBases last.scan.lookups) :
    ∃ steps reply, (reply = .ok .null ∨ reply = .error .cancelled) ∧
      (trial.after steps).loop.turn? = some (lookupTask trial lookup, reply,
        Loop.entry (trial.run (env.begin (.prepare last.origin last.reader
          (List.range' trial.loop.tasks.length lookup) launch.lookup)))) := by
  rcases returned_of_abortion sound runs fresh nothing walks aborts with
    ⟨returned, coherent, leads, stands⟩
  have begins := stands lookup launch found
  rw [if_pos base] at begins
  rcases leads.ready (task_ne_lookupTask sound lookup) begins with ⟨answer, answers, there⟩
  rcases leads.coherent.turnComes trial.run there with ⟨steps, comes⟩
  rcases comes.turn with ⟨reply, replies, turn⟩
  rw [← Trial.loop_after, Nat.zero_add] at turn
  refine ⟨steps, reply, ?_, turn⟩
  rcases replies with rfl | cancelled
  · exact answers
  · exact .inr cancelled

end Trials

/-- Where a dispatch ends while its line is walked, it returns before anything else runs, and
of the lookups that were begun exactly those act afterwards that another lookup is chained to.
So nothing more comes of an aborted line if no lookup was chained, and in no other case.

Every task has something to do, and of the lookups that others are chained to none is
cancelled by anyone but the dispatch. -/
theorem aborted_lookup_acts_iff (env : DispatchEnv F σ J) (registry : CommandRegistry F)
    (text : String) (message : Option Message) (origin : Origin) {start last : Invocation F}
    (started : start = { Invocation.ofText text with message := message, origin := origin })
    {trial : Trial σ J} (sound : trial.IsSound)
    (runs : ∃ next, trial.body = (run env registry start).bind next)
    {walked : Except Halt (Option F)} {after : σ} {exit : Exit CommandResult}
    (walks : (Walk.ofLine env.patience registry).run env.toWalkEnv start trial.loop.state =
      (walked, last, after)) (aborts : abortion walked = some exit)
    (works : ∀ job, trial.run job ≠ .done (.error .cancelled))
    (spared : ∀ lookup ∈ chainBases last.scan.lookups, ∀ steps resumed,
      (trial.after steps).loop.turn? ≠
        some (lookupTask trial lookup, .error .cancelled, resumed)) :
    (∃ invocation, trial.ComesTo (run env registry start) 0 (exit, invocation)) ∧
    (∀ lookup < last.scan.lookups.length,
      (∃ steps, (trial.after steps).loop.Acts (lookupTask trial lookup)) ↔
        lookup ∈ chainBases last.scan.lookups) ∧
    ((∀ lookup < last.scan.lookups.length, ∀ steps,
        ¬ (trial.after steps).loop.Acts (lookupTask trial lookup)) ↔
      ∀ launch ∈ last.scan.lookups, launch.lookup.base? = none) := by
  have fresh : start.scan.lookups = [] := by
    rw [started]
    rfl
  have nothing : start.awaited = [] := by
    rw [started]
    rfl
  have each : ∀ lookup < last.scan.lookups.length,
      (∃ steps, (trial.after steps).loop.Acts (lookupTask trial lookup)) ↔
        lookup ∈ chainBases last.scan.lookups := by
    intro lookup bound
    constructor
    · rintro ⟨steps, acts⟩
      by_contra single
      exact idle_of_abortion sound runs fresh nothing walks aborts bound single steps acts
    · intro base
      rcases turnComes_of_abortion sound runs fresh nothing walks aborts
          (List.getElem?_eq_getElem bound) base with ⟨steps, reply, rfl | rfl, turn⟩
      · exact ⟨steps, _, _, turn, works _⟩
      · exact absurd turn (spared lookup base steps _)
  have accounted := Walk.ofLine_accounted fresh nothing walks
  refine ⟨⟨_, comesTo_of_abortion sound runs walks aborts⟩, each, ?_⟩
  constructor
  · intro idle launch member
    cases chained : launch.lookup.base? with
    | none =>
        rfl
    | some base =>
        have isBase : base ∈ chainBases last.scan.lookups :=
          List.mem_filterMap.2 ⟨launch, member, chained⟩
        have bound := accounted.bases_lt base isBase
        rcases (each base bound).2 isBase with ⟨steps, acts⟩
        exact absurd acts (idle base bound steps)
  · intro alone lookup bound steps acts
    rcases List.mem_filterMap.1 ((each lookup bound).1 ⟨steps, acts⟩) with
      ⟨launch, member, chained⟩
    rw [alone launch member] at chained
    cases chained

end Dispatch

/-! ## A member that is looked up in vain -/

/-- The users that the platform was asked for. -/
structure Asked where
  users : List Nat
  deriving DecidableEq

instance : Journaled Asked where
  enter entry asked :=
    match entry with
    | .request (.fetchUser id) => ⟨asked.users ++ [id]⟩
    | _ => asked

namespace Kick

def command : Node String :=
  .node
    { name := "kick", kind := .literal, lead := none, aliases := [], optional := false
      fallback := none, flags := [], assertions := [], executor := none, labels := [] }
    [.node
      { name := "who", kind := .argument .member, lead := none, aliases := [], optional := false
        fallback := none, flags := [], assertions := [], executor := none, labels := [] }
      [.node
        { name := "now", kind := .literal, lead := none, aliases := [], optional := false
          fallback := none, flags := [], assertions := [], executor := some "kick"
          labels := [] }
        []]]

def env : DispatchEnv String Asked (LookupJob String) where
  parser _ scan state := (.bare .null, scan.reader, state)
  assertion _ _ state := (.ok none, state)
  lacking := none
  execute _ invocation := .done (.ok .nothing, invocation)
  begin := id

def registry : CommandRegistry String :=
  ((CommandRegistry.new "?" false).register command).2

/-- Nobody is at hand. -/
def origin : Origin := ⟨.null, some ⟨[], []⟩, some ⟨100, [], []⟩⟩

def start : Invocation String :=
  { Invocation.ofText "?kick 123 nope" with message := none, origin := origin }

def body : Activity Asked (LookupJob String) (Exit Value) :=
  (Dispatch.run env registry start).bind fun _ => .done (.ok .null)

def trial : Trial Asked (LookupJob String) where
  run job := (LookupJob.run (fun _ => pure .null) job).attempt
  loop := { Loop.start ⟨[]⟩ with tasks := [.ready (.ok .null) fun _ => body] }
  task := 0
  body := body

theorem works (job : LookupJob String) : trial.run job ≠ .done (.error .cancelled) := by
  intro absurdity
  cases job <;> cases absurdity

/-- Whether the next step goes on with the user's lookup as cancelled. -/
def isCancelled (loop : Loop Asked (LookupJob String)) : Bool :=
  match loop.turn? with
  | some (1, .error .cancelled, _) => true
  | _ => false

theorem isCancelled_of_turn {loop : Loop Asked (LookupJob String)}
    {resumed : Exit Value → Activity Asked (LookupJob String) (Exit Value)}
    (turn : loop.turn? = some (1, .error .cancelled, resumed)) : isCancelled loop = true := by
  rw [isCancelled, turn]
  rfl

theorem walks : ∃ last, (Walk.ofLine env.patience registry).run env.toWalkEnv start ⟨[]⟩ =
    (.error (.reported (.fail "No subcommand by name `nope`")), last, ⟨[]⟩) ∧
      chainBases last.scan.lookups = [0] ∧ last.scan.lookups.length = 2 := by
  exact ⟨_, rfl, rfl, rfl⟩

/-- The line is refused because of its last word, and afterwards the platform is asked for
the user. -/
theorem asks_when_refused :
    ∃ invocation steps,
      trial.ComesTo (Dispatch.run env registry start) 0
        (.ok (.ofOutcome (.fail "No subcommand by name `nope`")), invocation) ∧
      (trial.after steps).loop.Acts (Dispatch.lookupTask trial 0) ∧
      (trial.after 0).loop.state.users = [] ∧ (trial.after 2).loop.state.users = [123] := by
  have sound : trial.IsSound := ((Loop.Coherent.start (⟨[]⟩ : Asked)).begin body).coherent
  have rests : (trial.after 3).loop.step trial.run = none := by
    rw [← Option.isNone_iff_eq_none]
    decide +kernel
  have calm : ∀ steps, isCancelled (trial.after steps).loop = false := by
    intro steps
    have early : ∀ steps < 4, isCancelled (trial.after steps).loop = false := by
      decide +kernel
    rcases Nat.lt_or_ge steps 3 with before | order
    · exact early steps (Nat.lt_succ_of_lt before)
    · rw [Trial.after_of_rest rests order]
      exact early 3 (Nat.lt_succ_self 3)
  rcases walks with ⟨last, walked, bases, length⟩
  have spared : ∀ lookup ∈ chainBases last.scan.lookups, ∀ steps resumed,
      (trial.after steps).loop.turn? ≠
        some (Dispatch.lookupTask trial lookup, .error .cancelled, resumed) := by
    intro lookup member steps resumed turn
    rw [bases] at member
    cases List.mem_singleton.1 member
    have cancelled := isCancelled_of_turn turn
    rw [calm] at cancelled
    cases cancelled
  rcases Dispatch.aborted_lookup_acts_iff env registry "?kick 123 nope" none origin rfl sound
      ⟨_, rfl⟩ walked rfl works spared with ⟨⟨invocation, came⟩, acts, -⟩
  rcases (acts 0 (by omega)).2 (by rw [bases]; exact List.mem_cons_self) with ⟨steps, acts⟩
  exact ⟨invocation, steps, came, acts, by decide +kernel, by decide +kernel⟩

end Kick

end Steward
