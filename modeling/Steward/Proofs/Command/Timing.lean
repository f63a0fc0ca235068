import Steward.Proofs.Command.Clearance
import Steward.Proofs.Command.Foretelling

/-!
# Dispatching whatever the lookups take

Lookups are tasks of their own, and how long they take is up to the platform and to the
callbacks.  A dispatch awaits them one by one, so it may be held up by one of them while
others end, in any order.

A trial of a dispatch follows it through a loop with whatever else there is.  It comes to
what was foretold from the walk of its line and the outcomes of its lookups, so two trials in
which the lookups come out alike agree, whatever the delays.
-/

namespace Steward

variable {F σ J : Type}

namespace Dispatch

variable {outcome : Nat → Except Failure Value}

/-! ## Beginning -/

/-- What a loop is after lookups were begun behind its tasks: each of them is to begin with its
work when its turn comes, or was given up. -/
structure HasBegun (run : J → Activity σ J (Exit Value)) (begin : LookupJob F → J)
    (origin : Origin) (reader : Reader) (launches : List (Launch F)) (earlier : List TaskId)
    (before after : Loop σ J) : Prop where
  length : after.tasks.length = before.tasks.length + launches.length
  kept : ∀ other < before.tasks.length, after.tasks[other]? = before.tasks[other]?
  ready : ∀ place launch, launches[place]? = some launch →
    after.tasks[before.tasks.length + place]? =
      some (.ready (if launch.dropped then .error .cancelled else .ok .null)
        (Loop.entry (run (begin (.prepare origin reader
          (earlier ++ List.range' before.tasks.length place) launch.lookup)))))

theorem HasBegun.cons {run : J → Activity σ J (Exit Value)} {begin : LookupJob F → J}
    {origin : Origin} {reader : Reader} {launch : Launch F} {rest : List (Launch F)}
    {earlier : List TaskId} {before given after : Loop σ J}
    (first : given.tasks = before.tasks ++
      [.ready (if launch.dropped then .error .cancelled else .ok .null)
        (Loop.entry (run (begin (.prepare origin reader earlier launch.lookup))))])
    (others : HasBegun run begin origin reader rest (earlier ++ [before.tasks.length]) given
      after) :
    HasBegun run begin origin reader (launch :: rest) earlier before after := by
  have number : given.tasks.length = before.tasks.length + 1 := by
    rw [first, List.length_append, List.length_singleton]
  refine ⟨?_, ?_, ?_⟩
  · rw [others.length, number, List.length_cons]
    omega
  · intro other old
    rw [others.kept other (by omega), first, List.getElem?_append_left old]
  · intro place found there
    cases place with
    | zero =>
        cases there
        rw [Nat.add_zero, others.kept _ (by omega), first, List.getElem?_concat_length,
          List.range'_zero, List.append_nil]
    | succ place =>
        have stands := others.ready place found there
        rw [number, List.append_assoc, List.singleton_append, ← List.range'_succ] at stands
        rw [← stands]
        congr 1
        omega

/-- Lookups are begun without giving way, and their tasks have consecutive numbers. -/
theorem beginLookups_goesThrough (run : J → Activity σ J (Exit Value)) (task : TaskId)
    (begin : LookupJob F → J) (origin : Origin) (reader : Reader) (launches : List (Launch F))
    (earlier : List TaskId) (loop : Loop σ J) :
    ∃ after history,
      Loop.GoesThrough run task loop (Scan.beginLookups begin origin reader launches earlier)
        history (earlier ++ List.range' loop.tasks.length launches.length) after ∧
      HasBegun run begin origin reader launches earlier loop after ∧
      (loop.Coherent (some task) → Loop.Leads (some task) (some task) loop after) := by
  induction launches generalizing earlier loop with
  | nil =>
      refine ⟨loop, [], ?_, ⟨rfl, fun _ _ => rfl, ?_⟩, Loop.Coherent.refl⟩
      · rw [List.length_nil, List.range'_zero, List.append_nil]
        exact .done
      · intro place launch found
        cases found
  | cons launch rest ih =>
      let work := run (begin (.prepare origin reader earlier launch.lookup))
      let spawned := (loop.addTask work).2
      have first : spawned.tasks = loop.tasks ++ [.ready (.ok .null) (Loop.entry work)] :=
        Loop.addTask_tasks loop work
      have numbers : ∀ (given : Loop σ J) answer,
          given.tasks = loop.tasks ++ [.ready answer (Loop.entry work)] →
          (earlier ++ [loop.tasks.length]) ++ List.range' given.tasks.length rest.length =
            earlier ++ List.range' loop.tasks.length (launch :: rest).length := by
        intro given answer more
        rw [more, List.length_append, List.length_singleton, List.length_cons, List.range'_succ,
          List.append_assoc, List.singleton_append]
      cases dropped : launch.dropped with
      | false =>
          rcases ih (earlier ++ [loop.tasks.length]) spawned with
            ⟨after, history, goes, others, leads⟩
          rw [numbers spawned _ first] at goes
          refine ⟨after, .spawned (begin (.prepare origin reader earlier launch.lookup))
            loop.tasks.length :: history, ?_, others.cons ?_, ?_⟩
          · rw [Scan.beginLookups, dropped]
            exact goes.spawn
          · rw [dropped]
            exact first
          · intro coherent
            have added := coherent.addTask work
            exact added.trans (leads added.coherent)
      | true =>
          let given := spawned.cancel loop.tasks.length (spawned.tasks.length + 1)
          have last : given.tasks =
              loop.tasks ++ [.ready (.error .cancelled) (Loop.entry work)] := by
            have found : spawned.tasks[loop.tasks.length]? =
                some (.ready (.ok .null) (Loop.entry work)) := by
              rw [first, List.getElem?_concat_length]
            show (spawned.cancel _ _).tasks = _
            rw [Loop.cancel_of_ready found]
            show spawned.tasks.set _ _ = _
            rw [first, List.set_append_right _ _ (Nat.le_refl _), Nat.sub_self]
            rfl
          rcases ih (earlier ++ [loop.tasks.length]) given with
            ⟨after, history, goes, others, leads⟩
          rw [numbers given _ last] at goes
          refine ⟨after, .spawned (begin (.prepare origin reader earlier launch.lookup))
            loop.tasks.length :: .cancelled loop.tasks.length :: history, ?_, others.cons ?_, ?_⟩
          · rw [Scan.beginLookups, dropped]
            exact goes.cancel.spawn
          · rw [dropped]
            exact last
          · intro coherent
            have added := coherent.addTask work
            have cancelled := added.coherent.cancel loop.tasks.length (spawned.tasks.length + 1)
            exact added.trans (cancelled.trans (leads cancelled.coherent))

/-- The invocation that a walk leaves, its lookups being begun behind some tasks. -/
def begun (tasks : Nat) (last : Invocation F) : Invocation F :=
  { last with tasks := List.range' tasks last.scan.lookups.length }

theorem getElem?_tasks_begun (tasks : Nat) {last : Invocation F} {lookup : Nat}
    (bound : lookup < last.scan.lookups.length) :
    (begun tasks last).tasks[lookup]? = some (tasks + lookup) := by
  rw [begun, List.getElem?_range' bound, Nat.one_mul]

theorem getD_tasks_begun (tasks : Nat) {last : Invocation F} {lookup : Nat}
    (bound : lookup < last.scan.lookups.length) :
    (begun tasks last).tasks.getD lookup 0 = tasks + lookup := by
  rw [List.getD_eq_getElem?_getD, getElem?_tasks_begun tasks bound, Option.getD_some]

section Beginning

variable {env : WalkEnv F σ} {begin : LookupJob F → J} {registry : CommandRegistry F}
  {start last : Invocation F} {walked : Except Halt (Option F)} {after : σ}
  {trial : Trial σ J} {next : Approach F → Activity σ J (Exit Value)}

/-- An approach begins with the walk of its line and goes on behind its lookups. -/
theorem approach_begins (body : trial.body = (approach env begin registry start).bind next)
    (walks : (Walk.ofLine env.patience registry).run env start trial.loop.state = (walked, last, after)) :
    ∃ begins further,
      (Scan.beginLookups begin last.origin last.reader last.scan.lookups []).Ends begins
        (begun trial.loop.tasks.length last).tasks ∧
      (trial.after 0).history = (.saw trial.loop.state :: .left after :: begins) ++ further ∧
      ((proceed walked (begun trial.loop.tasks.length last)).bind next).Reaches further
        (trial.after 0).left := by
  rcases beginLookups_goesThrough trial.run trial.task begin last.origin last.reader
      last.scan.lookups [] { trial.loop with state := after } with ⟨loop, begins, goes, -⟩
  rw [List.nil_append] at goes
  have whole : Loop.account trial.run trial.task trial.loop trial.body =
      ((Loop.account trial.run trial.task { trial.loop with state := after }
        ((launch begin walked last).bind next)).map (.left after :: ·) id).map
          (.saw trial.loop.state :: ·) id := by
    rw [body, approach_eq]
    show (Loop.account trial.run trial.task trial.loop (Activity.bind _ next)).map _ id = _
    dsimp only
    rw [walks]
    rfl
  have launched : (launch begin walked last : Activity σ J _).bind next =
      (Scan.beginLookups begin last.origin last.reader last.scan.lookups []).bind fun tasks =>
        (proceed walked { last with tasks := tasks }).bind next :=
    Activity.bind_assoc _ _ _
  rw [launched, goes.accounts] at whole
  refine ⟨begins, _, goes.ends, congrArg Prod.fst whole, ?_⟩
  have left : (trial.after 0).left = _ := congrArg Prod.snd whole
  rw [left]
  exact (Loop.perform_piece trial.run trial.task loop _).reaches

/-- An approach ends when what follows its walk does. -/
theorem approach_ends_of_proceed {state : σ} {begins during : List (Happening σ J)}
    {tasks : List TaskId} {answer : Approach F}
    (walks : (Walk.ofLine env.patience registry).run env start state = (walked, last, after))
    (ends : (Scan.beginLookups begin last.origin last.reader last.scan.lookups []).Ends begins
      tasks)
    (proceeds : (proceed walked { last with tasks := tasks }).Ends during answer) :
    (approach env begin registry start).Ends
      ((.saw state :: .left after :: begins) ++ during) answer := by
  rw [approach_eq]
  refine .get state ?_
  rw [walks]
  exact .put (ends.bind proceeds)

end Beginning

/-! ## Trials of a dispatch -/

/-- The task of a lookup of the line that a trial begins with: the lookups are begun one
after another, behind the tasks that are there. -/
def lookupTask (trial : Trial σ J) (lookup : Nat) : TaskId :=
  trial.loop.tasks.length + lookup

/-- A trial in which a line is dispatched, whatever else the loop runs and whatever follows
the dispatch.  The approach is not cancelled, and if there is an executor to run, then each
lookup that was recorded ends some time, with its outcome. -/
structure Dispatches (env : DispatchEnv F σ J) (registry : CommandRegistry F)
    (start : Invocation F) (outcome : Nat → Except Failure Value) (trial : Trial σ J) : Prop where
  sound : trial.IsSound
  runs : ∃ next, trial.body = (run env registry start).bind next
  undisturbed : ∀ steps during rest left on, (trial.after steps).history = during ++ rest →
    (approach env.toWalkEnv env.begin registry start).Reaches during left →
      .waited on (.error .cancelled) ∉ during
  settles : ∀ executor last after,
    (Walk.ofLine env.patience registry).run env.toWalkEnv start trial.loop.state =
        (.ok (some executor), last, after) →
      ∀ lookup ∈ last.awaited, ∃ steps, (trial.after steps).loop.exit? (lookupTask trial lookup) =
        some ((outcome lookup).mapError .failed)

namespace Dispatches

variable {env : DispatchEnv F σ J} {registry : CommandRegistry F} {start last : Invocation F}
  {walked : Except Halt (Option F)} {after : σ} {trial : Trial σ J}

theorem body (dispatches : Dispatches env registry start outcome trial) :
    ∃ next, trial.body = (approach env.toWalkEnv env.begin registry start).bind next := by
  rcases dispatches.runs with ⟨next, body⟩
  exact ⟨_, body.trans (Activity.bind_assoc _ _ _)⟩

/-- The lookups that were recorded have been begun. -/
theorem task_of_awaited {executor : F} {lookup : Nat} (nothing : start.awaited = [])
    (walks : (Walk.ofLine env.patience registry).run env.toWalkEnv start trial.loop.state =
      (.ok (some executor), last, after)) (member : lookup ∈ last.awaited) :
    (begun trial.loop.tasks.length last).tasks[lookup]? = some (lookupTask trial lookup) := by
  rcases Walk.ofLine_goes ⟨walks, rfl⟩ with ⟨command, nodes, -, advance, -⟩
  have recorded := advance.awaited
  rw [show ({ start with command := some command } : Invocation F).awaited = start.awaited from rfl,
    nothing, List.nil_append] at recorded
  exact getElem?_tasks_begun _ (advance.begun lookup (recorded ▸ member))

theorem foreseen (dispatches : Dispatches env registry start outcome trial) {executor : F}
    (nothing : start.awaited = [])
    (walks : (Walk.ofLine env.patience registry).run env.toWalkEnv start trial.loop.state =
      (.ok (some executor), last, after))
    {steps : Nat} {before during rest : List (Happening σ J)} {left : Activity σ J (Approach F)}
    (history : (trial.after steps).history = (before ++ during) ++ rest)
    (reaches : (approach env.toWalkEnv env.begin registry start).Reaches (before ++ during) left) :
    Foreseen (begun trial.loop.tasks.length last) outcome during := by
  have calm : ∀ on, .waited on (.error .cancelled) ∉ during := by
    intro on member
    exact dispatches.undisturbed steps _ rest left on history reaches
      (List.mem_append_right _ member)
  have answered : ∀ on answer, .waited on answer ∈ during →
      on.Answered (trial.after steps).loop answer := by
    intro on answer member
    apply (Trial.faithful dispatches.sound steps).answered
    rw [history]
    exact List.mem_append_left _ (List.mem_append_right _ member)
  constructor
  · intro answer member
    rcases answered .turn answer member with rfl | rfl
    · exact absurd member (calm .turn)
    · exact ⟨.null, rfl⟩
  · intro lookup awaited answer member
    have begins := task_of_awaited nothing walks awaited
    rw [List.getD_eq_getElem?_getD, begins, Option.getD_some] at member
    rcases answered _ answer member with rfl | ended
    · exact absurd member (calm _)
    · rcases dispatches.settles executor last after walks lookup awaited with ⟨settled, came⟩
      have early := Trial.exit?_mono dispatches.sound (Nat.le_max_left steps settled) ended
      have late := Trial.exit?_mono dispatches.sound (Nat.le_max_right steps settled) came
      exact Option.some.inj (early.symm.trans late)

/-- The approach of a dispatch comes to what is foretold. -/
theorem comesTo (dispatches : Dispatches env registry start outcome trial)
    (nothing : start.awaited = [])
    (walks : (Walk.ofLine env.patience registry).run env.toWalkEnv start trial.loop.state =
      (walked, last, after)) :
    ∃ steps, trial.ComesTo (approach env.toWalkEnv env.begin registry start) steps
      (foretell outcome walked (begun trial.loop.tasks.length last)) := by
  rcases dispatches.body with ⟨next, body⟩
  rcases approach_begins body walks with ⟨begins, further, ends, history, reached⟩
  have passes : (proceed walked (begun trial.loop.tasks.length last) :
      Activity σ J _).WaitsFor trial.Passes := by
    apply proceed_waitsFor trivial
    rintro executor rfl lookup member
    rw [List.getD_eq_getElem?_getD, task_of_awaited nothing walks member]
    rcases dispatches.settles executor last after walks lookup member with ⟨steps, came⟩
    exact ⟨steps, _, came⟩
  rcases Trial.completes dispatches.sound passes history reached with
    ⟨steps, during, answer, rest, longer, proceeds⟩
  have approached := approach_ends_of_proceed walks ends proceeds
  rw [← List.append_assoc] at longer
  have came : answer = foretell outcome walked (begun trial.loop.tasks.length last) := by
    apply proceed_foreseen proceeds
    rintro executor rfl
    exact dispatches.foreseen nothing walks longer approached.reaches
  subst came
  exact ⟨steps, _, rest, longer, approached⟩

end Dispatches

theorem leaves_ofParseFailure (failed : List Failure) :
    (Outcome.several (failed.map .ofParseFailure)).leaves = failed.map .ofParseFailure := by
  rw [Outcome.leaves]
  induction failed with
  | nil =>
      rfl
  | cons failure rest ih =>
      have leaf : (Outcome.ofParseFailure failure).leaves = [.ofParseFailure failure] := by
        cases failure <;> rfl
      rw [List.map_cons, Outcome.leavesOfAll, leaf, ih]
      rfl

end Dispatch

/-- Two approaches that differ in nothing but the numbers of the lookups' tasks. -/
inductive Approach.Alike : Approach F → Approach F → Prop where
  | over (result : Exit CommandResult) (invocation : Invocation F) (tasks : List TaskId) :
      Alike (.over result invocation) (.over result { invocation with tasks := tasks })
  | ready (executor : F) (invocation : Invocation F) (tasks : List TaskId) :
      Alike (.ready executor invocation) (.ready executor { invocation with tasks := tasks })

namespace Dispatch

section Trials

variable {env : DispatchEnv F σ J} {registry : CommandRegistry F} {start : Invocation F}

/-- A dispatch returns what its approach is over with. -/
theorem run_ends_of_over {history : List (Happening σ J)} {result : Exit CommandResult}
    {invocation : Invocation F}
    (ends : (approach env.toWalkEnv env.begin registry start).Ends history
      (.over result invocation)) :
    (run env registry start).Ends history (result, invocation) := by
  rw [run, Activity.ends_seq_iff]
  exact ⟨history, _, [], ends, .done, (List.append_nil history).symm⟩

/-- If there is an executor but lookups fail, the dispatch returns their failures, in the
order of recording. -/
theorem Dispatches.returns_failures {trial : Trial σ J}
    (dispatches : Dispatches env registry start outcome trial) (nothing : start.awaited = [])
    {executor : F} {last : Invocation F} {after : σ}
    (walks : (Walk.ofLine env.patience registry).run env.toWalkEnv start trial.loop.state =
      (.ok (some executor), last, after))
    (fails : last.awaited.filterMap (failureOf outcome) ≠ []) :
    ∃ steps invocation, trial.ComesTo (run env registry start) steps
      (.ok (.ofOutcome (.several
        ((last.awaited.filterMap (failureOf outcome)).map .ofParseFailure))), invocation) := by
  rcases dispatches.comesTo nothing walks with ⟨steps, during, rest, history, ends⟩
  rw [foretell_of_some (begun trial.loop.tasks.length last) executor fails] at ends
  exact ⟨steps, _, during, rest, history, run_ends_of_over ends⟩

end Trials

end Dispatch

/-! ## Two people who can not be found -/

namespace Meeting

/-- Someone to look for, or a command without an executor. -/
def person (name : String) (executor : Option String) (children : List (Node String)) :
    Node String :=
  .node
    { name := name, kind := .argument (.custom "find" true), lead := none, aliases := []
      optional := false, fallback := none, flags := [], assertions := [], executor := executor
      labels := [] }
    children

def command : Node String :=
  .node
    { name := "meet", kind := .literal, lead := none, aliases := [], optional := false
      fallback := none, flags := [], assertions := [], executor := none, labels := [] }
    [person "host" none [person "guest" (some "meet") []]]

/-- Whoever is named on the line is looked for under that name. -/
def env : DispatchEnv String Unit (LookupJob String) where
  parser _ scan state :=
    let (name, reader) := scan.reader.collect CharClass.notSpace
    (.awaitable name, reader, state)
  assertion _ _ state := (.ok none, state)
  lacking := none
  execute _ invocation := .done (.ok .nothing, invocation)
  begin := id

def registry : CommandRegistry String :=
  ((CommandRegistry.new "!" false).register command).2

def start : Invocation String :=
  { Invocation.ofText "!meet ann bob" with message := none, origin := ⟨.null, none, none⟩ }

def missing (name : String) : ParseError := ⟨"Nobody by the name of " ++ name, none⟩

/-- Looking for someone takes some seconds, and is in vain. -/
def lookFor (seconds : String → Nat) :
    LookupJob String → Activity Unit (LookupJob String) (Exit Value)
  | .custom name =>
    .wait (.sleep (Binary64.ofNat (seconds name))) fun _ =>
      .done (.error (.failed (.parse (missing name))))
  | _ => .done (.ok .null)

def body : Activity Unit (LookupJob String) (Exit Value) :=
  (Dispatch.run env registry start).bind fun _ => .done (.ok .null)

def trial (seconds : String → Nat) : Trial Unit (LookupJob String) where
  run := lookFor seconds
  loop := { Loop.start () with tasks := [.ready (.ok .null) fun _ => body] }
  task := 0
  body := body

def outcome (lookup : Nat) : Except Failure Value :=
  .error (.parse (missing (if lookup = 0 then "ann" else "bob")))

/-- Whether a task has ended because someone is missing. -/
def isMissing (name : String) : Option (Exit Value) → Bool
  | some (.error (.failed (.parse error))) => decide (error = missing name)
  | _ => false

theorem eq_of_isMissing {name : String} {exit : Option (Exit Value)}
    (reported : isMissing name exit = true) :
    exit = some (.error (.failed (.parse (missing name)))) := by
  unfold isMissing at reported
  split at reported
  · rw [of_decide_eq_true reported]
  · cases reported

def isCalm : Happening Unit (LookupJob String) → Bool
  | .waited _ (.error .cancelled) => false
  | _ => true

/-- Whether by some step the loop has come to rest, and both are found missing. -/
def isOver (seconds : String → Nat) (steps : Nat) : Bool :=
  let watch := (trial seconds).after steps
  (watch.loop.step (lookFor seconds)).isNone && watch.history.all isCalm &&
    isMissing "ann" (watch.loop.exit? 1) && isMissing "bob" (watch.loop.exit? 2)

theorem walks : ∃ last, (Walk.ofLine env.patience registry).run env.toWalkEnv start () =
    (.ok (some "meet"), last, ()) ∧ last.awaited = [0, 1] := by
  exact ⟨_, rfl, rfl⟩

theorem sound (seconds : String → Nat) : (trial seconds).IsSound := by
  exact ((Loop.Coherent.start ()).begin body).coherent

/-- A trial that is over by some step is one of the dispatch. -/
theorem dispatches {seconds : String → Nat} {steps : Nat} (rested : isOver seconds steps = true) :
    Dispatch.Dispatches env registry start outcome (trial seconds) := by
  simp only [isOver, Bool.and_eq_true, Option.isNone_iff_eq_none, List.all_eq_true] at rested
  rcases rested with ⟨⟨⟨rests, calm⟩, ann⟩, bob⟩
  refine ⟨sound seconds, ⟨_, rfl⟩, ?_, ?_⟩
  · intro early during rest left on history _ member
    have written : .waited on (.error .cancelled) ∈ ((trial seconds).after early).history := by
      rw [history]
      exact List.mem_append_left _ member
    cases calm _ (Trial.mem_history_of_rest (sound seconds) rests written)
  · intro executor last after walked lookup member
    rcases walks with ⟨_, same, awaited⟩
    cases same.symm.trans walked
    rw [awaited] at member
    refine ⟨steps, ?_⟩
    simp only [List.mem_cons, List.not_mem_nil, or_false] at member
    rcases member with rfl | rfl
    · exact eq_of_isMissing ann
    · exact eq_of_isMissing bob

end Meeting

end Steward
