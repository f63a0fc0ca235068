import Steward.Proofs.Command.Fallbacks
import Steward.Proofs.Command.FlagTokens
import Steward.Proofs.Command.Tracing

/-!
# How flags are resolved

What a walk shows about flags, it shows at the flag tokens of the line: everything else that a visit
does neither records a value for a flag nor reports one as unknown, except what an assertion raises
(`Walk.ofLine_shows_about_flags`).

With what is known at a flag token this says how a dispatch treats flags, whatever the tree, its
callbacks and the line are (`Dispatch.flags_resolve_exactly`): a token stands for the last flag of
its name that a visited node brought, the value is recorded for that flag and no other, and a token
that stands for no flag is reported with its exact place.
-/

namespace Steward

variable {F σ J α : Type}

namespace Walk

section Notes

variable {env : WalkEnv F σ} {start : Invocation F} {state : σ}

/-! ## Nothing else is about flags -/

/-- No values are recorded for flags, and no flag is reported as unknown. -/
def Rules.flagless : Rules F where
  stop halt := halt.errorKind? ≠ some .unknownFlag
  change _ := True
  join := True
  record table := table ≠ .flags

theorem Rules.flagless_lenient : (Rules.flagless : Rules F).Lenient where
  moves _ := trivial
  announces _ := trivial
  records := ValueTable.noConfusion
  fails failure := by
    have silent : (Halt.ofParseFailure failure).errorKind? = none :=
      Outcome.errorKind?_ofParseFailure failure
    show (Halt.ofParseFailure failure).errorKind? ≠ _
    rw [silent]
    exact (Option.some_ne_none _).symm
  refuses reason := nofun

/-- A walk without flags shows something about them only where an assertion raises it. -/
theorem Obeys.raised {walk : Walk F α} {note : Note F} (obeys : walk.Obeys .flagless)
    (shows : walk.Shows env start state note) (about : note.IsAboutFlags) :
    ∃ assertion halt, note = .stopped halt ∧
      walk.Shows env start state (.happened (.tested assertion (.error halt))) := by
  induction obeys generalizing start state with
  | done value =>
      exact absurd shows (not_shows_done value)
  | stop allowed =>
      rw [shows_stop_iff] at shows
      subst shows
      cases about with
      | unknown reports =>
          exact absurd reports allowed
  | look _ ih =>
      rw [shows_look_iff] at shows
      simpa using ih start shows
  | change _ _ ih =>
      rw [shows_change_iff] at shows
      simpa using ih shows
  | join node _ _ ih =>
      rcases (shows_join_iff _ _).1 shows with rfl | shows
      · cases about
      · rcases ih shows with ⟨assertion, halt, isStop, tested⟩
        exact ⟨assertion, halt, isStop, (shows_join_iff _ _).2 (.inr tested)⟩
  | test assertion _ ih =>
      rcases (shows_test_iff _ _).1 shows with
        ⟨reason, between, tested, rfl | shows⟩ | ⟨halt, after, tested, rfl | rfl⟩
      · cases about
      · rcases ih reason shows with ⟨other, halt, isStop, raises⟩
        exact ⟨other, halt, isStop,
          (shows_test_iff _ _).2 (.inl ⟨reason, between, tested, .inr raises⟩)⟩
      · cases about
      · exact ⟨assertion, halt, rfl,
          (shows_test_iff _ _).2 (.inr ⟨halt, after, tested, .inl rfl⟩)⟩
  | read parser halts _ ih =>
      rcases (shows_read_iff _ _).1 shows with ⟨result, reached, between, read, rfl | shows⟩
      · cases about
      · have followed : result ≠ .endless := by
          rintro rfl
          rw [halts, shows_stop_iff] at shows
          subst shows
          cases about with
          | unknown reports =>
              cases reports
        rcases ih result followed shows with ⟨assertion, halt, isStop, raises⟩
        exact ⟨assertion, halt, isStop,
          (shows_read_iff _ _).2 ⟨result, reached, between, read, .inr raises⟩⟩
  | record name result allowed _ ih =>
      rcases (shows_record_iff _ _ _ _).1 shows with rfl | shows
      · cases about
        exact absurd rfl allowed
      · rcases ih shows with ⟨assertion, halt, isStop, raises⟩
        exact ⟨assertion, halt, isStop, (shows_record_iff _ _ _ _).2 (.inr raises)⟩

theorem upToFlags_obeys (node : Node F) : (upToFlags node).Obeys .flagless := by
  have lenient := Rules.flagless_lenient (F := F)
  refine (enter_obeys lenient trivial node).seq fun _ => (readOwn_obeys lenient node).seq fun _ => ?_
  exact (knowFlags_obeys (fun _ => trivial) _).seq fun _ => reading_obeys lenient _

theorem fill_flagless (node : Node F) (executor : Option F) :
    (fill node executor).Obeys .flagless := by
  exact fill_obeys Rules.flagless_lenient trivial (fun _ => trivial) node executor

/-- What is shown about flags where flags are looked for is shown by a flag that is met. -/
theorem readFlags_shows {fuel : Nat} {note : Note F}
    (shows : (readFlags fuel).Shows env start state note) (about : note.IsAboutFlags) :
    ∃ here now, AmongFlags env fuel start state here now ∧ readFlag.Shows env here now note := by
  induction fuel generalizing start state with
  | zero =>
      rw [readFlags, shows_get_seq_iff] at shows
      split at shows
      · rw [shows_stop_iff] at shows
        subst shows
        cases about with
        | unknown reports =>
            cases reports
      · exact absurd shows (not_shows_done ())
  | succ fuel ih =>
      rw [readFlags, shows_get_seq_iff] at shows
      split at shows
      · rename_i dash
        rcases shows_seq_iff.1 shows with shows | ⟨_, _, _, _, passes, shows⟩
        · exact ⟨start, state, .here dash, shows⟩
        · rcases ih shows with ⟨here, now, among, shows⟩
          exact ⟨here, now, .behind dash passes among, shows⟩
      · exact absurd shows (not_shows_done ())

theorem throughFlags_shows_about_flags {node : Node F} {note : Note F}
    (shows : (throughFlags env.patience node).Shows env start state note)
    (about : note.IsAboutFlags) :
    (∃ here now, MeetsFlag env node start state here now ∧ readFlag.Shows env here now note) ∨
      ∃ assertion halt, note = .stopped halt ∧
        (throughFlags env.patience node).Shows env start state
          (.happened (.tested assertion (.error halt))) := by
  rcases shows_seq_iff.1 shows with shows | ⟨events, ⟨⟩, reached, between, arrives, shows⟩
  · rcases (upToFlags_obeys node).raised shows about with ⟨assertion, halt, isStop, raises⟩
    exact .inr ⟨assertion, halt, isStop, shows_seq_iff.2 (.inl raises)⟩
  · rw [shows_get_seq_iff] at shows
    rcases shows_seq_iff.1 shows with shows | ⟨passed, ⟨⟩, behind, later, passes, shows⟩
    · rcases readFlags_shows shows about with ⟨here, now, among, shows⟩
      exact .inl ⟨here, now, .own arrives among, shows⟩
    · have rest : (knowArgument node >>= fun _ => skipSpace).Obeys .flagless :=
        (knowArgument_obeys Rules.flagless_lenient node).seq fun _ =>
          reading_obeys Rules.flagless_lenient _
      rcases rest.raised shows about with ⟨assertion, halt, isStop, raises⟩
      refine .inr ⟨assertion, halt, isStop, shows_seq_iff.2 (.inr ⟨_, _, _, _, arrives, ?_⟩)⟩
      rw [shows_get_seq_iff]
      exact shows_seq_iff.2 (.inr ⟨_, _, _, _, passes, raises⟩)

/-- Behind the part of a node, a child is visited, or nothing is about flags. -/
theorem goOn_cases (patience : Nat) (children : List (Node F)) (executor : Option F)
    (reader : Reader) :
    (goOn patience children executor reader).Obeys .flagless ∨
      ∃ child, reader.atEnd = false ∧
        Node.selected? children (reader.upcoming CharClass.notSpace) = some child ∧
        goOn patience children executor reader = visit patience child executor := by
  cases atEnd : reader.atEnd with
  | true =>
      refine .inl ?_
      rw [goOn_eq, if_pos atEnd]
      split
      · exact fill_flagless _ _
      · exact .done _
  | false =>
      cases selected : Node.selected? children (reader.upcoming CharClass.notSpace) with
      | none =>
          refine .inl ?_
          rw [goOn_eq, atEnd, if_neg Bool.false_ne_true, selected]
          refine (reading_obeys Rules.flagless_lenient _).seq fun _ => .stop ?_
          rintro ⟨⟩
      | some child =>
          refine .inr ⟨child, rfl, rfl, ?_⟩
          rw [goOn_eq, atEnd, if_neg Bool.false_ne_true, selected]

/-- What a visit shows about flags is shown by a flag token that it meets, unless an assertion
raises it. -/
theorem visit_shows_about_flags (node : Node F) {executor : Option F} {note : Note F}
    (shows : (visit env.patience node executor).Shows env start state note)
    (about : note.IsAboutFlags) :
    (∃ here now, MeetsFlag env node start state here now ∧ readFlag.Shows env here now note) ∨
      ∃ assertion halt, note = .stopped halt ∧
        (visit env.patience node executor).Shows env start state
          (.happened (.tested assertion (.error halt))) := by
  induction node using Node.inductionOn generalizing start state executor with
  | step head children ih =>
      rw [visit_eq_throughFlags] at shows ⊢
      rcases shows_seq_iff.1 shows with shows | ⟨events, ⟨⟩, reached, between, arrives, shows⟩
      · rcases throughFlags_shows_about_flags shows about with
          meets | ⟨assertion, halt, isStop, raises⟩
        · exact .inl meets
        · exact .inr ⟨assertion, halt, isStop, shows_seq_iff.2 (.inl raises)⟩
      · rw [shows_get_seq_iff] at shows
        -- Whatever is raised further down is raised on the way of this visit.
        have lift : ∀ {other}, (goOn env.patience children
            (executorBelow (.node head children) executor) reached.reader).Shows env reached between
              other →
            (throughFlags env.patience (.node head children) >>= fun _ => get >>= fun after =>
              goOn env.patience children (executorBelow (.node head children) executor)
                after.reader).Shows env start state other :=
          fun shows => shows_seq_iff.2 (.inr ⟨_, _, _, _, arrives, shows_get_seq_iff.2 shows⟩)
        rcases goOn_cases env.patience children (executorBelow (.node head children) executor)
            reached.reader with obeys | ⟨child, goesOn, selected, visits⟩
        · rcases obeys.raised shows about with ⟨assertion, halt, isStop, raises⟩
          exact .inr ⟨assertion, halt, isStop, lift raises⟩
        · rw [Node.children, visits] at shows
          rcases ih child (Node.mem_of_selected? selected) shows with
            ⟨here, now, meets, shows⟩ | ⟨assertion, halt, isStop, raises⟩
          · exact .inl ⟨here, now, .further arrives goesOn selected meets, shows⟩
          · exact .inr ⟨assertion, halt, isStop, lift (visits ▸ raises)⟩

/-! ## The walk of a line -/

/-- The walk of a line meets a flag token: so does the visit of the line's command. -/
def LineMeetsFlag (env : WalkEnv F σ) (registry : CommandRegistry F) (start : Invocation F)
    (state : σ) (here : Invocation F) (now : σ) : Prop :=
  ∃ command, commandOf registry start.reader = some command ∧ start.reader.atEnd = false ∧
    MeetsFlag env command { start with command := some command } state here now

/-- The walk of a line finds its command, and visits it unless the line is empty. -/
theorem ofLine_eq (patience : Nat) (registry : CommandRegistry F) :
    ofLine patience registry = get >>= fun before =>
      match commandOf registry before.reader with
      | none => .stop (.reported (.fail ("No command by name `" ++
          LowerCase.lower (before.reader.upcoming CharClass.notSpace) ++ "`")))
      | some command =>
        modify (fun invocation => { invocation with command := some command }) >>= fun _ =>
          get >>= fun found =>
            if found.reader.atEnd then fill command none else visit patience command none := by
  rfl

variable {registry : CommandRegistry F} {here : Invocation F} {now : σ}

theorem LineMeetsFlag.comesTo (meets : LineMeetsFlag env registry start state here now) :
    (ofLine env.patience registry).ComesTo env start state readFlag here now := by
  rcases meets with ⟨command, found, goesOn, meets⟩
  have finds : (modify fun invocation => { invocation with command := some command }).Goes env start
      state [] () { start with command := some command } state := ⟨rfl, rfl⟩
  have unread : ({ start with command := some command } : Invocation F).reader.atEnd = false :=
    goesOn
  rw [ofLine_eq]
  apply ComesTo.get
  rw [found]
  apply ComesTo.behind finds
  apply ComesTo.get
  rw [unread, if_neg Bool.false_ne_true]
  exact meets.comesTo none

theorem LineMeetsFlag.dash (meets : LineMeetsFlag env registry start state here now) :
    here.reader.current = '-' := by
  rcases meets with ⟨command, -, -, meets⟩
  exact meets.dash

theorem LineMeetsFlag.knowsFlags (meets : LineMeetsFlag env registry start state here now)
    (knows : start.KnowsFlags) : here.KnowsFlags := by
  rcases meets with ⟨command, -, -, meets⟩
  exact meets.knowsFlags knows

/-- What the walk of a line shows about flags is shown by a flag token that it meets, unless an
assertion raises it. -/
theorem ofLine_shows_about_flags {note : Note F}
    (shows : (ofLine env.patience registry).Shows env start state note) (about : note.IsAboutFlags) :
    (∃ here now, LineMeetsFlag env registry start state here now ∧
      readFlag.Shows env here now note) ∨
      ∃ assertion halt, note = .stopped halt ∧
        .tested assertion (.error halt) ∈
          (ofLine env.patience registry).trace env start state := by
  cases found : commandOf registry start.reader with
  | none =>
      rw [ofLine_eq, shows_get_seq_iff, found, shows_stop_iff] at shows
      subst shows
      cases about with
      | unknown reports =>
          cases reports
  | some command =>
      have follows : ∀ other, (ofLine env.patience registry).Shows env start state other ↔
          (if start.reader.atEnd then fill command none
            else visit env.patience command none).Shows env
              { start with command := some command } state other := by
        intro other
        rw [ofLine_eq, shows_get_seq_iff, found]
        exact (shows_change_iff _ _).trans shows_get_seq_iff
      rw [follows] at shows
      split at shows
      · rename_i atEnd
        rcases (fill_flagless command none).raised shows about with
          ⟨assertion, halt, isStop, raises⟩
        refine .inr ⟨assertion, halt, isStop, (follows (.happened _)).2 ?_⟩
        rw [if_pos atEnd]
        exact raises
      · rename_i goesOn
        rcases visit_shows_about_flags command shows about with
          ⟨here, now, meets, shows⟩ | ⟨assertion, halt, isStop, raises⟩
        · exact .inl ⟨here, now, ⟨command, found, Bool.eq_false_iff.2 goesOn, meets⟩, shows⟩
        · refine .inr ⟨assertion, halt, isStop, (follows (.happened _)).2 ?_⟩
          rw [if_neg goesOn]
          exact raises

/-! ## What is met is resolved -/

/-- A flag token of a name that no visited node brought stops the walk. -/
theorem LineMeetsFlag.unknown (meets : LineMeetsFlag env registry start state here now)
    (knows : start.KnowsFlags) (nobody : Node.flagCalled here.chain here.reader.flagName = none) :
    (ofLine env.patience registry).run env start state =
      (.error (.reported (unknownFlag here.reader.flagName here.reader.flagSpan)),
        behindName here, now) := by
  have known := meets.knowsFlags knows here.reader.flagName
  exact meets.comesTo.run_eq_error (readFlag_unknown env now (known.trans nobody)).1

variable {flag : Flag F} {reached : Invocation F} {later : σ}

/-- So does a flag whose value can not be read. -/
theorem LineMeetsFlag.failed (meets : LineMeetsFlag env registry start state here now)
    (knows : start.KnowsFlags) (found : Node.flagCalled here.chain here.reader.flagName = some flag)
    {value : ParseResult Nat} (reads : flagValue env flag (behindName here) now =
      (value, reached, later)) {halt : Halt} (halts : halt? value = some halt) :
    (ofLine env.patience registry).run env start state = (.error halt, reached, later) := by
  have known := meets.knowsFlags knows here.reader.flagName
  exact meets.comesTo.run_eq_error (readFlag_failed (known.trans found) reads halts).1

/-- Any other value is recorded for the flag that the token stands for, under its own name. -/
theorem LineMeetsFlag.recorded (meets : LineMeetsFlag env registry start state here now)
    (knows : start.KnowsFlags) (found : Node.flagCalled here.chain here.reader.flagName = some flag)
    {value : ParseResult Nat} (reads : flagValue env flag (behindName here) now =
      (value, reached, later)) (fine : halt? value = none) :
    ∃ stop, readFlag.Goes env here now (flagEvents flag value) () stop later ∧
      stop.flagResults = here.flagResults.insert flag.name value ∧
      stop.argumentResults = here.argumentResults := by
  have known := meets.knowsFlags knows here.reader.flagName
  rcases flagValue_results reads with ⟨flags, arguments⟩
  refine ⟨_, readFlag_recorded (known.trans found) reads fine, ?_, ?_⟩
  · rw [Invocation.withReader, Invocation.recordResult_flagResults, flags]
    rfl
  · rw [Invocation.withReader, Invocation.recordResult_argumentResults, arguments]
    exact if_neg ValueTable.noConfusion

/-- Whatever is recorded for a flag is the value that was read at a token that stands for it. -/
theorem meets_of_recorded {name : String} {value : ParseResult Nat} (knows : start.KnowsFlags)
    (recorded : .recorded .flags name value ∈
      (ofLine env.patience registry).trace env start state) :
    ∃ here now flag, LineMeetsFlag env registry start state here now ∧
      Node.flagCalled here.chain here.reader.flagName = some flag ∧ flag.name = name ∧
      (flagValue env flag (behindName here) now).1 = value := by
  have shows : (ofLine env.patience registry).Shows env start state
      (.happened (.recorded .flags name value)) := recorded
  rcases ofLine_shows_about_flags shows (.recorded name value) with
    ⟨here, now, meets, shows⟩ | ⟨_, _, ⟨⟩, -⟩
  rcases readFlag_shows shows (.recorded name value) with ⟨-, ⟨⟩⟩ | ⟨flag, found, -, isRecord⟩
  cases isRecord
  exact ⟨here, now, flag, meets, (meets.knowsFlags knows _).symm.trans found, rfl, rfl⟩

end Notes

end Walk

namespace Dispatch

/-! ## How a dispatch ends -/

section Ends

variable {env : WalkEnv F σ} {begin : LookupJob F → J} {registry : CommandRegistry F}
  {start last : Invocation F} {history : List (Happening σ J)} {result : CommandResult}

/-- Leaving the stage of execution changes nothing about a result, unless it is interrupted. -/
theorem conclude_ends {given : Exit CommandResult} {invocation : Invocation F}
    (ends : (conclude given invocation : Activity σ J _).Ends history (.ok result, last)) :
    given = .ok result ∧ last = invocation := by
  rw [conclude, Activity.ends_wait_seq_iff] at ends
  rcases ends with ⟨interrupt | value, _, ends, -⟩
  · dsimp only at ends
    rw [Activity.ends_seq_iff] at ends
    rcases ends with ⟨_, _, _, -, ends, -⟩
    cases ((Activity.ends_pure_iff _ _ _).1 ends).2
  · dsimp only at ends
    rw [Activity.ends_seq_iff] at ends
    rcases ends with ⟨_, _, _, -, ends, -⟩
    cases ((Activity.ends_pure_iff _ _ _).1 ends).2
    exact ⟨rfl, rfl⟩

/-- What an approach is over with after a walk: the outcome that was reported of it, nothing to
execute, or the failures of lookups. -/
inductive Concludes (reached last : Invocation F) :
    Except Halt (Option F) → CommandResult → Prop where
  | stopped (outcome : Outcome) (tasks : List TaskId)
      (same : last = { reached with tasks := tasks }) :
      Concludes reached last (.error (.reported outcome)) (.ofOutcome outcome)
  | nothing : Concludes reached last (.ok none) (.ofOutcome .noExecutor)
  | failed (executor : F) (failures : List Failure) :
      Concludes reached last (.ok (some executor))
        (.ofOutcome (.several (failures.map .ofParseFailure)))

/-- What is left of an approach that is over. -/
theorem over_ends {activity : Activity σ J α} {given : α → Exit CommandResult}
    {invocation : α → Invocation F}
    (ends : (activity >>= fun value => pure (Approach.over (given value) (invocation value))).Ends
      history (.over (.ok result) last)) :
    ∃ first value, activity.Ends first value ∧ given value = .ok result ∧ invocation value = last := by
  rw [Activity.ends_seq_iff] at ends
  rcases ends with ⟨first, value, _, begins, ends, -⟩
  rcases Approach.over.inj ((Activity.ends_pure_iff _ _ _).1 ends).2 with ⟨isResult, isLast⟩
  exact ⟨first, value, begins, isResult, isLast⟩

theorem approach_ends_over
    (ends : (approach env begin registry start).Ends history (.over (.ok result) last)) :
    ∃ state walked reached after rest,
      (Walk.ofLine env.patience registry).run env start state = (walked, reached, after) ∧
      history = .saw state :: rest ∧ Concludes reached last walked result := by
  rw [approach, Activity.ends_atomically_seq_iff] at ends
  rcases ends with ⟨state, _, ends, rfl⟩
  rcases walks : (Walk.ofLine env.patience registry).run env start state with
    ⟨walked, reached, after⟩
  simp only [walks] at ends
  rw [Activity.ends_seq_iff] at ends
  rcases ends with ⟨begins, tasks, _, -, ends, rfl⟩
  refine ⟨state, walked, reached, after, _, walks, rfl, ?_⟩
  rcases walked with halt | _ | executor
  · rcases over_ends ends with ⟨_, _, -, exits, rfl⟩
    cases halt with
    | reported outcome =>
        cases exits
        exact .stopped outcome tasks rfl
    | escaped | endless =>
        cases exits
  · rcases over_ends ends with ⟨_, _, -, ⟨⟩, rfl⟩
    exact .nothing
  · dsimp only at ends
    rw [Activity.ends_wait_seq_iff] at ends
    rcases ends with ⟨interrupt | turn, _, ends, -⟩
    · rcases over_ends ends with ⟨_, _, -, ⟨⟩, -⟩
    dsimp only at ends
    rw [Activity.ends_seq_iff] at ends
    rcases ends with ⟨_, interrupt | joined, _, -, ends, -⟩
    · rcases over_ends ends with ⟨_, ⟨given, left⟩, concludes, rfl, -⟩
      cases (conclude_ends concludes).1
    dsimp only at ends
    split at ends
    · cases ((Activity.ends_pure_iff _ _ _).1 ends).2
    · rcases over_ends ends with ⟨_, ⟨given, left⟩, concludes, rfl, -⟩
      cases (conclude_ends concludes).1
      exact .failed executor _

end Ends

/-! ## Flags of a dispatch -/

/-- An outcome reports an unknown flag exactly: the span covers the name, which is the whole run of
characters behind a dash of the line, and no node of the chain brought a flag of that name. -/
structure ReportsFlag (outcome : Outcome) (last : Invocation F) (name : String) (place : Span) :
    Prop where
  outcome_eq : outcome =
    .erroneous ("No flag by alias `" ++ name ++ "`") .unknownFlag (some place) false none
  source_eq : place.source = last.reader.text
  covers : place.CoversDashed name
  nobody : ∀ node ∈ last.chain, ∀ flag ∈ node.head.flags, name ≠ flag.name ∧ name ∉ flag.aliases

section Flags

variable {env : DispatchEnv F σ J} {registry : CommandRegistry F} {start last : Invocation F}
  {history : List (Happening σ J)} {result leaf : CommandResult}

/-- A dispatch returns what its approach is over with, or the result of its executor. -/
theorem run_ends_cases (ends : (run env registry start).Ends history (.ok result, last)) :
    (approach env.toWalkEnv env.begin registry start).Ends history (.over (.ok result) last) ∨
      ∃ before during rest executor ready exit left,
        history = before ++ (during ++ rest) ∧
        (approach env.toWalkEnv env.begin registry start).Ends before (.ready executor ready) ∧
        (env.execute executor ready).Ends during (exit, left) ∧ resultOfExit exit = .ok result := by
  rw [run, Activity.ends_seq_iff] at ends
  rcases ends with ⟨before, reached, rest, approaches, ends, rfl⟩
  rcases reached with ⟨given, invocation⟩ | ⟨executor, ready⟩
  · rcases (Activity.ends_pure_iff _ _ _).1 ends with ⟨rfl, same⟩
    cases same
    rw [List.append_nil]
    exact .inl approaches
  · dsimp only at ends
    rw [Activity.ends_seq_iff] at ends
    rcases ends with ⟨during, ⟨exit, left⟩, rest, executes, concludes, rfl⟩
    exact .inr ⟨before, during, rest, executor, ready, exit, left, rfl, approaches, executes,
      (conclude_ends concludes).1⟩

/-- The outcome that is reported of the walk of a line is one leaf. -/
theorem unwrap_of_stopped {env : WalkEnv F σ} {state : σ} {outcome : Outcome}
    (stops : ((Walk.ofLine env.patience registry).run env start state).1 =
      .error (.reported outcome)) :
    (CommandResult.ofOutcome outcome).unwrap = [.ofOutcome outcome] := by
  have ending := (Walk.ofLine_regular env.patience registry).ending env start state
  rw [stops] at ending
  generalize (Walk.ofLine env.patience registry).mishaps env start state = mishaps at ending
  generalize reports : (.error (.reported outcome) : Except Halt (Option F)) = walked at ending
  cases ending with
  | arrives | endless =>
      cases reports
  | fails | refuses =>
      cases reports
      rfl
  | raises mishap =>
      rcases mishap.outcome_of_reported (Except.error.inj reports).symm with ⟨contained, rfl⟩
      exact contained.unwrap_outcome

/-- An executor reports an unknown flag if it answers with that result, or the report is raised
where its failure is worded. -/
inductive ExecutorReports (result leaf : CommandResult) : Exit Reply → Prop where
  | answered : ExecutorReports result leaf (.ok (.result result))
  | worded {failure raised : Failure} (unworded : failure.instead? = some raised)
      (reports : Halt.ofRaised raised = .reported leaf.outcome) :
      ExecutorReports result leaf (.error (.failed failure))

theorem executorReports_of_exit {exit : Exit Reply} (same : resultOfExit exit = .ok result)
    (member : leaf ∈ result.unwrap) (reports : leaf.outcome.errorKind? = some .unknownFlag) :
    ExecutorReports result leaf exit := by
  rcases exit with (failure | _ | _) | reply
  · have same : (Halt.ofExecutor failure).exit = .ok result := same
    rw [Halt.ofExecutor] at same
    cases unworded : failure.instead? with
    | none =>
        rw [unworded] at same
        cases same
        have single : leaf = .ofOutcome (.ofExecutor failure) := by
          have alone := (Mishap.mk .executor failure).unwrap_outcome
          rw [Mishap.outcome] at alone
          dsimp only at alone
          rw [alone] at member
          exact List.mem_singleton.1 member
        rw [single, CommandResult.ofOutcome, Outcome.ofExecutor] at reports
        dsimp only at reports
        split at reports <;> cases reports
    | some raised =>
        rw [unworded] at same
        have same : (Halt.ofRaised raised).exit = .ok result := same
        refine .worded unworded ?_
        rw [Mishap.halt_ofRaised] at same ⊢
        cases contained : Mishap.ofRaised raised with
        | error escapes =>
            rw [contained] at same
            cases same
        | ok mishap =>
            rw [contained] at same
            cases same
            rw [mishap.unwrap_outcome] at member
            rw [List.mem_singleton.1 member]
            rfl
  · cases same
  · cases same
  · cases reply with
    | nothing | feedback | other =>
        cases same
        rw [List.mem_singleton.1 member] at reports
        cases reports
    | result own =>
        cases same
        exact .answered

theorem not_reports_of_lookups {failures : List Failure}
    (member : leaf ∈ (CommandResult.ofOutcome (.several (failures.map .ofParseFailure))).unwrap) :
    leaf.outcome.errorKind? = none := by
  have member : leaf ∈ (Outcome.several (failures.map .ofParseFailure)).leaves.map
      CommandResult.ofOutcome := member
  rw [leaves_ofParseFailure] at member
  rcases List.mem_map.1 member with ⟨_, isOne, rfl⟩
  rcases List.mem_map.1 isOne with ⟨failure, -, rfl⟩
  exact Outcome.errorKind?_ofParseFailure failure

/-- An unknown flag that is reported for a line was met on it as a flag token of a name that no
visited node brought, unless an assertion raised the report. -/
theorem reports_of_approach {env : WalkEnv F σ} {begin : LookupJob F → J}
    (knows : start.KnowsFlags)
    (ends : (approach env begin registry start).Ends history (.over (.ok result) last))
    (member : leaf ∈ result.unwrap) (reports : leaf.outcome.errorKind? = some .unknownFlag) :
    (∃ name place, ReportsFlag leaf.outcome last name place) ∨
      ∃ state rest assertion, history = .saw state :: rest ∧
        .tested assertion (.error (.reported leaf.outcome)) ∈
          (Walk.ofLine env.patience registry).trace env start state := by
  rcases approach_ends_over ends with ⟨state, walked, reached, after, rest, walks, rfl, concludes⟩
  cases concludes with
  | stopped outcome tasks same =>
      have stops : ((Walk.ofLine env.patience registry).run env start state).1 =
          .error (.reported outcome) := by
        rw [walks]
      rw [unwrap_of_stopped stops, List.mem_singleton] at member
      subst member
      have shows : (Walk.ofLine env.patience registry).Shows env start state
          (.stopped (.reported outcome)) := stops
      rcases Walk.ofLine_shows_about_flags shows (.unknown reports) with
        ⟨here, now, meets, shows⟩ | ⟨assertion, other, isStop, raises⟩
      · rcases Walk.readFlag_shows shows (.unknown reports) with
          ⟨unknown, isReport⟩ | ⟨flag, -, -, isRecord⟩
        · have nobody := (meets.knowsFlags knows _).symm.trans unknown
          have ran := meets.unknown knows nobody
          rw [walks] at ran
          cases ran
          rcases Reader.flagSpan_covers meets.dash with ⟨covers, source⟩
          have sameText : last.reader.text = here.reader.text := by
            rw [same]
            exact Walk.behindName_text here
          have sameChain : last.chain = here.chain := by
            rw [same]
            exact Walk.behindName_chain here
          refine .inl ⟨here.reader.flagName, here.reader.flagSpan, rfl, ?_, covers, ?_⟩
          · exact source.trans sameText.symm
          · rw [sameChain]
            exact Node.flagCalled_eq_none_iff.1 nobody
        · cases isRecord
      · cases isStop
        exact .inr ⟨state, rest, assertion, rfl, raises⟩
  | nothing =>
      rw [List.mem_singleton.1 member] at reports
      cases reports
  | failed executor failures =>
      rw [not_reports_of_lookups member] at reports
      cases reports

/-- The flags of a line are resolved exactly, whatever the tree, its callbacks and the line are.

A dispatch reports an unknown flag only if the span covers its name, the whole run of characters
behind a dash, and no node that was visited brought a flag of that name; unless an assertion raised
the report or the executor answered with it, or raised it where its failure was worded.

Where a flag token is met, the walk reads a flag.  If visited nodes brought flags of that name, the
last one is used: a value that could not be read ends the walk, and any other is recorded under the
flag's own name and nowhere else.  No other values are recorded for flags.  However far flags are
followed, a search for them that is over has left no dash. -/
theorem flags_resolve_exactly (env : DispatchEnv F σ J) (registry : CommandRegistry F)
    (text : String) (message : Option Message) (origin : Origin) :
    let start : Invocation F := { Invocation.ofText text with message := message, origin := origin }
    (∀ history result last leaf,
      (run env registry start).Ends history (.ok result, last) → leaf ∈ result.unwrap →
      leaf.outcome.errorKind? = some .unknownFlag →
      (∃ name place, ReportsFlag leaf.outcome last name place) ∨
      (∃ state rest assertion, history = .saw state :: rest ∧
        .tested assertion (.error (.reported leaf.outcome)) ∈
          (Walk.ofLine env.patience registry).trace env.toWalkEnv start state) ∨
      ∃ before during rest executor ready exit left, history = before ++ (during ++ rest) ∧
        (approach env.toWalkEnv env.begin registry start).Ends before (.ready executor ready) ∧
        (env.execute executor ready).Ends during (exit, left) ∧
        ExecutorReports result leaf exit) ∧
    (∀ state here now, Walk.LineMeetsFlag env.toWalkEnv registry start state here now →
      (Walk.ofLine env.patience registry).ComesTo env.toWalkEnv start state Walk.readFlag here now ∧
      (Node.flagCalled here.chain here.reader.flagName = none →
        (Walk.ofLine env.patience registry).run env.toWalkEnv start state =
          (.error (.reported (Walk.unknownFlag here.reader.flagName here.reader.flagSpan)),
            Walk.behindName here, now)) ∧
      ∀ flag, Node.flagCalled here.chain here.reader.flagName = some flag →
        ∀ value reached later,
          Walk.flagValue env.toWalkEnv flag (Walk.behindName here) now = (value, reached, later) →
          (∀ halt, Walk.halt? value = some halt →
            (Walk.ofLine env.patience registry).run env.toWalkEnv start state =
              (.error halt, reached, later)) ∧
          (Walk.halt? value = none → ∃ stop,
            Walk.readFlag.Goes env.toWalkEnv here now (Walk.flagEvents flag value) () stop later ∧
            stop.flagResults = here.flagResults.insert flag.name value ∧
            stop.argumentResults = here.argumentResults)) ∧
    (∀ state name value,
      .recorded .flags name value ∈ (Walk.ofLine env.patience registry).trace env.toWalkEnv start state →
      ∃ here now flag, Walk.LineMeetsFlag env.toWalkEnv registry start state here now ∧
        Node.flagCalled here.chain here.reader.flagName = some flag ∧ flag.name = name ∧
        (Walk.flagValue env.toWalkEnv flag (Walk.behindName here) now).1 = value) ∧
    ∀ fuel before state events stop after,
      (Walk.readFlags fuel).Goes env.toWalkEnv before state events () stop after →
        stop.reader.current ≠ '-' := by
  intro start
  have knows : start.KnowsFlags := fun name => rfl
  refine ⟨?_, ?_, ?_, ?_⟩
  · intro history result last leaf ends member reports
    rcases run_ends_cases ends with approaches |
      ⟨before, during, rest, executor, ready, exit, left, history, approaches, executes, same⟩
    · exact (reports_of_approach knows approaches member reports).imp_right .inl
    · exact .inr (.inr ⟨before, during, rest, executor, ready, exit, left, history, approaches,
        executes, executorReports_of_exit same member reports⟩)
  · intro state here now meets
    refine ⟨meets.comesTo, meets.unknown knows, ?_⟩
    intro flag found value reached later reads
    constructor
    · intro halt halts
      exact meets.failed knows found reads halts
    · intro fine
      exact meets.recorded knows found reads fine
  · intro state name value recorded
    exact Walk.meets_of_recorded knows recorded
  · intro fuel before state events stop after goes
    exact Walk.readFlags_exhausts goes

end Flags

end Dispatch

/-! ## Reports that are not about a flag -/

namespace Doorman

/-- The doorman asks about flags in his own words, whether he guards a door or is spoken to. -/
def question : Failure := .command "Which flag?" .unknownFlag none false none

def command (name : String) (assertions : List (Assertion String)) : Node String :=
  .node
    { name := name, kind := .literal, lead := none, aliases := [], optional := false
      fallback := none, flags := [], assertions := assertions, executor := some "answer"
      labels := [] }
    []

def registry : CommandRegistry String :=
  (((CommandRegistry.new "?" false).register (command "knock" [.custom "guard"])).2.register
    (command "ask" [])).2

def env : DispatchEnv String Unit (LookupJob String) where
  parser _ scan state := (.bare .null, scan.reader, state)
  assertion _ _ state := (.error question, state)
  lacking := none
  execute _ invocation := .done (.ok (.result (.ofOutcome (.ofRaised question))), invocation)
  begin := id

def start (line : String) : Invocation String :=
  { Invocation.ofText line with message := none, origin := ⟨.null, none, none⟩ }

theorem not_reportsFlag (last : Invocation String) :
    ¬ ∃ name place, Dispatch.ReportsFlag (.ofRaised question) last name place := by
  rintro ⟨name, place, reports⟩
  cases (Outcome.erroneous.inj reports.outcome_eq).2.2.1

/-- An assertion and an executor can each make a dispatch end in an error of the kind of an unknown
flag that has no span and names no flag. -/
theorem asks_about_no_flag :
    (∃ last, (Dispatch.run env registry (start "?knock")).Ends [.saw (), .left ()]
        (.ok (.ofOutcome (.ofRaised question)), last) ∧
      (Outcome.ofRaised question).errorKind? = some .unknownFlag ∧
      ¬ ∃ name place, Dispatch.ReportsFlag (.ofRaised question) last name place) ∧
    ∃ last, (Dispatch.run env registry (start "?ask")).Ends
        [.saw (), .left (), .waited .turn (.ok .null), .waited .turn (.ok .null)]
        (.ok (.ofOutcome (.ofRaised question)), last) ∧
      ¬ ∃ name place, Dispatch.ReportsFlag (.ofRaised question) last name place := by
  have knocks : ∃ last, (Dispatch.run env registry (start "?knock")).Ends [.saw (), .left ()]
      (.ok (.ofOutcome (.ofRaised question)), last) := ⟨_, .get _ (.put .done)⟩
  have asks : ∃ last, (Dispatch.run env registry (start "?ask")).Ends
      [.saw (), .left (), .waited .turn (.ok .null), .waited .turn (.ok .null)]
      (.ok (.ofOutcome (.ofRaised question)), last) :=
    ⟨_, .get _ (.put (.wait _ (.wait _ .done)))⟩
  rcases knocks with ⟨last, knocks⟩
  rcases asks with ⟨left, asks⟩
  exact ⟨⟨last, knocks, rfl, not_reportsFlag last⟩, left, asks, not_reportsFlag left⟩

end Doorman

/-! ## A flag that is overridden, and one that nobody knows -/

namespace Luggage

def size : Flag String := ⟨"size", ["s"], some .string, none⟩

def isSealed : Flag String := ⟨"sealed", ["s"], none, none⟩

def literal (name : String) (flags : List (Flag String)) (executor : Option String)
    (children : List (Node String)) : Node String :=
  .node
    { name := name, kind := .literal, lead := some "?", aliases := [], optional := false
      fallback := none, flags := flags, assertions := [], executor := executor, labels := [] }
    children

/-- The short name of the size is that of the seal where boxes are concerned. -/
def registry : CommandRegistry String :=
  ((CommandRegistry.new "?" false).register
    (literal "pack" [size] none [literal "box" [isSealed] (some "pack") []])).2

def env : DispatchEnv String Unit (LookupJob String) where
  parser _ scan state := (.bare .null, scan.reader, state)
  assertion _ _ state := (.ok none, state)
  lacking := none
  execute _ invocation := .done (.ok .nothing, invocation)
  begin := id

def line : String := "?pack -s big box -s -x"

def start : Invocation String :=
  { Invocation.ofText line with message := none, origin := ⟨.null, none, none⟩ }

def report : Outcome := Walk.unknownFlag "x" ⟨line.toList, 21, 21⟩

theorem trace_eq : (Walk.ofLine env.patience registry).trace env.toWalkEnv start () =
    [.joined (literal "pack" [size] none [literal "box" [isSealed] (some "pack") []]),
      .read .string (.settled (.ok (.text "big"))),
      .recorded .flags "size" (.settled (.ok (.text "big"))),
      .joined (literal "box" [isSealed] (some "pack") []),
      .recorded .flags "sealed" (.settled (.ok (.bool true)))] := by
  rfl

theorem stops : ((Walk.ofLine env.patience registry).run env.toWalkEnv start ()).1 =
    .error (.reported report) := by
  rfl

/-- In front of the box a size is read, behind it a seal, and what comes then is unknown. -/
theorem box_is_sealed :
    (∃ last name place, (Dispatch.run env registry start).Ends [.saw (), .left ()]
        (.ok (.ofOutcome report), last) ∧ Dispatch.ReportsFlag report last name place) ∧
    (∃ here stop : Invocation String,
      Walk.LineMeetsFlag env.toWalkEnv registry start () here () ∧
      Node.flagCalled here.chain here.reader.flagName = some isSealed ∧
      Walk.readFlag.Goes env.toWalkEnv here ()
        [.recorded .flags "sealed" (.settled (.ok (.bool true)))] () stop () ∧
      stop.flagResults = here.flagResults.insert "sealed" (.settled (.ok (.bool true)))) ∧
    (∃ here flag, Walk.LineMeetsFlag env.toWalkEnv registry start () here () ∧
      Node.flagCalled here.chain here.reader.flagName = some flag ∧ flag.name = "size") ∧
    ∃ here events, ∃ stop : Invocation String, here.reader.current = '-' ∧
      (Walk.readFlags 2).Goes env.toWalkEnv here () events () stop () ∧
        stop.reader.current ≠ '-' := by
  rcases Dispatch.flags_resolve_exactly env registry line none ⟨.null, none, none⟩ with
    ⟨reports, resolves, records, exhausts⟩
  refine ⟨?_, ?_, ?_, ?_⟩
  · have ends : ∃ last, (Dispatch.run env registry start).Ends [.saw (), .left ()]
        (.ok (.ofOutcome report), last) := ⟨_, .get _ (.put .done)⟩
    rcases ends with ⟨last, ends⟩
    rcases reports _ _ _ _ ends (List.mem_singleton_self _) rfl with
      ⟨name, place, exactly⟩ | ⟨state, _, assertion, -, raised⟩ |
        ⟨_, _, _, _, _, _, _, -, approaches, -⟩
    · exact ⟨last, name, place, ends, exactly⟩
    · have nothing : .tested assertion (.error (.reported report)) ∈
          (Walk.ofLine env.patience registry).trace env.toWalkEnv start () := raised
      rw [trace_eq] at nothing
      simp at nothing
    · rcases Dispatch.approach_ends approaches with ⟨state, _, _, _, _, _, walks, -⟩
      cases (congrArg Prod.fst walks).symm.trans stops
  · have meets : ∃ here, Walk.LineMeetsFlag env.toWalkEnv registry start () here () ∧
        Node.flagCalled here.chain here.reader.flagName = some isSealed :=
      ⟨_, ⟨_, rfl, rfl, .further ⟨rfl, rfl⟩ rfl rfl (.own ⟨rfl, rfl⟩ (.here rfl))⟩, rfl⟩
    rcases meets with ⟨here, meets, found⟩
    rcases (resolves () here () meets).2.2 isSealed found _ _ _ rfl with ⟨-, recorded⟩
    rcases recorded rfl with ⟨stop, goes, results, -⟩
    exact ⟨here, stop, meets, found, goes, results⟩
  · have recorded : .recorded .flags "size" (.settled (.ok (.text "big"))) ∈
        (Walk.ofLine env.patience registry).trace env.toWalkEnv start () := by
      rw [trace_eq]
      simp
    rcases records () _ _ recorded with ⟨here, ⟨⟩, flag, meets, found, named, -⟩
    exact ⟨here, flag, meets, found, named⟩
  · have goes : ∃ here events, ∃ stop : Invocation String, here.reader.current = '-' ∧
        (Walk.readFlags 2).Goes env.toWalkEnv here () events () stop () :=
      ⟨{ start with
          scan := .ofReader ⟨line.toList, 6, []⟩
          knownFlags := (OrderedMap.empty.insert "size" size).insert "s" size },
        _, _, rfl, ⟨rfl, rfl⟩⟩
    rcases goes with ⟨here, events, stop, dash, goes⟩
    exact ⟨here, events, stop, dash, goes, exhausts _ _ _ _ _ _ goes⟩

end Luggage

end Steward
