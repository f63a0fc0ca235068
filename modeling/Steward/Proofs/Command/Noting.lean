import Steward.Proofs.Command.Advance
import Steward.Proofs.Command.Leading

/-!
# What is noted of a walk

Of a walk can be noted what happens on it, and what it is stopped with.  What two walks
in a row show is what the first one shows, and what the second one does if the first arrives
(`shows_seq_iff`); that covers the ways that end early as well.

A walk comes to a part of it when nothing is left to do but the part and something behind it
(`ComesTo`), so whatever is noted of the part is noted of the walk.  What a walk does not do at all
can be read off its instructions (`Obeys`).
-/

namespace Steward.Walk

variable {F σ α β γ : Type}

theorem bind_assoc (walk : Walk F α) (next : α → Walk F β) (last : β → Walk F γ) :
    (walk.bind next).bind last = walk.bind fun value => (next value).bind last := by
  induction walk with
  | done value =>
      rfl
  | stop halt =>
      rfl
  | look after ih =>
      exact congrArg look (funext ih)
  | change f after ih =>
      exact congrArg (change f) ih
  | join node after ih =>
      exact congrArg (join node) ih
  | test assertion after ih =>
      exact congrArg (test assertion) (funext ih)
  | read parser after ih =>
      exact congrArg (read parser) (funext ih)
  | record table name result after ih =>
      exact congrArg (record table name result) ih

theorem trace_seq (env : WalkEnv F σ) (walk : Walk F α) (next : α → Walk F β)
    (start : Invocation F) (state : σ) :
    (walk >>= next).trace env start state =
      walk.trace env start state ++
        match walk.run env start state with
        | (.ok value, middle, between) => (next value).trace env middle between
        | (.error _, _, _) => [] := by
  show (walk.bind next).trace env start state = _
  induction walk generalizing start state with
  | done value =>
      rfl
  | stop halt =>
      rfl
  | look after ih =>
      exact ih start start state
  | change f after ih =>
      exact ih (f start) state
  | join node after ih =>
      exact congrArg (.joined node :: ·) (ih (start.visiting node) state)
  | test assertion after ih =>
      simp only [bind, trace, run]
      rcases env.test assertion start state with ⟨halt | reason, between⟩
      · rfl
      · exact congrArg (.tested assertion (.ok reason) :: ·) (ih reason start between)
  | read parser after ih =>
      simp only [bind, trace, run]
      rcases env.read parser start state with ⟨result, reached, between⟩
      exact congrArg (.read parser result :: ·) (ih result reached between)
  | record table name result after ih =>
      exact congrArg (.recorded table name result :: ·)
        (ih (start.recordResult table name result) state)

/-! ## Notes -/

/-- What can be noted of a walk: an event, or what it is stopped with. -/
inductive Note (F : Type) where
  | happened (event : Event F)
  | stopped (halt : Halt)

def Shows (env : WalkEnv F σ) (walk : Walk F α) (start : Invocation F) (state : σ) :
    Note F → Prop
  | .happened event => event ∈ walk.trace env start state
  | .stopped halt => (walk.run env start state).1 = .error halt

section Instructions

variable {env : WalkEnv F σ} {start : Invocation F} {state : σ} {note : Note F}

@[simp]
theorem not_shows_done (value : α) : ¬ (Walk.done value : Walk F α).Shows env start state note := by
  cases note <;> simp [Shows, trace, run]

@[simp]
theorem shows_stop_iff (halt : Halt) :
    (Walk.stop halt : Walk F α).Shows env start state note ↔ note = .stopped halt := by
  cases note with
  | happened event =>
      simp [Shows, trace]
  | stopped other =>
      simp [Shows, run, eq_comm]

@[simp]
theorem shows_look_iff (next : Invocation F → Walk F α) :
    (Walk.look next).Shows env start state note ↔ (next start).Shows env start state note := by
  cases note <;> rfl

@[simp]
theorem shows_change_iff (f : Invocation F → Invocation F) (next : Walk F α) :
    (Walk.change f next).Shows env start state note ↔ next.Shows env (f start) state note := by
  cases note <;> rfl

theorem shows_join_iff (node : Node F) (next : Walk F α) :
    (Walk.join node next).Shows env start state note ↔
      note = .happened (.joined node) ∨ next.Shows env (start.visiting node) state note := by
  cases note <;> simp [Shows, trace, run]

/-- A test is an event, and what it raises stops the walk. -/
theorem shows_test_iff (assertion : Assertion F) (next : Option String → Walk F α) :
    (Walk.test assertion next).Shows env start state note ↔
      (∃ reason between, env.test assertion start state = (.ok reason, between) ∧
        (note = .happened (.tested assertion (.ok reason)) ∨
          (next reason).Shows env start between note)) ∨
      ∃ halt after, env.test assertion start state = (.error halt, after) ∧
        (note = .happened (.tested assertion (.error halt)) ∨ note = .stopped halt) := by
  rcases tested : env.test assertion start state with ⟨halt | reason, between⟩
  · cases note <;> simp [Shows, trace, run, tested, eq_comm]
  · have shows : (Walk.test assertion next).Shows env start state note ↔
        note = .happened (.tested assertion (.ok reason)) ∨
          (next reason).Shows env start between note := by
      cases note <;> simp [Shows, trace, run, tested]
    rw [shows]
    constructor
    · exact fun shows => .inl ⟨reason, between, rfl, shows⟩
    · rintro (⟨_, _, ⟨⟩, shows⟩ | ⟨_, _, ⟨⟩, -⟩)
      exact shows

theorem shows_read_iff (parser : Parser F) (next : ParseResult Nat → Walk F α) :
    (Walk.read parser next).Shows env start state note ↔
      ∃ result reached between, env.read parser start state = (result, reached, between) ∧
        (note = .happened (.read parser result) ∨
          (next result).Shows env reached between note) := by
  rcases read : env.read parser start state with ⟨result, reached, between⟩
  have shows : (Walk.read parser next).Shows env start state note ↔
      note = .happened (.read parser result) ∨ (next result).Shows env reached between note := by
    cases note <;> simp [Shows, trace, run, read]
  rw [shows]
  constructor
  · exact fun shows => ⟨result, reached, between, rfl, shows⟩
  · rintro ⟨_, _, _, ⟨⟩, shows⟩
    exact shows

theorem shows_record_iff
    (table : ValueTable) (name : String) (result : ParseResult Nat) (next : Walk F α) :
    (Walk.record table name result next).Shows env start state note ↔
      note = .happened (.recorded table name result) ∨
        next.Shows env (start.recordResult table name result) state note := by
  cases note <;> simp [Shows, trace, run]

/-- A sequence shows what its first part does, and what its second part does from where the first
one arrives. -/
theorem shows_seq_iff {walk : Walk F α} {next : α → Walk F β} :
    (walk >>= next).Shows env start state note ↔
      walk.Shows env start state note ∨
        ∃ events value middle between,
          walk.Goes env start state events value middle between ∧
          (next value).Shows env middle between note := by
  rcases ran : walk.run env start state with ⟨halt | value, middle, between⟩
  · have nowhere : ¬ ∃ events value middle between,
        walk.Goes env start state events value middle between ∧
          (next value).Shows env middle between note := by
      rintro ⟨_, _, _, _, goes, -⟩
      rw [goes.run_eq] at ran
      cases ran
    rw [or_iff_left nowhere]
    cases note <;> simp [Shows, trace_seq, run_seq, ran]
  · have arrives : (∃ events value middle between,
        walk.Goes env start state events value middle between ∧
          (next value).Shows env middle between note) ↔
        (next value).Shows env middle between note := by
      constructor
      · rintro ⟨_, _, _, _, goes, shows⟩
        rw [goes.run_eq] at ran
        cases ran
        exact shows
      · intro shows
        exact ⟨_, value, middle, between, ⟨ran, rfl⟩, shows⟩
    rw [arrives]
    cases note <;> simp [Shows, trace_seq, run_seq, ran]

theorem shows_get_seq_iff {next : Invocation F → Walk F β} :
    (get >>= next).Shows env start state note ↔ (next start).Shows env start state note := by
  exact shows_look_iff next

end Instructions

/-! ## Coming to a part -/

section Parts

variable {env : WalkEnv F σ} {start middle here : Invocation F} {state between now : σ}

/-- A walk comes to a part of it: from there on it does the part, and then something else. -/
def ComesTo (env : WalkEnv F σ) (walk : Walk F α) (start : Invocation F) (state : σ)
    (part : Walk F β) (here : Invocation F) (now : σ) : Prop :=
  ∃ (next : β → Walk F α) (events : List (Event F)),
    walk.run env start state = (part >>= next).run env here now ∧
      walk.trace env start state = events ++ (part >>= next).trace env here now

namespace ComesTo

variable {walk : Walk F α} {part : Walk F γ}

theorem refl {next : γ → Walk F α} : (part >>= next).ComesTo env here now part here now := by
  exact ⟨next, [], rfl, rfl⟩

/-- What comes behind a walk does not matter for where the walk comes to. -/
theorem seq {next : α → Walk F β} (comes : walk.ComesTo env start state part here now) :
    (walk >>= next).ComesTo env start state part here now := by
  rcases comes with ⟨behind, events, ran, traced⟩
  have assoc : (part >>= fun value => behind value >>= next) = (part >>= behind) >>= next :=
    (bind_assoc part behind next).symm
  refine ⟨fun value => behind value >>= next, events, ?_, ?_⟩
  · rw [assoc, run_seq, run_seq, ran]
  · rw [assoc, trace_seq, trace_seq, ran, traced, List.append_assoc]

/-- What a walk comes to once its first part has arrived. -/
theorem behind {next : α → Walk F β} {events : List (Event F)} {value : α}
    (goes : walk.Goes env start state events value middle between)
    (comes : (next value).ComesTo env middle between part here now) :
    (walk >>= next).ComesTo env start state part here now := by
  rcases comes with ⟨last, later, ran, traced⟩
  refine ⟨last, events ++ later, ?_, ?_⟩
  · rw [run_seq, goes.run_eq]
    exact ran
  · rw [trace_seq, goes.run_eq, goes.trace_eq, List.append_assoc]
    exact congrArg (events ++ ·) traced

theorem get {next : Invocation F → Walk F β}
    (comes : (next start).ComesTo env start state part here now) :
    (Walk.get >>= next).ComesTo env start state part here now := by
  exact comes

/-- If the part is stopped, so is the walk. -/
theorem run_eq_error (comes : walk.ComesTo env start state part here now)
    {halt : Halt} {last : Invocation F} {after : σ}
    (stops : part.run env here now = (.error halt, last, after)) :
    walk.run env start state = (.error halt, last, after) := by
  rcases comes with ⟨next, events, ran, -⟩
  rw [ran, run_seq, stops]

theorem shows (comes : walk.ComesTo env start state part here now) {note : Note F}
    (shows : part.Shows env here now note) : walk.Shows env start state note := by
  rcases comes with ⟨next, events, ran, traced⟩
  have whole : (part >>= next).Shows env here now note := shows_seq_iff.2 (.inl shows)
  cases note with
  | happened event =>
      rw [Shows, traced]
      exact List.mem_append_right _ whole
  | stopped halt =>
      rw [Shows, ran]
      exact whole

end ComesTo

end Parts

/-! ## What the instructions of a walk may be -/

/-- Which instructions a walk may have, apart from those that look, test and read. -/
structure Rules (F : Type) where
  stop : Halt → Prop
  change : (Invocation F → Invocation F) → Prop
  join : Prop
  record : ValueTable → Prop

/-- All instructions of a walk, on whatever way, are allowed.  A walk always stops where a reading
was not followed to its end. -/
inductive Obeys (rules : Rules F) : Walk F α → Prop where
  | done (value : α) : Obeys rules (.done value)
  | stop {halt : Halt} (allowed : rules.stop halt) : Obeys rules (.stop halt)
  | look {next : Invocation F → Walk F α} (rest : ∀ invocation, Obeys rules (next invocation)) :
      Obeys rules (.look next)
  | change {f : Invocation F → Invocation F} {next : Walk F α} (allowed : rules.change f)
      (rest : Obeys rules next) : Obeys rules (.change f next)
  | join (node : Node F) {next : Walk F α} (allowed : rules.join) (rest : Obeys rules next) :
      Obeys rules (.join node next)
  | test (assertion : Assertion F) {next : Option String → Walk F α}
      (rest : ∀ reason, Obeys rules (next reason)) : Obeys rules (.test assertion next)
  | read (parser : Parser F) {next : ParseResult Nat → Walk F α}
      (halts : next .endless = .stop .endless)
      (rest : ∀ result, result ≠ .endless → Obeys rules (next result)) :
      Obeys rules (.read parser next)
  | record {table : ValueTable} (name : String) (result : ParseResult Nat) {next : Walk F α}
      (allowed : rules.record table) (rest : Obeys rules next) :
      Obeys rules (.record table name result next)

namespace Obeys

variable {rules : Rules F}

theorem seq {walk : Walk F α} {next : α → Walk F β} (obeys : walk.Obeys rules)
    (goesOn : ∀ value, (next value).Obeys rules) : (walk >>= next).Obeys rules := by
  show (walk.bind next).Obeys rules
  induction obeys with
  | done value =>
      exact goesOn value
  | stop allowed =>
      exact .stop allowed
  | look _ ih =>
      exact .look ih
  | change allowed _ ih =>
      exact .change allowed ih
  | join node allowed _ ih =>
      exact .join node allowed ih
  | test assertion _ ih =>
      exact .test assertion ih
  | read parser halts _ ih =>
      exact .read parser (congrArg (·.bind next) halts) ih
  | record name result allowed _ ih =>
      exact .record name result allowed ih

theorem of_read {parser : Parser F} {next : ParseResult Nat → Walk F α}
    (obeys : (Walk.read parser next).Obeys rules) (endless : rules.stop .endless)
    (result : ParseResult Nat) : (next result).Obeys rules := by
  cases obeys with
  | read parser halts rest =>
      by_cases followed : result = .endless
      · rw [followed, halts]
        exact .stop endless
      · exact rest result followed

theorem get : (Walk.get : Walk F (Invocation F)).Obeys rules := by
  exact .look fun invocation => .done invocation

end Obeys

/-- What every part of a visit may do: move the cursor, announce arguments, record their values, and
end where a reading failed or an assertion does not hold. -/
structure Rules.Lenient (rules : Rules F) : Prop where
  moves : ∀ reader, rules.change (·.withReader reader)
  announces : ∀ child : Node F, rules.change fun invocation =>
    { invocation with knownArguments := invocation.knownArguments.insertNew child.name child }
  records : rules.record .arguments
  fails : ∀ failure, rules.stop (.ofParseFailure failure)
  refuses : ∀ reason, rules.stop (.reported (.refused reason))

/-- Flags may be made known. -/
def Rules.Knows (rules : Rules F) : Prop :=
  ∀ flags : List (Flag F), rules.change fun invocation =>
    { invocation with
      knownFlags := flags.foldl
        (fun known flag =>
          (flag.name :: flag.aliases).foldl (fun known name => known.insert name flag) known)
        invocation.knownFlags }

section Lenient

variable {rules : Rules F} (lenient : rules.Lenient)

include lenient

theorem reading_obeys (f : Reader → α × Reader) : (reading f : Walk F α).Obeys rules := by
  exact .look fun _ => .change (lenient.moves _) (.done _)

theorem knowArgument_obeys (node : Node F) : (knowArgument node).Obeys rules := by
  unfold knowArgument
  split
  · exact .done ()
  · rename_i child _
    exact .change (lenient.announces child) (.done ())

theorem readValue_obeys {table : ValueTable} (allowed : rules.record table) (name : String)
    (parser : Parser F) : (readValue table name parser).Obeys rules := by
  refine .read parser rfl fun result followed => ?_
  split
  · exact .stop (lenient.fails _)
  · exact absurd rfl followed
  · exact .record name result allowed (.done ())

theorem readOwn_obeys (node : Node F) : (readOwn node).Obeys rules := by
  unfold readOwn
  split
  · exact (reading_obeys lenient _).seq fun _ => .done ()
  · exact readValue_obeys lenient lenient.records _ _

theorem testAssertions_obeys (assertions : List (Assertion F)) :
    (testAssertions assertions).Obeys rules := by
  induction assertions with
  | nil =>
      exact .done ()
  | cons assertion rest ih =>
      refine .test assertion fun reason => ?_
      cases reason with
      | none =>
          exact ih
      | some reason =>
          exact .stop (lenient.refuses reason)

theorem enter_obeys (joins : rules.join) (node : Node F) : (enter node).Obeys rules := by
  exact .join node joins (testAssertions_obeys lenient _)

omit lenient in
theorem knowFlags_obeys (knows : rules.Knows) (flags : List (Flag F)) :
    (knowFlags flags).Obeys rules := by
  exact .change (knows flags) (.done ())

theorem fill_obeys (joins : rules.join) (knows : rules.Knows) (node : Node F)
    (executor : Option F) : (fill node executor).Obeys rules := by
  induction node using Node.inductionOn generalizing executor with
  | step head children ih =>
      rw [fill]
      split
      · exact .done executor
      · refine (enter_obeys lenient joins _).seq fun _ => (knowFlags_obeys knows _).seq fun _ => ?_
        refine (knowArgument_obeys lenient _).seq fun _ => ?_
        split
        · rename_i next found
          rcases exists_of_fillArgument found with ⟨child, member, -, rfl⟩
          exact ih child member _
        · exact .done _

theorem readFlag_obeys (records : rules.record .flags)
    (unknown : ∀ name span, rules.stop (.reported (unknownFlag name span))) :
    (readFlag : Walk F Unit).Obeys rules := by
  rw [readFlag_eq]
  refine (reading_obeys lenient _).seq fun _ => Obeys.get.seq fun before => ?_
  refine (reading_obeys lenient _).seq fun name => Obeys.get.seq fun invocation => ?_
  unfold useFlag
  split
  · exact .stop (unknown _ _)
  · split
    · exact Obeys.seq (.record _ _ records (.done ())) fun _ => reading_obeys lenient _
    · refine (reading_obeys lenient _).seq fun _ => ?_
      exact (readValue_obeys lenient records _ _).seq fun _ => reading_obeys lenient _

omit lenient in
theorem readFlags_obeys (flag : (readFlag : Walk F Unit).Obeys rules)
    (endless : rules.stop .endless) (fuel : Nat) : (readFlags fuel : Walk F Unit).Obeys rules := by
  induction fuel with
  | zero =>
      refine Obeys.get.seq fun invocation => ?_
      split
      · exact .stop endless
      · exact .done ()
  | succ fuel ih =>
      refine Obeys.get.seq fun invocation => ?_
      split
      · exact flag.seq fun _ => ih
      · exact .done ()

end Lenient

end Steward.Walk
