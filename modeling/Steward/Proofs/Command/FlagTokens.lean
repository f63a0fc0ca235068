import Steward.Proofs.Command.Advance
import Steward.Proofs.Command.Noting
import Steward.Proofs.Command.TokenAgreement
import Steward.Proofs.Parse.Onward

/-!
# Flags on a line

A visit looks for flags behind the token of its node.  Wherever the cursor is at a dash then, a flag
token is met (`Walk.MeetsFlag`): its name is the run of characters behind the dash.  The flags that
an invocation knows at such a moment are those of the nodes that it has visited, and of several flags
of one name the last one (`MeetsFlag.knowsFlags`).

What reading a flag at such a token comes to is told by cases on the flag that the name stands for:
it is unknown, or its value fails, or the value is recorded under its own name (`readFlag_shows`).

Flags are looked for until no dash follows (`readFlags_exhausts`), which may be without end where
callbacks move the cursor back.  A walk of a line that is followed to its end comes to the same
however much further it may be followed (`ofLine_follows`), and where callbacks move on along the line
it is always followed to its end (`ofLine_ends`).
-/

namespace Steward

variable {F σ α : Type}

/-! ## Declarations -/

/-- The flag that a name stands for below some nodes: the last one of that name among those that they
bring, in order. -/
def Node.flagCalled (nodes : List (Node F)) (name : String) : Option (Flag F) :=
  (nodes.flatMap (·.head.flags)).reverse.find? (Flag.isCalled name)

namespace Node

theorem flagCalled_join (nodes : List (Node F)) (node : Node F) (name : String) :
    flagCalled (nodes ++ [node]) name =
      (node.head.flags.reverse.find? (Flag.isCalled name)).or (flagCalled nodes name) := by
  rw [flagCalled, List.flatMap_append, List.reverse_append, List.find?_append, flagCalled]
  simp only [List.flatMap_cons, List.flatMap_nil, List.append_nil]

theorem flagCalled_eq_none_iff {nodes : List (Node F)} {name : String} :
    flagCalled nodes name = none ↔
      ∀ node ∈ nodes, ∀ flag ∈ node.head.flags, name ≠ flag.name ∧ name ∉ flag.aliases := by
  simp only [flagCalled, List.find?_eq_none, List.mem_reverse, List.mem_flatMap, Flag.isCalled]
  constructor
  · intro nobody node visited flag brought
    simpa using nobody flag ⟨node, visited, brought⟩
  · rintro nobody flag ⟨node, visited, brought⟩
    simpa using nobody node visited flag brought

/-- The child that a token selects: a literal before an argument. -/
def selected? (children : List (Node F)) (token : String) : Option (Node F) :=
  (children.find? (isSelectedBy token)).or (children.find? (!·.isLiteral))

end Node

theorem Node.mem_of_selected? {children : List (Node F)} {token : String} {child : Node F}
    (selected : selected? children token = some child) : child ∈ children := by
  rcases Option.or_eq_some_iff.1 selected with found | ⟨-, found⟩
  · exact List.mem_of_find?_eq_some found
  · exact List.mem_of_find?_eq_some found

/-! ## Names behind dashes -/

/-- A span covers a word behind a dash: the whole run of characters up to a blank, an end mark or the
end of the text. -/
structure Span.CoversDashed (span : Span) (word : String) : Prop where
  text_eq : span.text = word
  solid : ∀ c ∈ word.toList, CharClass.isSpace c = false ∧ c ≠ endMark
  placed : ∃ before left, span.source = before ++ '-' :: (word.toList ++ left) ∧
    span.start = before.length + 1 ∧ span.stop = before.length + word.toList.length ∧
    ∀ c ∈ left.head?, CharClass.isSpace c = true ∨ c = endMark

namespace Reader

/-- The name of the flag whose dash is at the cursor. -/
def flagName (reader : Reader) : String := reader.advance.upcoming CharClass.notSpace

/-- The reader behind that name. -/
def pastFlagName (reader : Reader) : Reader := (reader.advance.collect CharClass.notSpace).2

def flagSpan (reader : Reader) : Span :=
  reader.pastFlagName.span reader.advance.index ((reader.pastFlagName.index : Int) - 1)

theorem pastFlagName_eq (reader : Reader) :
    reader.pastFlagName = reader.advance.passed reader.flagName.toList.length := by
  rw [pastFlagName, collect_eq_passed]
  rfl

theorem pastFlagName_onward (reader : Reader) : reader.advance.Onward reader.pastFlagName := by
  exact reader.advance.collect_onward CharClass.notSpace

/-- A word that stands behind some characters is what lies between its ends. -/
theorem slice_word (before word left : List Char) :
    Span.slice (before ++ (word ++ left)) before.length (before.length + word.length) = word := by
  have notNegative : ¬ ((before.length : Int) + word.length < 0) := by
    omega
  have stop : ((before.length : Int) + word.length).toNat = (before ++ word).length := by
    rw [List.length_append]
    omega
  simp only [Span.slice, notNegative, stop, if_false, Int.natCast_nonneg, Int.not_lt.2,
    Int.toNat_natCast]
  rw [← List.append_assoc, List.take_left, List.drop_left]

theorem flagSpan_covers {reader : Reader} (dash : reader.current = '-') :
    reader.flagSpan.CoversDashed reader.flagName ∧ reader.flagSpan.source = reader.text := by
  cases remaining : reader.remaining with
  | nil =>
      rw [current_eq, remaining] at dash
      exact absurd dash (by decide : endMark ≠ '-')
  | cons c rest =>
      have isDash : c = '-' := by
        rw [← current_of_remaining remaining, dash]
      subst isDash
      have within : reader.index ≤ reader.text.length := by
        apply Nat.le_of_not_lt
        intro beyond
        rw [Reader.remaining, List.drop_eq_nil_of_le beyond.le] at remaining
        cases remaining
      have before : (reader.text.take reader.index).length = reader.index := by
        rw [List.length_take, Nat.min_eq_left within]
      rcases reader.advance.upcoming_maximal CharClass.notSpace with ⟨left, behind, stops⟩
      rw [remaining_advance remaining] at behind
      have line : reader.text =
          reader.text.take reader.index ++ '-' :: (reader.flagName.toList ++ left) := by
        rw [flagName, ← behind, ← remaining, Reader.remaining, List.take_append_drop]
      have span : reader.flagSpan = ⟨reader.text, reader.index + 1,
          reader.index + reader.flagName.toList.length⟩ := by
        rw [flagSpan, pastFlagName_eq, advance_passed remaining]
        simp only [Reader.span, passed, Span.mk.injEq, true_and]
        omega
      refine ⟨⟨?_, ?_, reader.text.take reader.index, left, ?_, ?_, ?_, ?_⟩, ?_⟩
      · have covered := slice_word (reader.text.take reader.index ++ ['-'])
          reader.flagName.toList left
        rw [List.append_assoc, List.singleton_append, ← line, List.length_append, before] at covered
        have stop : (reader.index : Int) + reader.flagName.toList.length + 1 =
            (reader.index + [ '-' ].length : Nat) + reader.flagName.toList.length := by
          simp only [List.length_singleton]
          omega
        rw [span, Span.text, stop]
        exact (congrArg String.ofList covered).trans String.ofList_toList
      · intro c member
        rcases of_mem_collect member with ⟨solid, noEnd⟩
        exact ⟨isSpace_of_notSpace solid, noEnd⟩
      · rw [span]
        exact line
      · rw [span, before]
      · rw [span, before]
      · intro c first
        rcases stops c first with blank | isEnd
        · exact .inl (by simpa [CharClass.notSpace] using blank)
        · exact .inr isEnd
      · rw [span]

end Reader

/-- The kind of the command error that an outcome reports. -/
def Outcome.errorKind? : Outcome → Option CommandErrorKind
  | .erroneous _ kind _ _ _ => some kind
  | _ => none

theorem Outcome.errorKind?_ofParseFailure (failure : Failure) :
    (Outcome.ofParseFailure failure).errorKind? = none := by
  cases failure <;> rfl

def Halt.errorKind? (halt : Halt) : Option CommandErrorKind :=
  halt.outcome?.bind Outcome.errorKind?

/-- Callbacks stay on the line and do not move the cursor back. -/
def WalkEnv.MovesOn (env : WalkEnv F σ) : Prop :=
  ∀ (name : F) (scan : Scan F) (state : σ), scan.reader.Onward (env.parser name scan state).2.1

/-! ## Flags that are known -/

/-- An invocation knows the flags of the nodes of its chain: under each name the last one. -/
def Invocation.KnowsFlags (invocation : Invocation F) : Prop :=
  ∀ name, invocation.knownFlags.get? name = Node.flagCalled invocation.chain name

theorem Invocation.recordResult_flagResults (invocation : Invocation F) (name : String)
    (result : ParseResult Nat) :
    (invocation.recordResult .flags name result).flagResults =
      invocation.flagResults.insert name result := by
  cases result <;> rfl

namespace Walk

/-- Neither are nodes entered nor flags made known. -/
def Rules.staying : Rules F where
  stop _ := True
  change f := ∀ invocation, (f invocation).chain = invocation.chain ∧
    (f invocation).knownFlags = invocation.knownFlags
  join := False
  record _ := True

theorem Rules.staying_lenient : (Rules.staying : Rules F).Lenient where
  moves _ _ := ⟨rfl, rfl⟩
  announces _ _ := ⟨rfl, rfl⟩
  records := trivial
  fails _ := trivial
  refuses _ := trivial

theorem Obeys.stays {walk : Walk F α} (obeys : walk.Obeys .staying) (env : WalkEnv F σ)
    (start : Invocation F) (state : σ) :
    (walk.run env start state).2.1.chain = start.chain ∧
      (walk.run env start state).2.1.knownFlags = start.knownFlags := by
  induction obeys generalizing start state with
  | done value =>
      exact ⟨rfl, rfl⟩
  | stop _ =>
      exact ⟨rfl, rfl⟩
  | look _ ih =>
      exact ih start start state
  | @change f next allowed _ ih =>
      rcases ih (f start) state with ⟨chain, known⟩
      exact ⟨chain.trans (allowed start).1, known.trans (allowed start).2⟩
  | join node allowed _ _ =>
      exact allowed.elim
  | test assertion _ ih =>
      rw [run]
      rcases env.test assertion start state with ⟨outcome | reason, between⟩
      · exact ⟨rfl, rfl⟩
      · exact ih reason start between
  | read parser halts _ ih =>
      rw [run]
      rcases read : env.read parser start state with ⟨result, reached, between⟩
      have same : reached.chain = start.chain ∧ reached.knownFlags = start.knownFlags := by
        cases read
        exact ⟨rfl, rfl⟩
      dsimp only
      by_cases followed : result = .endless
      · rw [followed, halts]
        exact same
      · rcases ih result followed reached between with ⟨chain, known⟩
        exact ⟨chain.trans same.1, known.trans same.2⟩
  | @record table name result next _ _ ih =>
      rcases ih (start.recordResult table name result) state with ⟨chain, known⟩
      constructor
      · rw [run, chain, Invocation.recordResult_chain]
      · rw [run, known]
        cases table <;> cases result <;> rfl

section Knowing

variable {env : WalkEnv F σ} {start stop : Invocation F} {state after : σ}
  {events : List (Event F)}

theorem Obeys.stays_of_goes {walk : Walk F α} {answer : α} (obeys : walk.Obeys .staying)
    (goes : walk.Goes env start state events answer stop after) :
    stop.chain = start.chain ∧ stop.knownFlags = start.knownFlags := by
  have stays := obeys.stays env start state
  rw [goes.run_eq] at stays
  exact stays

theorem Obeys.knowsFlags {walk : Walk F α} {answer : α} (obeys : walk.Obeys .staying)
    (goes : walk.Goes env start state events answer stop after) (knows : start.KnowsFlags) :
    stop.KnowsFlags := by
  rcases obeys.stays_of_goes goes with ⟨chain, known⟩
  intro name
  rw [chain, known]
  exact knows name

theorem readFlag_stays : (readFlag : Walk F Unit).Obeys .staying := by
  exact readFlag_obeys Rules.staying_lenient trivial fun _ _ => trivial

theorem readFlags_stays (fuel : Nat) : (readFlags fuel : Walk F Unit).Obeys .staying := by
  exact readFlags_obeys readFlag_stays trivial fuel

/-! ## The flag tokens of a visit -/

/-- A visit up to its flags: the node is entered, its own token is read and its flags are made
known. -/
def upToFlags (node : Node F) : Walk F Unit :=
  enter node >>= fun _ => readOwn node >>= fun _ => knowFlags node.head.flags >>= fun _ => skipSpace

/-- A visit up to where it goes on below its node. -/
def throughFlags (patience : Nat) (node : Node F) : Walk F Unit :=
  upToFlags node >>= fun _ => get >>= fun before =>
    readFlags (before.reader.remaining.length + patience) >>= fun _ =>
      knowArgument node >>= fun _ => skipSpace

theorem seq_assoc {β γ : Type} (walk : Walk F α) (next : α → Walk F β) (last : β → Walk F γ) :
    (walk >>= next) >>= last = walk >>= fun value => next value >>= last := by
  exact bind_assoc walk next last

theorem visit_eq_throughFlags (patience : Nat) (node : Node F) (executor : Option F) :
    visit patience node executor = throughFlags patience node >>= fun _ => get >>= fun after =>
      goOn patience node.children (executorBelow node executor) after.reader := by
  cases node with
  | node head children =>
      rw [visit_eq, throughFlags, upToFlags]
      simp only [seq_assoc]
      rfl

theorem goOn_eq (patience : Nat) (children : List (Node F)) (executor : Option F)
    (reader : Reader) :
    goOn patience children executor reader =
      if reader.atEnd then
        match children.find? (!·.isLiteral) with
        | some child => fill child executor
        | none => .done executor
      else
        match Node.selected? children (reader.upcoming CharClass.notSpace) with
        | some child => visit patience child executor
        | none => token >>= fun unknown =>
          .stop (.reported (.fail ("No subcommand by name `" ++ unknown ++ "`"))) := by
  rw [goOn, fillArgument_eq, visitSelected_eq, visitSelected_eq, Node.selected?]
  cases children.find? (!·.isLiteral) <;>
    cases children.find? (Node.isSelectedBy (reader.upcoming CharClass.notSpace)) <;> rfl

/-- Where flags are looked for, a dash is met that a flag is read behind: at once, or behind other
flags. -/
inductive AmongFlags (env : WalkEnv F σ) :
    Nat → Invocation F → σ → Invocation F → σ → Prop where
  | here {fuel : Nat} {start : Invocation F} {state : σ} (dash : start.reader.current = '-') :
      AmongFlags env (fuel + 1) start state start state
  | behind {fuel : Nat} {start middle here : Invocation F} {state between now : σ}
      {events : List (Event F)} (dash : start.reader.current = '-')
      (passes : readFlag.Goes env start state events () middle between)
      (later : AmongFlags env fuel middle between here now) :
      AmongFlags env (fuel + 1) start state here now

/-- A visit meets a flag token: behind the token of its own node, or further down. -/
inductive MeetsFlag (env : WalkEnv F σ) :
    Node F → Invocation F → σ → Invocation F → σ → Prop where
  | own {node : Node F} {start reached here : Invocation F} {state between now : σ}
      {events : List (Event F)}
      (arrives : (upToFlags node).Goes env start state events () reached between)
      (among : AmongFlags env (reached.reader.remaining.length + env.patience) reached between here
        now) :
      MeetsFlag env node start state here now
  | further {node child : Node F} {start reached here : Invocation F} {state between now : σ}
      {events : List (Event F)}
      (arrives : (throughFlags env.patience node).Goes env start state events () reached between)
      (goesOn : reached.reader.atEnd = false)
      (selected : Node.selected? node.children
        (reached.reader.upcoming CharClass.notSpace) = some child)
      (meets : MeetsFlag env child reached between here now) :
      MeetsFlag env node start state here now

theorem AmongFlags.dash {fuel : Nat} {here : Invocation F} {now : σ}
    (among : AmongFlags env fuel start state here now) : here.reader.current = '-' := by
  induction among with
  | here dash =>
      exact dash
  | behind _ _ _ ih =>
      exact ih

theorem MeetsFlag.dash {node : Node F} {here : Invocation F} {now : σ}
    (meets : MeetsFlag env node start state here now) : here.reader.current = '-' := by
  induction meets with
  | own _ among =>
      exact among.dash
  | further _ _ _ _ ih =>
      exact ih

/-! ## What is known at a flag token -/

theorem upToFlags_knowsFlags {node : Node F}
    (goes : (upToFlags node).Goes env start state events () stop after)
    (knows : start.KnowsFlags) : stop.KnowsFlags := by
  rw [upToFlags, goes_seq_iff] at goes
  rcases goes with ⟨_, _, _, _, _, enters, goes, -⟩
  rw [goes_seq_iff] at goes
  rcases goes with ⟨_, _, middle, _, _, own, goes, -⟩
  rw [goes_seq_iff] at goes
  rcases goes with ⟨_, _, _, _, _, known, space, -⟩
  rw [enter, goes_join_iff] at enters
  rcases enters with ⟨_, tests, -⟩
  rcases testAssertions_goes tests with ⟨rfl, -⟩
  have stays := (readOwn_obeys Rules.staying_lenient node).stays_of_goes own
  refine (reading_obeys Rules.staying_lenient _).knowsFlags space ?_
  simp only [knowFlags, modify, goes_change_iff, goes_done_iff] at known
  rcases known with ⟨-, -, rfl, -⟩
  intro name
  show (node.head.flags.foldl _ middle.knownFlags).get? name = Node.flagCalled middle.chain name
  rw [get?_knowFlags, stays.1, stays.2]
  show _ = Node.flagCalled (start.chain ++ [node]) name
  rw [Node.flagCalled_join]
  exact congrArg _ (knows name)

theorem throughFlags_knowsFlags {patience : Nat} {node : Node F}
    (goes : (throughFlags patience node).Goes env start state events () stop after)
    (knows : start.KnowsFlags) : stop.KnowsFlags := by
  rw [throughFlags, goes_seq_iff] at goes
  rcases goes with ⟨_, _, _, _, _, upTo, goes, -⟩
  rw [goes_get_seq_iff, goes_seq_iff] at goes
  rcases goes with ⟨_, _, _, _, _, flags, goes, -⟩
  have behind : (knowArgument node >>= fun _ => skipSpace).Obeys .staying :=
    (knowArgument_obeys Rules.staying_lenient node).seq fun _ =>
      reading_obeys Rules.staying_lenient _
  exact behind.knowsFlags goes
    ((readFlags_stays _).knowsFlags flags (upToFlags_knowsFlags upTo knows))

theorem AmongFlags.knowsFlags {fuel : Nat} {here : Invocation F} {now : σ}
    (among : AmongFlags env fuel start state here now) (knows : start.KnowsFlags) :
    here.KnowsFlags := by
  induction among with
  | here _ =>
      exact knows
  | behind _ passes _ ih =>
      exact ih (readFlag_stays.knowsFlags passes knows)

/-- At a flag token, the flags of all visited nodes are known. -/
theorem MeetsFlag.knowsFlags {node : Node F} {here : Invocation F} {now : σ}
    (meets : MeetsFlag env node start state here now) (knows : start.KnowsFlags) :
    here.KnowsFlags := by
  induction meets with
  | own arrives among =>
      exact among.knowsFlags (upToFlags_knowsFlags arrives knows)
  | further arrives _ _ _ ih =>
      exact ih (throughFlags_knowsFlags arrives knows)

/-! ## A visit comes to its flag tokens -/

theorem AmongFlags.comesTo {fuel : Nat} {here : Invocation F} {now : σ}
    (among : AmongFlags env fuel start state here now) :
    (readFlags fuel).ComesTo env start state readFlag here now := by
  induction among with
  | here dash =>
      rw [readFlags]
      apply ComesTo.get
      rw [if_pos dash]
      exact .refl
  | behind dash passes _ ih =>
      rw [readFlags]
      apply ComesTo.get
      rw [if_pos dash]
      exact .behind passes ih

/-- A visit comes to each flag token that it meets, and reads a flag there. -/
theorem MeetsFlag.comesTo {node : Node F} {here : Invocation F} {now : σ}
    (meets : MeetsFlag env node start state here now) (executor : Option F) :
    (visit env.patience node executor).ComesTo env start state readFlag here now := by
  induction meets generalizing executor with
  | own arrives among =>
      rw [visit_eq_throughFlags]
      apply ComesTo.seq
      apply ComesTo.behind arrives
      apply ComesTo.get
      exact among.comesTo.seq
  | further arrives goesOn selected _ ih =>
      rw [visit_eq_throughFlags]
      apply ComesTo.behind arrives
      apply ComesTo.get
      rw [goOn_eq, goesOn, if_neg Bool.false_ne_true, selected]
      exact ih _

/-! ## What becomes of a flag token -/

/-- No reading reports an unknown flag. -/
theorem errorKind?_of_halt? {result : ParseResult Nat} {halt : Halt}
    (halts : halt? result = some halt) : halt.errorKind? = none := by
  rcases result with (failure | value) | lookup | _
  · rw [← Option.some.inj halts]
    exact Outcome.errorKind?_ofParseFailure failure
  · cases halts
  · cases halts
  · rw [← Option.some.inj halts]
    rfl

/-- What is noted about flags: a value that is recorded for one, or that one is not known. -/
inductive Note.IsAboutFlags : Note F → Prop where
  | recorded (name : String) (result : ParseResult Nat) :
      IsAboutFlags (.happened (.recorded .flags name result))
  | unknown {halt : Halt} (reports : halt.errorKind? = some .unknownFlag) :
      IsAboutFlags (.stopped halt)

/-- Behind the name of a flag token. -/
def behindName (here : Invocation F) : Invocation F := here.withReader here.reader.pastFlagName

theorem behindName_text (here : Invocation F) :
    (behindName here).reader.text = here.reader.text := by
  exact (here.reader.advance_onward.trans here.reader.pastFlagName_onward).text

theorem behindName_chain (here : Invocation F) : (behindName here).chain = here.chain := rfl

/-- What is read for a flag behind its name: a switch is on, and any other flag has a value behind
the blanks that follow. -/
def flagValue (env : WalkEnv F σ) (flag : Flag F) (behind : Invocation F) (state : σ) :
    ParseResult Nat × Invocation F × σ :=
  match flag.parser with
  | none => (.settled (.ok (.bool true)), behind, state)
  | some parser => env.read parser (behind.withReader behind.reader.skipSpace) state

/-- Reading a value records nothing. -/
theorem flagValue_results {flag : Flag F} {behind reached : Invocation F} {state later : σ}
    {value : ParseResult Nat} (reads : flagValue env flag behind state = (value, reached, later)) :
    reached.flagResults = behind.flagResults ∧
      reached.argumentResults = behind.argumentResults := by
  rw [flagValue] at reads
  cases takes : flag.parser with
  | none =>
      rw [takes] at reads
      cases reads
      exact ⟨rfl, rfl⟩
  | some parser =>
      rw [takes] at reads
      cases reads
      exact ⟨rfl, rfl⟩

/-- What happens where a value is read for a flag and recorded. -/
def flagEvents (flag : Flag F) (result : ParseResult Nat) : List (Event F) :=
  (flag.parser.map fun parser => .read parser result).toList ++ [.recorded .flags flag.name result]

section Tokens

variable {here reached : Invocation F} {now later : σ} {flag : Flag F} {note : Note F}
  {result : ParseResult Nat}

/-- Once its name is read, a flag is used. -/
theorem readFlag_uses (env : WalkEnv F σ) (here : Invocation F) (now : σ) :
    readFlag.run env here now =
        (useFlag here.reader.advance.index here.reader.flagName (behindName here)).run env
          (behindName here) now ∧
      readFlag.trace env here now =
        (useFlag here.reader.advance.index here.reader.flagName (behindName here)).trace env
          (behindName here) now := by
  exact ⟨rfl, rfl⟩

theorem readFlag_unknown (env : WalkEnv F σ) (now : σ)
    (unknown : here.knownFlags.get? here.reader.flagName = none) :
    readFlag.run env here now =
        (.error (.reported (unknownFlag here.reader.flagName here.reader.flagSpan)),
          behindName here, now) ∧
      readFlag.trace env here now = [] := by
  have unknown : (behindName here).knownFlags.get? here.reader.flagName = none := unknown
  rw [(readFlag_uses env here now).1, (readFlag_uses env here now).2, useFlag, unknown]
  exact ⟨rfl, rfl⟩

/-- A flag with a value has it read behind the blanks that follow its name. -/
theorem readFlag_value (env : WalkEnv F σ) (now : σ)
    (known : here.knownFlags.get? here.reader.flagName = some flag)
    {parser : Parser F} (takes : flag.parser = some parser) :
    readFlag.run env here now =
        (readValue .flags flag.name parser >>= fun _ => skipSpace).run env
          ((behindName here).withReader (behindName here).reader.skipSpace) now ∧
      readFlag.trace env here now =
        (readValue .flags flag.name parser >>= fun _ => skipSpace).trace env
          ((behindName here).withReader (behindName here).reader.skipSpace) now := by
  have known : (behindName here).knownFlags.get? here.reader.flagName = some flag := known
  rw [(readFlag_uses env here now).1, (readFlag_uses env here now).2, useFlag, known]
  dsimp only
  rw [takes]
  exact ⟨rfl, rfl⟩

/-- A value that could not be read stops the walk. -/
theorem readFlag_failed (known : here.knownFlags.get? here.reader.flagName = some flag)
    (value : flagValue env flag (behindName here) now = (result, reached, later)) {halt : Halt}
    (halts : halt? result = some halt) :
    readFlag.run env here now = (.error halt, reached, later) ∧
      ∃ parser, flag.parser = some parser ∧
        readFlag.trace env here now = [.read parser result] := by
  rw [flagValue] at value
  cases takes : flag.parser with
  | none =>
      rw [takes] at value
      cases value
      cases halts
  | some parser =>
      rw [takes] at value
      rcases readFlag_value env now known takes with ⟨ran, traced⟩
      rw [ran, traced, run_seq, trace_seq, readValue_eq]
      simp only [run, trace, value, halts]
      exact ⟨trivial, parser, rfl, rfl⟩

/-- Any other value is recorded under the name of the flag. -/
theorem readFlag_recorded (known : here.knownFlags.get? here.reader.flagName = some flag)
    (value : flagValue env flag (behindName here) now = (result, reached, later))
    (fine : halt? result = none) :
    readFlag.Goes env here now (flagEvents flag result) ()
      ((reached.recordResult .flags flag.name result).withReader reached.reader.skipSpace)
      later := by
  have goesOn : (record .flags flag.name result (.done ()) >>= fun _ => skipSpace).Goes env
      reached later [.recorded .flags flag.name result] ()
      ((reached.recordResult .flags flag.name result).withReader reached.reader.skipSpace)
      later := by
    have reader : (reached.recordResult .flags flag.name result).reader = reached.reader := by
      rw [Invocation.reader, Invocation.recordResult_scan]
      rfl
    rw [← reader]
    exact ⟨rfl, rfl⟩
  rw [flagEvents]
  rw [flagValue] at value
  cases takes : flag.parser with
  | none =>
      rw [takes] at value
      cases value
      have known : (behindName here).knownFlags.get? here.reader.flagName = some flag := known
      have uses : useFlag here.reader.advance.index here.reader.flagName (behindName here) =
          record .flags flag.name (.settled (.ok (.bool true))) (.done ()) >>= fun _ =>
            skipSpace := by
        rw [useFlag, known]
        dsimp only
        rw [takes]
      rw [← uses] at goesOn
      exact ⟨goesOn.run_eq, goesOn.trace_eq⟩
  | some parser =>
      rw [takes] at value
      rcases readFlag_value env now known takes with ⟨ran, traced⟩
      have reads : (readValue .flags flag.name parser >>= fun _ => skipSpace).Goes env
          ((behindName here).withReader (behindName here).reader.skipSpace) now
          (.read parser result :: [.recorded .flags flag.name result]) ()
          ((reached.recordResult .flags flag.name result).withReader reached.reader.skipSpace)
          later := by
        rw [readValue_eq]
        refine (goes_read_iff _ _).2 ⟨result, reached, later, _, value, ?_, rfl⟩
        dsimp only
        rw [fine]
        exact goesOn
      exact ⟨ran.trans reads.run_eq, traced.trans reads.trace_eq⟩

/-- What a flag token shows about flags: that its name is not known, or its value. -/
theorem readFlag_shows (shows : readFlag.Shows env here now note) (about : note.IsAboutFlags) :
    (here.knownFlags.get? here.reader.flagName = none ∧
      note = .stopped (.reported (unknownFlag here.reader.flagName here.reader.flagSpan))) ∨
    ∃ flag, here.knownFlags.get? here.reader.flagName = some flag ∧
      halt? (flagValue env flag (behindName here) now).1 = none ∧
      note = .happened
        (.recorded .flags flag.name (flagValue env flag (behindName here) now).1) := by
  cases known : here.knownFlags.get? here.reader.flagName with
  | none =>
      rcases readFlag_unknown env now known with ⟨ran, traced⟩
      refine .inl ⟨rfl, ?_⟩
      cases about with
      | recorded name result =>
          rw [Shows, traced] at shows
          cases shows
      | unknown reports =>
          rw [Shows, ran] at shows
          exact congrArg _ (Except.error.inj shows).symm
  | some flag =>
      refine .inr ⟨flag, rfl, ?_⟩
      rcases value : flagValue env flag (behindName here) now with ⟨result, reached, later⟩
      cases failed : halt? result with
      | some halt =>
          rcases readFlag_failed known value failed with ⟨ran, parser, -, traced⟩
          cases about with
          | recorded name other =>
              rw [Shows, traced] at shows
              simp at shows
          | unknown reports =>
              rw [Shows, ran] at shows
              rw [← Except.error.inj shows] at reports
              cases (errorKind?_of_halt? failed).symm.trans reports
      | none =>
          have goes := readFlag_recorded known value failed
          refine ⟨rfl, ?_⟩
          cases about with
          | recorded name other =>
              rw [Shows, goes.trace_eq, flagEvents] at shows
              have last : (.recorded .flags name other : Event F) = .recorded .flags flag.name result := by
                simpa using shows
              rw [last]
          | unknown reports =>
              rw [Shows, goes.run_eq] at shows
              cases shows

end Tokens

/-! ## Flags are read as long as a dash follows -/

section Progress

variable {here stop : Invocation F} {now later : σ}

theorem flagValue_onward (moves : env.MovesOn) (flag : Flag F) (behind : Invocation F) (state : σ) :
    behind.reader.Onward (flagValue env flag behind state).2.1.reader := by
  rw [flagValue]
  cases flag.parser with
  | none =>
      exact .refl _
  | some parser =>
      have callbacks : ∀ (name : F) (scan : Scan F) (state : σ), scan.reader.Onward
          ((⟨some behind.origin, env.parser, env.patience⟩ : ReadingEnv F σ).custom name scan state).2.1 := moves
      exact behind.reader.skipSpace_onward.trans
        (parser.read_onward callbacks (behind.withReader behind.reader.skipSpace).scan state)

/-- A flag takes at least its dash from the line. -/
theorem readFlag_progress (moves : env.MovesOn) (dash : here.reader.current = '-')
    (passes : readFlag.Goes env here now events () stop later) :
    stop.reader.remaining.length < here.reader.remaining.length := by
  cases known : here.knownFlags.get? here.reader.flagName with
  | none =>
      have ran := (readFlag_unknown env now known).1
      rw [passes.run_eq] at ran
      cases ran
  | some flag =>
      have onward := flagValue_onward moves flag (behindName here) now
      rcases value : flagValue env flag (behindName here) now with ⟨result, reached, between⟩
      rw [value] at onward
      cases failed : halt? result with
      | some halt =>
          have ran := (readFlag_failed known value failed).1
          rw [passes.run_eq] at ran
          cases ran
      | none =>
          have ran := (readFlag_recorded known value failed).run_eq
          rw [passes.run_eq] at ran
          cases ran
          have left : reached.reader.skipSpace.remaining.length ≤
              here.reader.advance.remaining.length := by
            have behind := here.reader.pastFlagName_onward.trans onward
            exact (behind.trans reached.reader.skipSpace_onward).length_remaining_le
          refine Nat.lt_of_le_of_lt left ?_
          cases remaining : here.reader.remaining with
          | nil =>
              rw [Reader.current_eq, remaining] at dash
              exact absurd dash (by decide : endMark ≠ '-')
          | cons c rest =>
              rw [Reader.remaining_advance remaining]
              exact Nat.lt_succ_self _

/-- Where flags were looked for, all of them are read. -/
theorem readFlags_exhausts {fuel : Nat}
    (goes : (readFlags fuel).Goes env start state events () stop after) :
    stop.reader.current ≠ '-' := by
  induction fuel generalizing start state events with
  | zero =>
      rcases readFlags_zero_goes_iff.1 goes with ⟨noDash, -, rfl, -⟩
      exact noDash
  | succ fuel ih =>
      rw [readFlags, goes_get_seq_iff] at goes
      split at goes
      · rw [goes_seq_iff] at goes
        rcases goes with ⟨_, ⟨⟩, middle, _, _, passes, goes, -⟩
        exact ih goes
      · rename_i noDash
        rcases (goes_done_iff _).1 goes with ⟨-, -, rfl, -⟩
        exact noDash

end Progress

/-! ## How far a walk is followed -/

section Following

theorem halt_ofRaised_ends (failure : Failure) : Halt.ofRaised failure ≠ .endless := by
  rw [Halt.ofRaised]
  cases failure.outside.instead? <;> nofun

/-- As long as callbacks move on, so does every reading, and it is followed to its end. -/
theorem read_ends (moves : env.MovesOn) (parser : Parser F) (invocation : Invocation F) (state : σ) :
    (env.read parser invocation state).1 ≠ .endless := by
  have callbacks : ∀ (name : F) (scan : Scan F) (state : σ), scan.reader.Onward
      ((⟨some invocation.origin, env.parser, env.patience⟩ : ReadingEnv F σ).custom
        name scan state).2.1 := moves
  exact parser.read_ends callbacks invocation.scan state

theorem test_ends (env : WalkEnv F σ) (assertion : Assertion F) (invocation : Invocation F)
    (state : σ) : (env.test assertion invocation state).1 ≠ .error .endless := by
  have raised : ∀ failure,
      (.error (.ofRaised failure) : Except Halt (Option String)) ≠ .error .endless :=
    fun failure same => halt_ofRaised_ends failure (Except.error.inj same)
  cases assertion with
  | permissions paths =>
      simp only [WalkEnv.test]
      cases env.lacking with
      | none =>
          nofun
      | some lacking =>
          cases invocation.member with
          | none =>
              nofun
          | some member =>
              dsimp only
              rcases lacking member paths state with ⟨failure | missing, after⟩
              · exact raised failure
              · nofun
  | platform names =>
      simp only [WalkEnv.test]
      split <;> nofun
  | custom name =>
      simp only [WalkEnv.test]
      rcases env.assertion name invocation state with ⟨failure | reason, after⟩
      · exact raised failure
      · nofun

/-- No search for flags is left without an end. -/
def Rules.ending : Rules F where
  stop halt := halt ≠ .endless
  change _ := True
  join := True
  record _ := True

theorem Rules.ending_lenient : (Rules.ending : Rules F).Lenient where
  moves _ := trivial
  announces _ := trivial
  records := trivial
  fails _ := nofun
  refuses _ := nofun

theorem get_ending : (Walk.get : Walk F (Invocation F)).Obeys .ending := by
  exact .get

theorem Obeys.ends {walk : Walk F α} (obeys : walk.Obeys .ending) (moves : env.MovesOn)
    (start : Invocation F) (state : σ) : (walk.run env start state).1 ≠ .error .endless := by
  induction obeys generalizing start state with
  | done value =>
      nofun
  | stop allowed =>
      exact fun same => allowed (Except.error.inj same)
  | look _ ih =>
      exact ih start start state
  | change _ _ ih =>
      exact ih _ state
  | join node _ _ ih =>
      exact ih _ state
  | test assertion _ ih =>
      have answers := test_ends env assertion start state
      rw [run]
      generalize env.test assertion start state = tested at answers ⊢
      rcases tested with ⟨halt | reason, between⟩
      · exact fun same => answers (congrArg _ (Except.error.inj same))
      · exact ih reason start between
  | read parser _ _ ih =>
      exact ih _ (read_ends moves parser start state) _ _
  | record name result _ _ ih =>
      exact ih _ state

/-- A sequence is followed to its end if its parts are. -/
theorem run_seq_ends {walk : Walk F α} {next : α → Walk F β}
    (first : (walk.run env start state).1 ≠ .error .endless)
    (second : ∀ value middle between, walk.run env start state = (.ok value, middle, between) →
      ((next value).run env middle between).1 ≠ .error .endless) :
    ((walk >>= next).run env start state).1 ≠ .error .endless := by
  rw [run_seq]
  rcases ran : walk.run env start state with ⟨halt | value, middle, between⟩
  · rw [ran] at first
    exact fun same => first (congrArg _ (Except.error.inj same))
  · exact second value middle between ran

/-- As long as callbacks move on, there are no more flags than characters. -/
theorem readFlags_ends (moves : env.MovesOn) {fuel : Nat}
    (enough : start.reader.remaining.length ≤ fuel) :
    ((readFlags fuel).run env start state).1 ≠ .error .endless := by
  induction fuel generalizing start state with
  | zero =>
      have noDash : start.reader.current ≠ '-' := by
        rw [Reader.current_eq, List.eq_nil_of_length_eq_zero (Nat.le_zero.1 enough)]
        decide
      rw [readFlags_leads noDash 0 state]
      rintro ⟨⟩
  | succ fuel ih =>
      have flag : (readFlag : Walk F Unit).Obeys .ending :=
        readFlag_obeys Rules.ending_lenient trivial fun _ _ => by rintro ⟨⟩
      rw [readFlags]
      refine run_seq_ends (get_ending.ends moves start state) fun here middle between got => ?_
      cases got
      split
      · rename_i dash
        refine run_seq_ends (flag.ends moves start state) fun _ middle between passes => ?_
        have progress := readFlag_progress moves dash ⟨passes, rfl⟩
        exact ih (by omega)
      · rintro ⟨⟩

theorem upToFlags_ending (node : Node F) : (upToFlags node).Obeys .ending := by
  have lenient := Rules.ending_lenient (F := F)
  refine (enter_obeys lenient trivial _).seq fun _ => (readOwn_obeys lenient _).seq fun _ => ?_
  exact (knowFlags_obeys (fun _ => trivial) _).seq fun _ => reading_obeys lenient _

theorem knowArgument_ending (node : Node F) :
    (knowArgument node >>= fun _ => skipSpace).Obeys .ending := by
  exact (knowArgument_obeys Rules.ending_lenient _).seq fun _ =>
    reading_obeys Rules.ending_lenient _

theorem fill_ending (node : Node F) (executor : Option F) : (fill node executor).Obeys .ending := by
  exact fill_obeys Rules.ending_lenient trivial (fun _ => trivial) _ _

theorem noSubcommand_ending :
    (token >>= fun unknown =>
      .stop (.reported (.fail ("No subcommand by name `" ++ unknown ++ "`"))) :
        Walk F (Option F)).Obeys .ending := by
  exact (reading_obeys Rules.ending_lenient _).seq fun _ => .stop nofun

theorem goOn_ends (moves : env.MovesOn) {children : List (Node F)} {patience : Nat}
    (each : ∀ child ∈ children, ∀ executor start state,
      ((visit patience child executor).run env start state).1 ≠ .error .endless)
    (executor : Option F) (reader : Reader) (start : Invocation F) (state : σ) :
    ((goOn patience children executor reader).run env start state).1 ≠ .error .endless := by
  rw [goOn_eq]
  split
  · split
    · exact (fill_ending _ _).ends moves start state
    · nofun
  · split
    · rename_i child selected
      exact each child (Node.mem_of_selected? selected) executor start state
    · exact noSubcommand_ending.ends moves start state

/-- As long as callbacks move on along the line, a visit is followed to its end. -/
theorem visit_ends (moves : env.MovesOn) (patience : Nat) (node : Node F) (executor : Option F)
    (start : Invocation F) (state : σ) :
    ((visit patience node executor).run env start state).1 ≠ .error .endless := by
  induction node using Node.inductionOn generalizing executor start state with
  | step head children ih =>
      rw [visit_eq_throughFlags, throughFlags]
      refine run_seq_ends ?_ fun _ after later _ => ?_
      · refine run_seq_ends ((upToFlags_ending _).ends moves start state) fun _ before now _ => ?_
        refine run_seq_ends (get_ending.ends moves before now) fun here middle between got => ?_
        cases got
        refine run_seq_ends (readFlags_ends moves (Nat.le_add_right _ _)) fun _ middle between _ => ?_
        exact (knowArgument_ending _).ends moves middle between
      · refine run_seq_ends (get_ending.ends moves after later) fun here middle between got => ?_
        cases got
        exact goOn_ends moves ih _ _ after later

/-- As long as callbacks move on along the line, the walk of a line is followed to its end. -/
theorem ofLine_ends (moves : env.MovesOn) (patience : Nat) (registry : CommandRegistry F)
    (start : Invocation F) (state : σ) :
    ((ofLine patience registry).run env start state).1 ≠ .error .endless := by
  refine run_seq_ends (get_ending.ends moves start state) fun here middle between got => ?_
  cases got
  dsimp only
  split
  · nofun
  · refine run_seq_ends (fun absurdity => nomatch absurdity) fun _ middle between _ => ?_
    refine run_seq_ends (get_ending.ends moves middle between) fun here after later got => ?_
    cases got
    split
    · exact (fill_ending _ _).ends moves _ _
    · exact visit_ends moves patience _ none _ _

/-- However much more patiently the second walk is followed, it comes to the same as the first one,
unless that is not followed to its end. -/
def Follows (env : WalkEnv F σ) (more : Nat) (walk further : Walk F α) : Prop :=
  ∀ start state, (walk.run env start state).1 ≠ .error .endless →
    further.run { env with patience := more } start state = walk.run env start state

section Patience

variable {more : Nat}

theorem Follows.seq {walk further : Walk F α} {next goingOn : α → Walk F β}
    (first : walk.Follows env more further)
    (second : ∀ value, (next value).Follows env more (goingOn value)) :
    (walk >>= next).Follows env more (further >>= goingOn) := by
  intro start state ends
  rw [run_seq] at ends ⊢
  have same := first start state
  rcases ran : walk.run env start state with ⟨halt | value, middle, between⟩
  · rw [ran] at ends same
    have ends : (.error halt : Except Halt α) ≠ .error .endless :=
      fun endless => ends (congrArg _ (Except.error.inj endless))
    rw [run_seq, same ends, ran]
  · rw [ran] at ends same
    rw [run_seq, same nofun, ran]
    exact second value middle between ends

/-- A walk that looks for no flags is followed as far as its readings are. -/
theorem Obeys.follows {walk : Walk F α} {rules : Rules F} (obeys : walk.Obeys rules)
    (enough : env.patience ≤ more) : walk.Follows env more walk := by
  induction obeys with
  | done | stop =>
      exact fun start state _ => rfl
  | look _ ih =>
      exact fun start state ends => ih start start state ends
  | change _ _ ih =>
      exact fun start state ends => ih _ state ends
  | join node _ _ ih =>
      exact fun start state ends => ih _ state ends
  | test assertion _ ih =>
      intro start state ends
      have same : WalkEnv.test { env with patience := more } assertion start state =
          env.test assertion start state := rfl
      rw [run] at ends
      rw [run, run, same]
      generalize env.test assertion start state = tested at ends ⊢
      rcases tested with ⟨halt | reason, between⟩
      · rfl
      · exact ih reason start between ends
  | read parser halts _ ih =>
      intro start state ends
      have same := parser.read_follows ⟨some start.origin, env.parser, env.patience⟩ enough
        start.scan state
      rw [run] at ends
      rw [run, run]
      simp only [WalkEnv.read] at ends ⊢
      generalize parser.read ⟨some start.origin, env.parser, env.patience⟩ start.scan state = read
        at ends same ⊢
      rcases read with ⟨result, scan, between⟩
      by_cases followed : result = .endless
      · rw [followed, halts] at ends
        exact absurd rfl ends
      · rw [same followed]
        exact ih result followed _ between ends
  | record name result _ _ ih =>
      exact fun start state ends => ih _ state ends

variable (enough : env.patience ≤ more)

include enough

theorem readFlags_follows {fuel further : Nat} (reaches : fuel ≤ further) :
    (readFlags fuel : Walk F Unit).Follows env more (readFlags further) := by
  induction fuel generalizing further with
  | zero =>
      intro start state ends
      by_cases dash : start.reader.current = '-'
      · have stops : (readFlags 0).run env start state = (.error .endless, start, state) := by
          show ((if start.reader.current = '-' then Walk.stop .endless else Walk.done ()) :
            Walk F Unit).run env start state = _
          rw [if_pos dash]
          rfl
        rw [stops] at ends
        exact absurd rfl ends
      · rw [readFlags_leads dash further state, readFlags_leads dash 0 state]
  | succ fuel ih =>
      cases further with
      | zero =>
          exact absurd reaches (Nat.not_succ_le_zero fuel)
      | succ further =>
          have flag : (readFlag : Walk F Unit).Obeys .ending :=
            readFlag_obeys Rules.ending_lenient trivial fun _ _ => nofun
          refine (get_ending.follows enough).seq fun here => ?_
          split
          · exact (flag.follows enough).seq fun _ => ih (Nat.le_of_succ_le_succ reaches)
          · exact fun _ _ _ => rfl

theorem goOn_follows {children : List (Node F)}
    (each : ∀ child ∈ children, ∀ executor,
      (visit env.patience child executor).Follows env more (visit more child executor))
    (executor : Option F) (reader : Reader) :
    (goOn env.patience children executor reader).Follows env more
      (goOn more children executor reader) := by
  rw [goOn_eq, goOn_eq]
  split
  · split
    · exact (fill_ending _ _).follows enough
    · exact fun _ _ _ => rfl
  · split
    · rename_i child selected
      exact each child (Node.mem_of_selected? selected) executor
    · exact noSubcommand_ending.follows enough

theorem visit_follows (node : Node F) (executor : Option F) :
    (visit env.patience node executor).Follows env more (visit more node executor) := by
  induction node using Node.inductionOn generalizing executor with
  | step head children ih =>
      rw [visit_eq_throughFlags, visit_eq_throughFlags, throughFlags, throughFlags]
      refine Follows.seq ?_ fun _ => (get_ending.follows enough).seq fun after => ?_
      · refine ((upToFlags_ending _).follows enough).seq fun _ =>
          (get_ending.follows enough).seq fun before => ?_
        exact (readFlags_follows enough (Nat.add_le_add_left enough _)).seq fun _ =>
          (knowArgument_ending _).follows enough
      · exact goOn_follows enough ih _ _

/-- With however much more patience the walk of a line is followed, it comes to the same once it is
followed to its end. -/
theorem ofLine_follows (registry : CommandRegistry F) :
    (ofLine env.patience registry).Follows env more (ofLine more registry) := by
  refine (get_ending.follows enough).seq fun before => ?_
  dsimp only
  split
  · exact fun _ _ _ => rfl
  · refine Follows.seq (fun _ _ _ => rfl) fun _ => (get_ending.follows enough).seq fun arrived => ?_
    split
    · exact (fill_ending _ _).follows enough
    · exact visit_follows enough _ none

end Patience

end Following

end Knowing

end Walk

end Steward
