import Steward.Proofs.Command.Advance
import Steward.Proofs.Command.Approach
import Steward.Proofs.Command.Leading
import Steward.Proofs.Command.TokenWalk
import Steward.Proofs.OrderedMap

/-!
# Lines and their tokens agree

A plain command tree is walked by the line as it is by the line's tokens.  The
invariant is that between two steps the reader stands at a token, or at the end, that
the tokens from there on are those that are left, and that the invocation shows the
progress that was made.  Each part of a visit keeps it: reading a node's own token,
taking flags, and going on to the child that the next token selects.
-/

namespace Steward

variable {F σ J α : Type}

theorem get?_knowNames (names : List String) (flag : Flag F) (known : OrderedMap String (Flag F))
    (name : String) :
    (names.foldl (fun known name => known.insert name flag) known).get? name =
      if name ∈ names then some flag else known.get? name := by
  induction names generalizing known with
  | nil =>
      simp
  | cons first rest ih =>
      rw [List.foldl_cons, ih, OrderedMap.get?_insert]
      by_cases same : first = name
      · simp [same]
      · simp [same, Ne.symm same]

/-- Of the flags that a node makes known, the last one of a name is found. -/
theorem get?_knowFlags (flags : List (Flag F)) (known : OrderedMap String (Flag F))
    (name : String) :
    (flags.foldl (fun known flag => (flag.name :: flag.aliases).foldl
        (fun known name => known.insert name flag) known) known).get? name =
      (flags.reverse.find? (Flag.isCalled name)).or (known.get? name) := by
  induction flags generalizing known with
  | nil =>
      rfl
  | cons flag rest ih =>
      rw [List.foldl_cons, ih, get?_knowNames, List.reverse_cons, List.find?_append,
        Option.or_assoc]
      congr 1
      have called : flag.isCalled name = true ↔ name ∈ flag.name :: flag.aliases := by
        simp [Flag.isCalled]
      by_cases member : name ∈ flag.name :: flag.aliases
      · rw [if_pos member, List.find?_cons_of_pos (called.2 member)]
        rfl
      · rw [if_neg member, List.find?_cons_of_neg (fun is => member (called.1 is))]
        rfl

namespace TokenWalk

/-! ## What an invocation shows -/

def ofText (text : String) : ParseResult Nat := .settled (.ok (.text text))

/-- The value of a flag: what it was given, or true for a switch. -/
def ofFlag (value : Option String) : ParseResult Nat :=
  .settled (.ok (value.elim (.bool true) .text))

/-- An invocation shows the progress of a walk: the same chain, the same values in its
tables, and nothing that is not settled. -/
structure Progress.Shows (progress : Progress F) (invocation : Invocation F) : Prop where
  chain : invocation.chain = progress.chain
  arguments : invocation.argumentResults =
    .ofList (progress.arguments.map fun (name, text) => (name, ofText text))
  flags : invocation.flagResults =
    .ofList (progress.flags.map fun (name, value) => (name, ofFlag value))
  known : ∀ name, invocation.knownFlags.get? name = progress.flag? name
  awaited : invocation.awaited = []
  fences : invocation.scan.fences = []
  lookups : invocation.scan.lookups = []

variable {env : WalkEnv F σ} {progress : Progress F} {start : Invocation F} {reached : Reader}

namespace Progress.Shows

theorem withReader (shows : progress.Shows start) (reached : Reader) :
    Shows progress (start.withReader reached) := by
  exact ⟨shows.chain, shows.arguments, shows.flags, shows.known, shows.awaited, shows.fences,
    shows.lookups⟩

theorem recordFlag (shows : progress.Shows start) (flag : Flag F) (value : Option String) :
    Shows (progress.recordFlag flag value)
      (start.recordResult .flags flag.name (ofFlag value)) := by
  refine ⟨shows.chain, shows.arguments, ?_, shows.known, shows.awaited, shows.fences,
    shows.lookups⟩
  show start.flagResults.insert flag.name (ofFlag value) = _
  rw [shows.flags, Progress.recordFlag, List.map_append, List.map_singleton,
    OrderedMap.ofList_concat]

end Progress.Shows

/-! ## Flags -/

/-- The flags that can be known are switches or read texts. -/
def Progress.IsPlain (progress : Progress F) : Prop :=
  ∀ name flag, progress.flag? name = some flag →
    flag.parser = none ∨ flag.parser = some .string

/-- A text is read and recorded. -/
theorem readValue_leads {table : ValueTable} {name text : String}
    (fences : start.scan.fences = [])
    (reads : Primitive.readString [] start.reader = (.ok text, reached)) :
    (Walk.readValue table name .string).Leads env start (.ok ())
      ((start.withReader reached).recordResult table name (ofText text)) := by
  intro state
  have delimiters : start.scan.delimiters = [] := by
    rw [Scan.delimiters, fences]
    rfl
  have read : env.read .string start state =
      (ofText text, start.withReader reached, state) := by
    show (ParseResult.settled ((((Primitive.readString start.scan.delimiters start.reader).1.map
      Value.text).mapError Failure.parse)), start.withReader
        (Primitive.readString start.scan.delimiters start.reader).2, state) = _
    rw [delimiters, reads]
    rfl
  simp only [Walk.readValue, Walk.run, read, ofText]

theorem useFlag_unknown {position : Nat} {name : String}
    (unknown : start.knownFlags.get? name = none) :
    (Walk.useFlag position name start).Leads env start
      (.error (.reported (Walk.unknownFlag name
        (start.reader.span position ((start.reader.index : Int) - 1))))) start := by
  intro state
  rw [Walk.useFlag, unknown]
  rfl

theorem useFlag_switch {position : Nat} {name : String} {flag : Flag F}
    (known : start.knownFlags.get? name = some flag) (switch : flag.parser = none) :
    (Walk.useFlag position name start).Leads env start (.ok ())
      ((start.recordResult .flags flag.name (ofFlag none)).withReader start.reader.skipSpace) := by
  intro state
  simp only [Walk.useFlag, known, switch]
  rfl

theorem useFlag_text {position : Nat} {name text : String} {flag : Flag F}
    (known : start.knownFlags.get? name = some flag) (reads : flag.parser = some .string)
    (fences : start.scan.fences = [])
    (read : Primitive.readString [] start.reader.skipSpace = (.ok text, reached)) :
    (Walk.useFlag position name start).Leads env start (.ok ())
      ((start.recordResult .flags flag.name (ofFlag (some text))).withReader
        reached.skipSpace) := by
  have value : (Walk.readValue .flags flag.name .string).Leads env
      (start.withReader start.reader.skipSpace) (.ok ()) _ := readValue_leads fences read
  simp only [Walk.useFlag, known, reads]
  exact Walk.leads_skipSpace.seq (value.seq Walk.leads_skipSpace)

/-- The first of some tokens, if it is a flag, is read as it is taken. -/
theorem readFlag_agrees (env : WalkEnv F σ) (shows : progress.Shows start)
    (plain : progress.IsPlain) {token : Token} {tokens : List Token} {name : String}
    (line : Token.Line start.reader.remaining (token :: tokens))
    (dashed : token.dashed? = some name) :
    match progress.flag? name with
    | none =>
      ∃ span last,
        Walk.readFlag.Leads env start (.error (.reported (Walk.unknownFlag name span))) last ∧
          progress.Shows last
    | some flag =>
      ∃ value left last, Walk.readFlag.Leads env start (.ok ()) last ∧
        (progress.recordFlag flag value).Shows last ∧
        Token.Line last.reader.remaining left ∧
        left.length ≤ tokens.length ∧
        takeFlags (token :: tokens) progress = takeFlags left (progress.recordFlag flag value) := by
  rcases Reader.collect_dashed line dashed with ⟨-, stop, collected, behind⟩
  have named := shows.withReader stop
  have next := Reader.skipSpace_behind behind
  cases found : progress.flag? name with
  | none =>
      have unknown := named.known name
      rw [found] at unknown
      exact ⟨_, _, Walk.readFlag_leads collected (useFlag_unknown unknown), named⟩
  | some flag =>
      have known := named.known name
      rw [found] at known
      dsimp only
      rcases plain name flag found with switch | texts
      · refine ⟨none, tokens, _, Walk.readFlag_leads collected (useFlag_switch known switch),
          (named.recordFlag flag none).withReader _, next, Nat.le_refl _, ?_⟩
        simp only [takeFlags, dashed, found, switch]
      · cases tokens with
        | nil =>
            have read := Reader.readString_end next
            refine ⟨some "", [], _, Walk.readFlag_leads collected
              (useFlag_text known texts named.fences read),
              (named.recordFlag flag (some "")).withReader _, ?_, Nat.le_refl _, ?_⟩
            · exact (Reader.skipSpace_line next).symm ▸ next
            · simp only [takeFlags, dashed, found, texts]
        | cons value rest =>
            rcases Reader.readString_token next with ⟨reached, read, behind⟩
            refine ⟨some value.text, rest, _, Walk.readFlag_leads collected
              (useFlag_text known texts named.fences read),
              (named.recordFlag flag (some value.text)).withReader _,
              Reader.skipSpace_behind behind, Nat.le_succ _, ?_⟩
            simp only [takeFlags, dashed, found, texts]

theorem readFlags_end (env : WalkEnv F σ) (line : Token.Line start.reader.remaining [])
    (fuel : Nat) : (Walk.readFlags fuel).Leads env start (.ok ()) start := by
  apply Walk.readFlags_leads
  rw [Reader.current_end line]
  decide

/-- Reading flags takes the tokens that are flags, up to one that is not known. -/
theorem readFlags_agrees (env : WalkEnv F σ) {tokens : List Token} {fuel : Nat}
    (shows : progress.Shows start)
    (plain : progress.IsPlain) (line : Token.Line start.reader.remaining tokens)
    (enough : tokens.length ≤ fuel) :
    match takeFlags tokens progress with
    | (.error name, progress) =>
      ∃ span last, (Walk.readFlags fuel).Leads env start
        (.error (.reported (Walk.unknownFlag name span))) last ∧ progress.Shows last
    | (.ok left, progress) =>
      ∃ last, (Walk.readFlags fuel).Leads env start (.ok ()) last ∧ progress.Shows last ∧
        Token.Line last.reader.remaining left := by
  induction fuel generalizing tokens progress start with
  | zero =>
      cases List.eq_nil_of_length_eq_zero (Nat.le_zero.1 enough)
      exact ⟨start, readFlags_end env line 0, shows, line⟩
  | succ fuel ih =>
      cases tokens with
      | nil =>
          exact ⟨start, readFlags_end env line _, shows, line⟩
      | cons token rest =>
          cases dashed : token.dashed? with
          | none =>
              rw [takeFlags, dashed]
              exact ⟨start, Walk.readFlags_leads (Reader.current_ne_dash line dashed) _, shows,
                line⟩
          | some name =>
              have dash := (Reader.collect_dashed line dashed).1
              have first := readFlag_agrees env shows plain line dashed
              cases found : progress.flag? name with
              | none =>
                  rw [found] at first
                  rcases first with ⟨span, last, leads, shows⟩
                  rw [takeFlags, dashed]
                  simp only [found]
                  refine ⟨span, last, ?_, shows⟩
                  apply Walk.leads_get
                  rw [if_pos dash]
                  exact leads.seq_error
              | some flag =>
                  rw [found] at first
                  rcases first with ⟨value, left, middle, leads, shows, line, shorter, takes⟩
                  have fits : left.length ≤ fuel := by
                    rw [List.length_cons] at enough
                    omega
                  have later := ih shows plain line fits
                  have goesOn {result : Except Halt Unit} {last : Invocation F}
                      (others : (Walk.readFlags fuel).Leads env middle result last) :
                      (Walk.readFlags (fuel + 1)).Leads env start result last := by
                    apply Walk.leads_get
                    rw [if_pos dash]
                    exact leads.seq others
                  rw [takes]
                  generalize takeFlags left (progress.recordFlag flag value) = taken at later
                  rcases taken with ⟨unknown | kept, reached⟩
                  · rcases later with ⟨span, last, others, shows⟩
                    exact ⟨span, last, goesOn others, shows⟩
                  · rcases later with ⟨last, others, shows, line⟩
                    exact ⟨last, goesOn others, shows, line⟩

/-! ## Entering nodes -/

/-- The invocation with further flags made known. -/
def knowing (invocation : Invocation F) (flags : List (Flag F)) : Invocation F :=
  { invocation with
    knownFlags := flags.foldl
      (fun known flag => (flag.name :: flag.aliases).foldl
        (fun known name => known.insert name flag) known)
      invocation.knownFlags }

theorem knowFlags_leads (flags : List (Flag F)) :
    (Walk.knowFlags flags).Leads env start (.ok ()) (knowing start flags) := by
  intro state
  rfl

/-- The argument below a node is no part of what is shown. -/
theorem knowArgument_leads (env : WalkEnv F σ) (shows : progress.Shows start) (node : Node F) :
    ∃ last, (Walk.knowArgument node).Leads env start (.ok ()) last ∧ progress.Shows last ∧
      last.reader = start.reader := by
  unfold Walk.knowArgument
  cases node.argumentChild? with
  | none =>
      exact ⟨start, fun _ => rfl, shows, rfl⟩
  | some child =>
      refine ⟨_, fun _ => rfl, ?_, rfl⟩
      exact ⟨shows.chain, shows.arguments, shows.flags, shows.known, shows.awaited, shows.fences,
        shows.lookups⟩

theorem Progress.Shows.join (shows : progress.Shows start) (node : Node F) :
    (progress.join node).Shows (knowing (start.visiting node) node.head.flags) := by
  refine ⟨?_, shows.arguments, shows.flags, ?_, shows.awaited, shows.fences, shows.lookups⟩
  · show start.chain ++ [node] = _
    rw [shows.chain]
    rfl
  · intro name
    rw [progress.flag?_join, ← shows.known]
    exact get?_knowFlags node.head.flags start.knownFlags name

/-- A node is entered with its own token. -/
theorem readOwn_agrees (env : WalkEnv F σ) (shows : progress.Shows start) {node : Node F}
    (reads : node.head.kind = .literal ∨ node.head.kind = .argument .string) {own : Token}
    {tokens : List Token} (line : Token.Line start.reader.remaining (own :: tokens)) :
    ∃ last, (Walk.readOwn node).Leads env (start.visiting node) (.ok ()) last ∧
      (progress.visit node own).Shows (knowing last node.head.flags) ∧
      Token.Behind last.reader.remaining tokens := by
  have joined := shows.join node
  rcases reads with literal | text
  · rcases Reader.collect_notSpace line with ⟨stop, collected, behind⟩
    refine ⟨(start.visiting node).withReader stop, ?_, ?_, behind⟩
    · simp only [Walk.readOwn, literal]
      exact (Walk.leads_reading collected).seq fun _ => rfl
    · rw [Progress.visit, literal]
      exact joined.withReader stop
  · rcases Reader.readString_token line with ⟨stop, read, behind⟩
    refine ⟨((start.visiting node).withReader stop).recordResult .arguments node.name
      (ofText own.text), ?_, ?_, behind⟩
    · simp only [Walk.readOwn, text]
      exact readValue_leads shows.fences read
    · rw [Progress.visit, text]
      refine ⟨joined.chain, ?_, joined.flags, joined.known, joined.awaited, joined.fences,
        joined.lookups⟩
      show start.argumentResults.insert node.name (ofText own.text) = _
      rw [shows.arguments, List.map_append, List.map_singleton, OrderedMap.ofList_concat]

/-! ## Whole walks -/

/-- What the end of a walk over tokens means for a walk of the line. -/
def Ending.Means : Ending F → Except Halt (Option F) → Prop
  | .unknownCommand name, result =>
    result = .error (.reported (.fail ("No command by name `" ++ name ++ "`")))
  | .unknownFlag name, result => ∃ span, result = .error (.reported (Walk.unknownFlag name span))
  | .unknownSubcommand token, result =>
    result = .error (.reported (.fail ("No subcommand by name `" ++ token ++ "`")))
  | .noExecutor, result => result = .ok none
  | .selected executor, result => result = .ok (some executor)

/-- A walk comes to the same as a course over tokens. -/
def Agrees (env : WalkEnv F σ) (walk : Walk F (Option F)) (start : Invocation F)
    (course : Progress F × Ending F) : Prop :=
  ∃ result last, walk.Leads env start result last ∧ course.1.Shows last ∧ course.2.Means result

/-- The executor of the deepest node visited that has one. -/
def Progress.executor (progress : Progress F) : Option F :=
  Node.deepestExecutor none progress.chain

theorem Progress.executor_of_chain {before after : Progress F} {node : Node F}
    (joined : after.chain = before.chain ++ [node]) :
    after.executor = Walk.executorBelow node before.executor := by
  rw [executor, executor, joined, Node.deepestExecutor, Node.deepestExecutor, List.foldl_append]
  rfl

/-- A walk that ends with the line comes to the deepest executor. -/
theorem agrees_done (shows : progress.Shows start) :
    Agrees env (.done progress.executor) start (progress, progress.ending) := by
  refine ⟨_, start, fun _ => rfl, shows, ?_⟩
  rw [Progress.executor, Node.deepestExecutor_eq, Option.or_none, Progress.ending]
  cases (progress.chain.filterMap (·.head.executor)).getLast? <;> rfl

theorem Agrees.after {middle : Invocation F} {walk : Walk F α} {value : α}
    {next : α → Walk F (Option F)} {course : Progress F × Ending F}
    (first : walk.Leads env start (.ok value) middle)
    (agrees : Agrees env (next value) middle course) : Agrees env (walk >>= next) start course := by
  rcases agrees with ⟨result, last, leads, shows, means⟩
  exact ⟨result, last, first.seq leads, shows, means⟩

theorem Agrees.get {next : Invocation F → Walk F (Option F)} {course : Progress F × Ending F}
    (agrees : Agrees env (next start) start course) :
    Agrees env (Walk.get >>= next) start course := by
  exact agrees

theorem fillArgument_agrees {children : List (Node F)} (shows : progress.Shows start)
    (each : ∀ child ∈ children, Agrees env (Walk.fill child progress.executor) start
      (fill child progress)) :
    Agrees env
      (match Walk.fillArgument children progress.executor with
        | some next => next
        | none => .done progress.executor)
      start (fillArgument children progress) := by
  rw [Walk.fillArgument_eq, fillArgument_eq]
  cases found : children.find? (!·.isLiteral) with
  | none =>
      exact agrees_done shows
  | some child =>
      exact each child (List.mem_of_find?_eq_some found)

/-- Filling in optional arguments agrees. -/
theorem fill_agrees (node : Node F) (plain : node.IsPlain) (shows : progress.Shows start) :
    Agrees env (Walk.fill node progress.executor) start (fill node progress) := by
  induction node using Node.inductionOn generalizing progress start with
  | step head children ih =>
      rw [Walk.fill, fill]
      split
      · exact agrees_done shows
      · have joined := shows.join (.node head children)
        rcases knowArgument_leads env joined (.node head children) with
          ⟨last, argument, shows, -⟩
        have executor : (progress.join (.node head children)).executor =
            Walk.executorBelow (.node head children) progress.executor :=
          Progress.executor_of_chain rfl
        apply Agrees.after (Walk.enter_leads plain.free)
        apply Agrees.after (knowFlags_leads head.flags)
        apply Agrees.after argument
        rw [← executor]
        apply fillArgument_agrees shows
        intro child member
        exact ih child member (plain.children child member) shows

theorem goOn_agrees {patience : Nat} {children : List (Node F)} {tokens : List Token}
    (plain : ∀ child ∈ children, child.IsPlain) (shows : progress.Shows start)
    (line : Token.Line start.reader.remaining tokens)
    (each : ∀ child ∈ children, ∀ next rest, tokens = next :: rest →
      Agrees env (Walk.visit patience child progress.executor) start
        (visit child next rest progress)) :
    Agrees env (Walk.goOn patience children progress.executor start.reader) start
      (choose children tokens progress) := by
  have atEnd := Reader.atEnd_line line
  cases tokens with
  | nil =>
      rw [List.isEmpty_nil] at atEnd
      rw [Walk.goOn, if_pos atEnd]
      apply fillArgument_agrees shows
      intro child member
      exact fill_agrees child (plain child member) shows
  | cons next rest =>
      have goes : ¬ start.reader.atEnd = true := by
        rw [atEnd]
        simp
      rw [Walk.goOn, if_neg goes, Reader.upcoming_token line, Walk.visitSelected_eq,
        Walk.visitSelected_eq, choose]
      cases selected : children.find? (Node.isSelectedBy next.text) with
      | some child =>
          exact each child (List.mem_of_find?_eq_some selected) next rest rfl
      | none =>
          cases argument : children.find? (!·.isLiteral) with
          | some child =>
              exact each child (List.mem_of_find?_eq_some argument) next rest rfl
          | none =>
              rcases Reader.collect_notSpace line with ⟨stop, collected, -⟩
              refine ⟨_, start.withReader stop, ?_, shows.withReader stop, rfl⟩
              exact (Walk.leads_reading collected).seq fun _ => rfl

theorem Progress.IsPlain.visit {node : Node F} (plain : progress.IsPlain)
    (flags : ∀ flag ∈ node.head.flags, flag.parser = none ∨ flag.parser = some .string)
    (own : Token) : (progress.visit node own).IsPlain := by
  intro name flag found
  rw [flag?_visit, flag?_join, Option.or_eq_some_iff] at found
  rcases found with found | ⟨-, found⟩
  · exact flags flag (List.mem_reverse.1 (List.mem_of_find?_eq_some found))
  · exact plain name flag found

theorem Progress.IsPlain.of_chain {before after : Progress F} (plain : before.IsPlain)
    (same : after.chain = before.chain) : after.IsPlain := by
  intro name flag found
  rw [flag?, same] at found
  exact plain name flag found

/-- A visit agrees. -/
theorem visit_agrees {patience : Nat} (node : Node F) (plain : node.IsPlain) (shows : progress.Shows start)
    (known : progress.IsPlain) {own : Token} {tokens : List Token}
    (line : Token.Line start.reader.remaining (own :: tokens)) :
    Agrees env (Walk.visit patience node progress.executor) start
      (visit node own tokens progress) := by
  induction node using Node.inductionOn generalizing progress start own tokens with
  | step head children ih =>
      rcases readOwn_agrees env shows plain.reads line with ⟨read, reads, shows, behind⟩
      have enough : tokens.length ≤ read.reader.skipSpace.remaining.length + patience :=
        Nat.le_add_right_of_le (Reader.skipSpace_behind behind).length_le
      have flags := readFlags_agrees env (shows.withReader read.reader.skipSpace)
        (known.visit plain.flags own) (Reader.skipSpace_behind behind) enough
      have chain := chain_takeFlags tokens (progress.visit (.node head children) own)
      rw [Walk.visit_eq, visit_node]
      apply Agrees.after (Walk.enter_leads plain.free)
      apply Agrees.after reads
      apply Agrees.after (knowFlags_leads head.flags)
      apply Agrees.after Walk.leads_skipSpace
      apply Agrees.get
      generalize takeFlags tokens (progress.visit (.node head children) own) = taken at *
      rcases taken with ⟨unknown | left, after⟩
      · rcases flags with ⟨span, last, stops, shows⟩
        exact ⟨_, last, stops.seq_error, shows, span, rfl⟩
      · rcases flags with ⟨middle, passes, shows, line⟩
        rcases knowArgument_leads env shows (.node head children) with
          ⟨last, argument, shows, same⟩
        apply Agrees.after passes
        apply Agrees.after argument
        apply Agrees.after Walk.leads_skipSpace
        apply Agrees.get
        have stands : last.reader.skipSpace = last.reader := by
          rw [same]
          exact Reader.skipSpace_line line
        have executor : after.executor =
            Walk.executorBelow (.node head children) progress.executor :=
          Progress.executor_of_chain (chain.trans (Progress.chain_visit _ _ _))
        rw [← executor]
        have line : Token.Line last.reader.skipSpace.remaining left := by
          rw [stands, same]
          exact line
        apply goOn_agrees plain.children (shows.withReader _) line
        intro child member next rest isLeft
        subst isLeft
        have known : after.IsPlain := (known.visit plain.flags own).of_chain chain
        exact ih child member (plain.children child member) (shows.withReader _) known line

/-- The command of a line is no part of what is shown. -/
theorem command_leads (env : WalkEnv F σ) (shows : progress.Shows start) (command : Node F) :
    ∃ last, (Walk.modify fun invocation =>
        { invocation with command := some command }).Leads env start (.ok ()) last ∧
      progress.Shows last ∧ last.reader = start.reader := by
  refine ⟨_, fun _ => rfl, ?_, rfl⟩
  exact ⟨shows.chain, shows.arguments, shows.flags, shows.known, shows.awaited, shows.fences,
    shows.lookups⟩

/-- The walk of a line agrees with the walk over its tokens. -/
theorem ofLine_agrees (env : WalkEnv F σ) (registry : CommandRegistry F) {first : Token}
    {rest : List Token}
    (plain : ∀ command, registry.get? first.text = some command → command.IsPlain)
    (shows : Progress.start.Shows start)
    (line : Token.Line start.reader.remaining (first :: rest)) :
    Agrees env (Walk.ofLine env.patience registry) start (run registry first rest) := by
  have lookup : registry.table.get? (LowerCase.lower first.text) = registry.get? first.text := rfl
  apply Agrees.get
  simp only [Reader.upcoming_token line, lookup, run]
  cases found : registry.get? first.text with
  | none =>
      exact ⟨_, start, fun _ => rfl, shows, rfl⟩
  | some command =>
      have noFlags : (Progress.start : Progress F).IsPlain := by
        intro name flag found
        cases found
      rcases command_leads env shows command with ⟨middle, commands, shows, same⟩
      rw [← same] at line
      have goes : ¬ middle.reader.atEnd = true := by
        rw [Reader.atEnd_line line]
        simp
      apply Agrees.after commands
      apply Agrees.get
      rw [if_neg goes]
      exact visit_agrees command (plain command found) shows noFlags line

end TokenWalk

namespace Dispatch

/-- Where a line consists of tokens and the command that its first token names is
plain, a dispatch approaches what the walk over the tokens comes to, whatever its
callbacks are: the same chain of nodes, the same arguments and flags, and the same
end. -/
theorem approach_agrees (env : WalkEnv F σ) (begin : LookupJob F → J)
    (registry : CommandRegistry F) {text : String} {first : Token} {rest : List Token}
    (line : Token.Line text.toList (first :: rest))
    (plain : ∀ command, registry.get? first.text = some command → command.IsPlain)
    (message : Option Message) (origin : Origin) :
    ∃ result last,
      (TokenWalk.run registry first rest).1.Shows last ∧
      (TokenWalk.run registry first rest).2.Means result ∧
      approach env begin registry
        { Invocation.ofText text with message := message, origin := origin } =
        .get fun state => .put state (arrive result last) := by
  have start : TokenWalk.Progress.start.Shows
      { (Invocation.ofText text : Invocation F) with message := message, origin := origin } :=
    ⟨rfl, rfl, rfl, fun _ => rfl, rfl, rfl, rfl⟩
  rcases TokenWalk.ofLine_agrees env registry plain start line with
    ⟨result, last, walks, shows, means⟩
  refine ⟨result, { last with tasks := [] }, ?_, means, ?_⟩
  · exact ⟨shows.chain, shows.arguments, shows.flags, shows.known, shows.awaited, shows.fences,
      shows.lookups⟩
  · rw [approach_eq]
    apply congrArg Activity.get
    funext state
    rw [walks state]
    exact congrArg (Activity.put state) (launch_of_nothing begin result shows.awaited shows.lookups)

end Dispatch

/-! ## A march

A troop is sent on its way, perhaps at speed and for some miles.
-/

namespace March

def north : Node String :=
  .node
    { name := "north", kind := .literal, lead := none, aliases := ["n"], optional := false
      fallback := none, flags := [], assertions := [], executor := some "north", labels := [] }
    []

def whither : Node String :=
  .node
    { name := "whither", kind := .argument .string, lead := none, aliases := []
      optional := false, fallback := none, flags := [⟨"miles", ["m"], some .string, none⟩]
      assertions := [], executor := some "whither", labels := [] }
    []

def march : Node String :=
  .node
    { name := "march", kind := .literal, lead := some "!", aliases := [], optional := false
      fallback := none, flags := [⟨"fast", ["f"], none, none⟩], assertions := []
      executor := none, labels := [] }
    [north, whither]

def registry : CommandRegistry String := ((CommandRegistry.new "!" false).register march).2

/-- Callbacks that a plain tree does not ask. -/
def env : WalkEnv String Unit where
  parser _ scan state := (.bare .null, scan.reader, state)
  assertion _ _ state := (.ok none, state)
  lacking := none

def order : Token := .ofChars ['!', 'M', 'a', 'r', 'c', 'h'] rfl

def fast : Token := .ofChars ['-', 'f'] rfl

def south : Token := .ofChars ['s', 'o', 'u', 't', 'h'] rfl

def miles : Token := .ofChars ['-', 'm'] rfl

def many : Token := .ofChars ['-', '9'] rfl

theorem blank {gap : List Char} (every : gap.all CharClass.isSpace = true) :
    ∀ c ∈ gap, CharClass.isSpace c = true := by
  exact List.all_eq_true.1 every

theorem line : Token.Line "!March -f\t south  -m -9 ".toList [order, fast, south, miles, many] := by
  have atEnd : Token.Behind [' '] [] := .nothing (blank rfl)
  have afterMiles : Token.Behind [' ', '-', '9', ' '] [many] :=
    .token many (List.cons_ne_nil ' ' []) (blank rfl) atEnd
  have afterSouth : Token.Behind (' ' :: ' ' :: '-' :: 'm' :: _) [miles, many] :=
    .token miles (List.cons_ne_nil ' ' [' ']) (blank rfl) afterMiles
  have afterFast : Token.Behind ('\t' :: ' ' :: 's' :: 'o' :: 'u' :: 't' :: 'h' :: _) _ :=
    .token south (List.cons_ne_nil '\t' [' ']) (blank rfl) afterSouth
  have afterOrder : Token.Behind (' ' :: '-' :: 'f' :: _) _ :=
    .token fast (List.cons_ne_nil ' ' []) (blank rfl) afterFast
  exact .token order afterOrder

theorem plain : march.IsPlain := by
  refine .node rfl (.inl rfl) (by simp) ?_
  simp only [List.forall_mem_cons, List.not_mem_nil, false_implies, implies_true, and_true]
  constructor
  · exact .node rfl (.inl rfl) (by simp) (by simp)
  · exact .node rfl (.inr rfl) (by simp) (by simp)

theorem goes_south :
    ∃ last,
      last.chain = [march, whither] ∧
      last.argumentResults = ⟨[("whither", .settled (.ok (.text "south")))]⟩ ∧
      last.flagResults =
        ⟨[("fast", .settled (.ok (.bool true))), ("miles", .settled (.ok (.text "-9")))]⟩ ∧
      Dispatch.approach env id registry
        { Invocation.ofText "!March -f\t south  -m -9 " with
          message := none, origin := ⟨.null, none, none⟩ } =
        .get fun state => .put state (Dispatch.arrive (.ok (some "whither")) last) := by
  have commands : ∀ command, registry.get? order.text = some command → command.IsPlain := by
    intro command found
    have isMarch : registry.get? order.text = some march := rfl
    rw [isMarch] at found
    cases found
    exact plain
  have course : TokenWalk.run registry order [fast, south, miles, many] =
      (⟨[march, whither], [("whither", "south")], [("fast", none), ("miles", some "-9")]⟩,
        .selected "whither") := rfl
  rcases Dispatch.approach_agrees env id registry line commands none ⟨.null, none, none⟩ with
    ⟨result, last, shows, means, approaches⟩
  rw [course] at shows means
  cases means
  exact ⟨last, shows.chain, shows.arguments, shows.flags, approaches⟩

end March

end Steward
