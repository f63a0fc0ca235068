import Steward.Command.Traversal

/-!
# Walks that leave the state alone

Some walks come to the same whatever the state is that they are carried out in, and
leave it as it is.  What such a walk leads to is composed of what its parts lead to.
The instructions of a visit are named here part by part, and the first child that is
selected is found as in any list.
-/

namespace Steward

variable {F σ α β : Type}

namespace Walk

theorem visitSelected_eq (patience : Nat) (isSelected : Node F → Bool) (children : List (Node F))
    (executor : Option F) :
    visitSelected patience isSelected children executor =
      (children.find? isSelected).map fun child => visit patience child executor := by
  induction children with
  | nil =>
      rfl
  | cons child rest ih =>
      rw [visitSelected, List.find?_cons, ih]
      cases isSelected child <;> rfl

theorem fillArgument_eq (children : List (Node F)) (executor : Option F) :
    fillArgument children executor =
      (children.find? (!·.isLiteral)).map fun child => fill child executor := by
  induction children with
  | nil =>
      rfl
  | cons child rest ih =>
      rw [fillArgument, List.find?_cons, ih]
      cases child.isLiteral <;> rfl

/-! ## Walks that leave the state alone -/

theorem run_seq (env : WalkEnv F σ) (walk : Walk F α) (next : α → Walk F β)
    (start : Invocation F) (state : σ) :
    (walk >>= next).run env start state =
      match walk.run env start state with
      | (.ok value, middle, between) => (next value).run env middle between
      | (.error halt, last, after) => (.error halt, last, after) := by
  show (walk.bind next).run env start state = _
  induction walk generalizing start state with
  | done value =>
      rfl
  | stop halt =>
      rfl
  | look after ih =>
      exact ih start start state
  | change f after ih =>
      exact ih (f start) state
  | join node after ih =>
      exact ih (start.visiting node) state
  | test assertion after ih =>
      simp only [bind, run]
      rcases env.test assertion start state with ⟨halt | reason, between⟩
      · rfl
      · exact ih reason start between
  | read parser after ih =>
      simp only [bind, run]
      exact ih _ _ _
  | record table name result after ih =>
      exact ih (start.recordResult table name result) state

/-- Whatever the state, a walk ends with a result at an invocation, and leaves the
state alone. -/
def Leads (env : WalkEnv F σ) (walk : Walk F α) (start : Invocation F)
    (result : Except Halt α) (last : Invocation F) : Prop :=
  ∀ state, walk.run env start state = (result, last, state)

section Leads

variable {env : WalkEnv F σ} {start middle last : Invocation F} {walk : Walk F α}
  {next : α → Walk F β}

theorem Leads.seq {value : α} {result : Except Halt β}
    (first : walk.Leads env start (.ok value) middle)
    (second : (next value).Leads env middle result last) :
    (walk >>= next).Leads env start result last := by
  intro state
  rw [run_seq, first state]
  exact second state

theorem Leads.seq_error {halt : Halt} (first : walk.Leads env start (.error halt) last) :
    (walk >>= next).Leads env start (.error halt) last := by
  intro state
  rw [run_seq, first state]

theorem leads_reading {reached : Reader} {value : α} {f : Reader → α × Reader}
    (reads : f start.reader = (value, reached)) :
    (reading f).Leads env start (.ok value) (start.withReader reached) := by
  intro state
  show (Except.ok (f start.reader).1, start.withReader (f start.reader).2, state) = _
  rw [reads]

theorem leads_get {result : Except Halt β} {next : Invocation F → Walk F β}
    (leads : (next start).Leads env start result last) :
    (get >>= next).Leads env start result last := by
  exact leads

theorem leads_skipSpace :
    skipSpace.Leads env start (.ok ()) (start.withReader start.reader.skipSpace) := by
  exact leads_reading rfl

/-- The failure of a flag that is not known. -/
def unknownFlag (name : String) (span : Span) : Outcome :=
  .ofRaised (.command ("No flag by alias `" ++ name ++ "`") .unknownFlag (some span) false none)

/-- What becomes of a flag once its name is read. -/
def useFlag (start : Nat) (name : String) (invocation : Invocation F) : Walk F Unit :=
  match invocation.knownFlags.get? name with
  | none =>
    .stop (.reported (unknownFlag name
      (invocation.reader.span start ((invocation.reader.index : Int) - 1))))
  | some flag =>
    match flag.parser with
    | none => do
      .record .flags flag.name (.settled (.ok (.bool true))) (.done ())
      skipSpace
    | some parser => do
      skipSpace
      readValue .flags flag.name parser
      skipSpace

theorem readFlag_eq :
    (readFlag : Walk F Unit) =
      reading (fun reader => ((), reader.advance)) >>= fun _ => get >>= fun before =>
        token >>= fun name => get >>= useFlag before.reader.index name := by
  rfl

theorem readFlag_leads {name : String} {stop : Reader} {result : Except Halt Unit}
    (collected : start.reader.advance.collect CharClass.notSpace = (name, stop))
    (uses : (useFlag start.reader.advance.index name (start.withReader stop)).Leads env
      (start.withReader stop) result last) :
    readFlag.Leads env start result last := by
  have dash : (reading fun reader => ((), reader.advance)).Leads env start (.ok ())
      (start.withReader start.reader.advance) := leads_reading rfl
  rw [readFlag_eq]
  apply dash.seq
  apply leads_get
  apply Leads.seq (leads_reading collected)
  exact leads_get uses

/-- Where no dash follows, no flags are read. -/
theorem readFlags_leads (noDash : start.reader.current ≠ '-') (fuel : Nat) :
    (readFlags fuel).Leads env start (.ok ()) start := by
  cases fuel with
  | zero | succ fuel =>
      apply leads_get
      rw [if_neg noDash]
      exact fun _ => rfl

theorem enter_leads {node : Node F} (free : node.head.assertions = []) :
    (enter node).Leads env start (.ok ()) (start.visiting node) := by
  intro state
  rw [enter, free]
  rfl

end Leads

/-- The way on from a node: to the child that the next token selects, or to the
argument that the end of the line leaves out. -/
def goOn (patience : Nat) (children : List (Node F)) (executor : Option F) (reader : Reader) :
    Walk F (Option F) :=
  if reader.atEnd then
    match fillArgument children executor with
    | some next => next
    | none => .done executor
  else
    match visitSelected patience (Node.isSelectedBy (reader.upcoming CharClass.notSpace)) children
        executor with
    | some visitChild => visitChild
    | none =>
      match visitSelected patience (!·.isLiteral) children executor with
      | some visitChild => visitChild
      | none => token >>= fun unknown =>
        .stop (.reported (.fail ("No subcommand by name `" ++ unknown ++ "`")))

/-- A visit enters a node, reads its own token, then its flags, and goes on. -/
theorem visit_eq (patience : Nat) (head : NodeHead F) (children : List (Node F))
    (executor : Option F) :
    visit patience (.node head children) executor =
      enter (.node head children) >>= fun _ => readOwn (.node head children) >>= fun _ =>
        knowFlags head.flags >>= fun _ => skipSpace >>= fun _ => get >>= fun before =>
          readFlags (before.reader.remaining.length + patience) >>= fun _ =>
            knowArgument (.node head children) >>= fun _ => skipSpace >>= fun _ =>
              get >>= fun after =>
                goOn patience children (executorBelow (.node head children) executor)
                  after.reader := by
  rw [visit]
  rfl

end Walk

end Steward
