import Steward.Proofs.Rule.Lasting

/-!
# Interleaved firings

Any number of calls fire a rule, and run in pieces: a call that waits in an action may be
resumed at any time and with any answer, and other calls and the rest of the world go on
meanwhile.  Whether a call runs the actions of the rule depends only on how many calls
before it were let pass by the conditions, because the conditions are tested and the
lifetime is settled in the call's first piece, before any action begins.

One step of an interleaving leaves every call but one as it was, and the rule as old as
the calls that passed.  An induction over the steps carries this to all interleavings.
-/

namespace Steward.Firing

variable {F H : Type} {callbacks : Callbacks F H} {reach : Reach F H} {id : Nat}
  {arguments : Value}

/-! ## Actions leave the rule alone -/

theorem ofExcept_within {α β : Type} {outcome : Except Failure α} {next : α → WorldCourse F H β}
    {world : World F H}
    (rest : ∀ value, (next value).run.StaysWithin (World.Spares id) world world) :
    (Course.ofExcept outcome >>= next).run.StaysWithin (World.Spares id) world world := by
  cases outcome with
  | error failure =>
      exact .refl id world
  | ok value =>
      exact rest value

theorem keepPromise_within (promise : TaskId) (arguments : Value) (world : World F H) :
    (keepPromise promise arguments : WorldCourse F H Unit).run.StaysWithin (World.Spares id)
      world world := by
  rintro (_ | kept)
  · cases arguments with
    | occasion =>
        apply ofExcept_within
        intro emoji
        exact .refl id world
    | _ =>
        exact .refl id world
  · exact .refl id world

/-- Asking for something is only written down. -/
theorem request_within (outcome : Except Failure Request) (world : World F H) :
    (do
      let request ← Course.ofExcept outcome
      Course.modify (enter (.request request)) : WorldCourse F H Unit).run.StaysWithin
        (World.Spares id) world world := by
  apply ofExcept_within
  intro request
  exact .refl id world

theorem runDeed_within (spare : callbacks.Spare reach id) (deed : Deed F) (arguments : Value)
    (parameters : Parameters) (world : World F H) :
    (runDeed callbacks reach deed arguments parameters).run.StaysWithin (World.Spares id)
      world world := by
  cases deed with
  | custom name =>
      apply Activity.StaysWithin.bind (spare.act name arguments parameters world)
      · rintro (interrupt | value) now spares
        · exact spares
        · exact spares
      · rintro (interrupt | value) state now spares
        · exact spares
        · exact spares
  | answer promise =>
      exact keepPromise_within promise arguments world
  | giveRole | removeRole | react =>
      exact request_within _ world

/-- What reads the world goes on with what it has read. -/
theorem read_seq_within {α β : Type} {allowed : World F H → World F H → Prop}
    {f : World F H → α} {next : α → WorldCourse F H β} {begun now : World F H}
    (within : (next (f now)).run.StaysWithin allowed begun now) :
    (Course.read f >>= next).run.StaysWithin allowed begun now := by
  exact within

/-- An action does nothing to the rule itself. -/
theorem runAction_within (spare : callbacks.Spare reach id) (action : ComponentRef)
    (arguments : Value) (world : World F H) :
    (runAction callbacks reach action arguments).run.StaysWithin (World.Spares id) world
      world := by
  rw [runAction]
  apply read_seq_within
  split
  · exact runDeed_within spare _ _ _ world
  · exact runDeed_within spare _ _ _ world
  · exact .refl id world

/-! ## Running the actions -/

/-- What is left of a call that runs the actions from a place on. -/
def onwards (callbacks : Callbacks F H) (reach : Reach F H) (id : Nat) (arguments : Value)
    (fuel place : Nat) : WorldCourse F H Bool := do
  runActionsFrom callbacks reach id arguments fuel place
  return true

/-- What is left of a call when an action has ended: the actions from a place on, unless it
was interrupted. -/
def afterAction (callbacks : Callbacks F H) (reach : Reach F H) (id : Nat) (arguments : Value)
    (fuel place : Nat) : Exit Unit → Activity (World F H) (Job F) (Exit Bool)
  | .ok _ => (onwards callbacks reach id arguments fuel place).run
  | .error interrupt => .done (.error interrupt)

theorem onwards_zero (callbacks : Callbacks F H) (reach : Reach F H) (id : Nat)
    (arguments : Value) (place : Nat) :
    (onwards callbacks reach id arguments 0 place).run =
      .get fun world =>
        match actionAt? id place world with
        | none => .done (.ok true)
        | some _ => .done (.error .endless) := by
  apply congrArg Activity.get
  funext world
  show Activity.bind (ExceptT.run (match actionAt? id place world with
    | none => return ()
    | some _ => throw Interrupt.endless)) _ = _
  split <;> rfl

theorem onwards_succ (callbacks : Callbacks F H) (reach : Reach F H) (id : Nat)
    (arguments : Value) (fuel place : Nat) :
    (onwards callbacks reach id arguments (fuel + 1) place).run =
      .get fun world =>
        match actionAt? id place world with
        | none => .done (.ok true)
        | some action =>
          (runAction callbacks reach action arguments).run.bind
            (afterAction callbacks reach id arguments fuel (place + 1)) := by
  apply congrArg Activity.get
  funext world
  show Activity.bind (ExceptT.run (match actionAt? id place world with
    | none => return ()
    | some action => do
      runAction callbacks reach action arguments
      runActionsFrom callbacks reach id arguments fuel (place + 1))) _ = _
  split
  · rfl
  · show Activity.bind (Activity.bind _ _) _ = _
    rw [Activity.bind_assoc]
    apply congrArg (Activity.bind _)
    funext ended
    cases ended with
    | error interrupt =>
        rfl
    | ok done =>
        rfl

/-- How far a call has come that runs the actions of a list, from a place in the rule on:
what happened, and what is left.  Each action begins when the one before has ended, and the
call waits where an action does.  An action that is interrupted ends the call; nothing of
what waits touches the rule itself. -/
inductive Underway (callbacks : Callbacks F H) (reach : Reach F H) (id : Nat)
    (arguments : Value) : Nat → Nat → List ComponentRef → List (Happening (World F H) (Job F)) →
      Activity (World F H) (Job F) (Exit Bool) → Prop where
  | ends {fuel place : Nat} (world : World F H) :
      Underway callbacks reach id arguments fuel place [] [.saw world] (.done (.ok true))
  | waits {fuel place : Nat} {action : ComponentRef} {rest : List ComponentRef}
      (world : World F H) {history : List (Happening (World F H) (Job F))} {on : Wait}
      {next : Exit Value → Activity (World F H) (Job F) (Exit Unit)}
      (reaches : (runAction callbacks reach action arguments).run.Reaches history (.wait on next))
      (spares : ∀ exit world, (next exit).StaysWithin (World.Spares id) world world) :
      Underway callbacks reach id arguments (fuel + 1) place (action :: rest)
        (.saw world :: history)
        (.wait on fun exit => (next exit).bind
          (afterAction callbacks reach id arguments fuel (place + 1)))
  | fails {fuel place : Nat} {action : ComponentRef} {rest : List ComponentRef}
      (world : World F H) {history : List (Happening (World F H) (Job F))}
      {interrupt : Interrupt}
      (reaches : (runAction callbacks reach action arguments).run.Reaches history
        (.done (.error interrupt))) :
      Underway callbacks reach id arguments (fuel + 1) place (action :: rest)
        (.saw world :: history) (.done (.error interrupt))
  | goesOn {fuel place : Nat} {action : ComponentRef} {rest : List ComponentRef}
      (world : World F H) {history later : List (Happening (World F H) (Job F))}
      {left : Activity (World F H) (Job F) (Exit Bool)}
      (reaches : (runAction callbacks reach action arguments).run.Reaches history
        (.done (.ok ())))
      (further : Underway callbacks reach id arguments fuel (place + 1) rest later left) :
      Underway callbacks reach id arguments (fuel + 1) place (action :: rest)
        (.saw world :: (history ++ later)) left

variable {built : Rule} {fired fuel place : Nat} {remaining : List ComponentRef}
  {world after : World F H} {history : List (Happening (World F H) (Job F))}
  {left : Activity (World F H) (Job F) (Exit Bool)}

theorem actionAt?_of_drop (stands : world.rules.HasFired id built fired)
    (rest : built.actions.drop place = remaining) :
    actionAt? id place world = remaining.head? := by
  rw [actionAt?]
  rcases stands.became with ⟨now, present, became⟩
  rw [present, Option.bind_some, became.actions, ← rest, List.head?_drop]

theorem drop_succ {action : ComponentRef} (rest : built.actions.drop place = action :: remaining) :
    built.actions.drop (place + 1) = remaining := by
  rw [← List.drop_drop, rest]
  rfl

/-- A call that goes on within an action is underway from there, if it is wherever the
actions behind it lead. -/
theorem action_piece {action : ComponentRef} (world : World F H)
    {activity : Activity (World F H) (Job F) (Exit Unit)} {now : World F H}
    {earlier : List (Happening (World F H) (Job F))}
    (reached : (runAction callbacks reach action arguments).run.Reaches earlier activity)
    (within : activity.StaysWithin (World.Spares id) now now)
    (behind : ∀ middle late, now.Spares id middle →
      (onwards callbacks reach id arguments fuel (place + 1)).run.Piece middle late left after →
      Underway callbacks reach id arguments fuel (place + 1) remaining late left ∧
        middle.Spares id after)
    (piece : (activity.bind (afterAction callbacks reach id arguments fuel (place + 1))).Piece now
      history left after) :
    Underway callbacks reach id arguments (fuel + 1) place (action :: remaining)
        (.saw world :: (earlier ++ history)) left ∧
      now.Spares id after := by
  rcases piece.of_bind with ⟨on, next, first, rfl⟩ |
    ⟨early, ended, middle, late, first, second, rfl⟩
  · rcases within.piece (World.Spares.refl id) (fun _ _ _ => World.Spares.trans) first with
      ⟨spares, remains⟩
    exact ⟨.waits world (reached.trans first.reaches) (remains on next rfl), spares⟩
  · rcases within.piece (World.Spares.refl id) (fun _ _ _ => World.Spares.trans) first with
      ⟨spares, -⟩
    rw [← List.append_assoc]
    rcases ended with interrupt | done
    · rcases second.of_done with ⟨rfl, rfl, rfl⟩
      rw [List.append_nil]
      exact ⟨.fails world (reached.trans first.reaches), spares⟩
    · rcases behind middle late spares second with ⟨further, sparesToo⟩
      exact ⟨.goesOn world (reached.trans first.reaches) further, spares.trans sparesToo⟩

/-- A call that comes to a place of the rule's actions runs the actions from there on. -/
theorem onwards_piece (spare : callbacks.Spare reach id)
    (stands : world.rules.HasFired id built fired) (long : remaining.length ≤ fuel)
    (rest : built.actions.drop place = remaining)
    (piece : (onwards callbacks reach id arguments fuel place).run.Piece world history left
      after) :
    Underway callbacks reach id arguments fuel place remaining history left ∧
      world.Spares id after := by
  induction remaining generalizing fuel place world history with
  | nil =>
      cases fuel
      all_goals
        first | rw [onwards_zero] at piece | rw [onwards_succ] at piece
        rcases piece.of_get with ⟨history, rfl, goesOn⟩
        rw [actionAt?_of_drop stands rest] at goesOn
        rcases goesOn.of_done with ⟨rfl, rfl, rfl⟩
        exact ⟨.ends _, .refl id _⟩
  | cons action remaining ih =>
      rcases Nat.exists_eq_add_one.2 (Nat.zero_lt_of_lt long) with ⟨fuel, rfl⟩
      rw [onwards_succ] at piece
      rcases piece.of_get with ⟨history, rfl, goesOn⟩
      rw [actionAt?_of_drop stands rest] at goesOn
      apply action_piece world .here (runAction_within spare action arguments world) _ goesOn
      intro middle late spares further
      exact ih (stands.spared spares) (by simpa using long) (drop_succ rest) further

/-- A call that is resumed goes on from where it waited. -/
theorem Underway.resume (spare : callbacks.Spare reach id)
    {on : Wait} {next : Exit Value → Activity (World F H) (Job F) (Exit Bool)}
    {further : List (Happening (World F H) (Job F))}
    (underway : Underway callbacks reach id arguments fuel place remaining history
      (.wait on next))
    (stands : world.rules.HasFired id built fired) (long : remaining.length ≤ fuel)
    (rest : built.actions.drop place = remaining) (answer : Exit Value)
    (piece : (next answer).Piece world further left after) :
    Underway callbacks reach id arguments fuel place remaining
        (history ++ .waited on answer :: further) left ∧
      world.Spares id after := by
  generalize waits : Activity.wait on next = stop at underway
  induction underway with
  | ends | fails =>
      cases waits
  | waits earlier reaches spares =>
      cases waits
      have reached := reaches.trans (.step (.wait answer) .here)
      rw [List.cons_append, List.append_cons]
      apply action_piece earlier reached (spares answer world) _ piece
      intro middle late spares further
      exact onwards_piece spare (stands.spared spares) (by simpa using long) (drop_succ rest)
        further
  | goesOn earlier reaches _ ih =>
      rcases ih (by simpa using long) (drop_succ rest) waits with ⟨whole, spares⟩
      refine ⟨?_, spares⟩
      rw [List.cons_append, List.append_assoc]
      exact .goesOn earlier reaches whole

/-! ## Calls -/

/-- A call that fires a rule: its arguments, what happened in it, and what is left of it. -/
structure Call (F H : Type) where
  arguments : Value
  history : List (Happening (World F H) (Job F))
  left : Activity (World F H) (Job F) (Exit Bool)

/-- Whether conditions let a call pass, in the world that it found when it began. -/
def Call.passes (callbacks : Callbacks F H) (conditions : List ComponentRef)
    (call : Call F H) : Bool :=
  match call.history.head? with
  | some (.saw world) => World.passes callbacks call.arguments conditions world
  | _ => false

/-- A call runs the actions of a rule, in order and from the first on.  Before that it has
tested the conditions and settled the lifetime: by then the rule is destroyed unless it
`lasts`. -/
inductive Call.Runs (callbacks : Callbacks F H) (reach : Reach F H) (id : Nat) (built : Rule)
    (lasts : Bool) : Call F H → Prop where
  | mk {arguments : Value} {seen settled : World F H}
      {later : List (Happening (World F H) (Job F))}
      {left : Activity (World F H) (Job F) (Exit Bool)}
      (remains : (settled.rules.rule? id).map (·.destroyed) = some !lasts)
      (underway : Underway callbacks reach id arguments (built.actions.length + callbacks.patience) 0
        built.actions later left) :
      Runs callbacks reach id built lasts
        ⟨arguments, .saw seen :: .left settled :: .saw settled :: later, left⟩

/-- A call runs no action: it was over when the conditions were tested.  The answer is that
no action ran, unless a condition failed. -/
inductive Call.Refuses (callbacks : Callbacks F H) (conditions : List ComponentRef) :
    Call F H → Prop where
  | answers {arguments : Value} {seen tested : World F H} :
      Refuses callbacks conditions ⟨arguments, [.saw seen, .left tested], .done (.ok false)⟩
  | fails {arguments : Value} {seen tested : World F H} {failure : Failure}
      (failed : (World.allHold callbacks arguments conditions seen).1 = .error failure) :
      Refuses callbacks conditions
        ⟨arguments, [.saw seen, .left tested], .done (.error (.failed failure))⟩

/-- What a call does of which it is known how many calls before it were let pass by the
conditions. -/
def Call.Obeys (callbacks : Callbacks F H) (reach : Reach F H) (id : Nat) (built : Rule)
    (earlier : Nat) (call : Call F H) : Prop :=
  if call.passes callbacks built.conditions && Lifetime.lasts built.lifetime earlier then
    call.Runs callbacks reach id built (Lifetime.lasts built.lifetime (earlier + 1))
  else call.Refuses callbacks built.conditions

/-- How a call goes on when it is decided whether it runs the actions. -/
def ensue (callbacks : Callbacks F H) (reach : Reach F H) (id : Nat) (arguments : Value) :
    Except Failure Bool → Activity (World F H) (Job F) (Exit Bool)
  | .ok true => .get fun world =>
    (onwards callbacks reach id arguments
      (((world.rules.rule? id).map (·.actions.length)).getD 0 + callbacks.patience) 0).run
  | .ok false => .done (.ok false)
  | .error failure => .done (.error (.failed failure))

theorem fireRule_eq (callbacks : Callbacks F H) (reach : Reach F H) (id : Nat)
    (arguments : Value) :
    (fireRule callbacks reach id arguments).run =
      .get fun world => .put (World.begin callbacks id arguments world).2
        (ensue callbacks reach id arguments (World.begin callbacks id arguments world).1) := by
  apply congrArg Activity.get
  ext world
  show Activity.put (World.begin callbacks id arguments world).2
    (Activity.bind
      (.done ((World.begin callbacks id arguments world).1.mapError Interrupt.failed)) _) = _
  cases (World.begin callbacks id arguments world).1 with
  | error failure =>
      rfl
  | ok fires =>
      cases fires with
      | false =>
          rfl
      | true =>
          rfl

/-- The first piece of a call decides what becomes of it. -/
theorem fireRule_piece (spare : callbacks.Spare reach id)
    (stands : world.rules.HasFired id built fired)
    (piece : (fireRule callbacks reach id arguments).run.Piece world history left after) :
    ∃ rest, history = .saw world :: rest ∧
      Call.Obeys callbacks reach id built fired ⟨arguments, history, left⟩ ∧
      after.rules.HasFired id built
        (if World.passes callbacks arguments built.conditions world then fired + 1 else fired) := by
  rw [fireRule_eq] at piece
  rcases piece.of_get with ⟨_, rfl, putting⟩
  rcases putting.of_put with ⟨later, rfl, ensuing⟩
  refine ⟨_, rfl, ?_⟩
  have passes : Call.passes callbacks built.conditions
      ⟨arguments, .saw world :: .left (World.begin callbacks id arguments world).2 :: later, left⟩ =
        World.passes callbacks arguments built.conditions world := rfl
  simp only [Call.Obeys, passes]
  cases lasts : Lifetime.lasts built.lifetime fired with
  | false =>
      rw [World.begin_of_gone stands lasts] at ensuing
      rcases ensuing.of_done with ⟨rfl, rfl, rfl⟩
      simp only [Bool.and_false, Bool.false_eq_true, if_false]
      constructor
      · exact .answers
      · split
        · exact stands.succ_of_gone lasts
        · exact stands
  | true =>
      rw [(World.begin_of_lasts spare stands lasts).1] at ensuing
      have fires : (World.begin callbacks id arguments world).2.rules.HasFired id built
          (if World.passes callbacks arguments built.conditions world then fired + 1
          else fired) := (World.begin_of_lasts spare stands lasts).2
      simp only [Bool.and_true]
      cases held : World.passes callbacks arguments built.conditions world with
      | false =>
          simp only [held, Bool.false_eq_true, if_false] at fires ⊢
          rcases verdict : (World.allHold callbacks arguments built.conditions world).1 with
            failure | _ | _
          · rw [verdict] at ensuing
            rcases ensuing.of_done with ⟨rfl, rfl, rfl⟩
            exact ⟨.fails verdict, fires⟩
          · rw [verdict] at ensuing
            rcases ensuing.of_done with ⟨rfl, rfl, rfl⟩
            exact ⟨.answers, fires⟩
          · rw [World.passes, verdict] at held
            cases held
      | true =>
          simp only [held, if_true] at fires ⊢
          rw [World.passes_eq_true_iff.1 held] at ensuing
          rcases ensuing.of_get with ⟨later, rfl, running⟩
          rw [fires.length_actions] at running
          rcases onwards_piece spare fires (Nat.le_add_right built.actions.length _) rfl running with
            ⟨underway, spares⟩
          exact ⟨.mk fires.destroyed underway, fires.spared spares⟩

/-! ## Interleavings -/

/-- Some calls that fire a rule, in the order in which they began, and the world when some
pieces of them have run, in any order.  Between two pieces the others make what they like
of the world, but not of the rule. -/
inductive Interleaving (callbacks : Callbacks F H) (reach : Reach F H) (id : Nat)
    (start : World F H) : List (Call F H) → World F H → Prop where
  | start : Interleaving callbacks reach id start [] start
  /-- Another call begins, and runs to its first wait. -/
  | fire {calls : List (Call F H)} {world after : World F H}
      {history : List (Happening (World F H) (Job F))}
      {left : Activity (World F H) (Job F) (Exit Bool)}
      (run : Interleaving callbacks reach id start calls world) (arguments : Value)
      (piece : (fireRule callbacks reach id arguments).run.Piece world history left after) :
      Interleaving callbacks reach id start (calls ++ [⟨arguments, history, left⟩]) after
  /-- A call that waits is answered, and runs to its next wait. -/
  | resume {calls : List (Call F H)} {world after : World F H} {number : Nat} {call : Call F H}
      {on : Wait} {next : Exit Value → Activity (World F H) (Job F) (Exit Bool)}
      {further : List (Happening (World F H) (Job F))}
      {left : Activity (World F H) (Job F) (Exit Bool)}
      (run : Interleaving callbacks reach id start calls world)
      (found : calls[number]? = some call) (waits : call.left = .wait on next)
      (answer : Exit Value) (piece : (next answer).Piece world further left after) :
      Interleaving callbacks reach id start
        (calls.set number
          ⟨call.arguments, call.history ++ .waited on answer :: further, left⟩) after
  /-- The others go on. -/
  | meanwhile {calls : List (Call F H)} {world after : World F H}
      (run : Interleaving callbacks reach id start calls world)
      (spares : world.Spares id after) : Interleaving callbacks reach id start calls after

/-- How many of some calls were let pass by the conditions. -/
def passed (callbacks : Callbacks F H) (conditions : List ComponentRef)
    (calls : List (Call F H)) : Nat :=
  calls.countP (·.passes callbacks conditions)

theorem passed_append (conditions : List ComponentRef) (calls others : List (Call F H)) :
    passed callbacks conditions (calls ++ others) =
      passed callbacks conditions calls + passed callbacks conditions others := by
  exact List.countP_append

/-- A call that has begun counts as before, whatever becomes of it. -/
theorem passed_take_set {conditions : List ComponentRef} {calls : List (Call F H)}
    {number : Nat} {call other : Call F H} (found : calls[number]? = some call)
    (same : other.passes callbacks conditions = call.passes callbacks conditions)
    (bound : Nat) :
    passed callbacks conditions ((calls.set number other).take bound) =
      passed callbacks conditions (calls.take bound) := by
  rcases List.getElem?_eq_some_iff.1 found with ⟨inside, rfl⟩
  have marks : (calls.set number other).map (Call.passes callbacks conditions) =
      calls.map (Call.passes callbacks conditions) := by
    rw [List.map_set, same, ← List.getElem_map (Call.passes callbacks conditions)]
    · exact List.set_getElem_self _
    · simpa using inside
  have counts (others : List (Call F H)) : passed callbacks conditions others =
      (others.map (Call.passes callbacks conditions)).countP id := by
    rw [List.countP_map]
    rfl
  rw [counts, counts, List.map_take, List.map_take, marks]

/-- A call that waits runs the actions, and so does what becomes of it. -/
theorem Call.Obeys.resume (spare : callbacks.Spare reach id) {call : Call F H}
    (stands : world.rules.HasFired id built fired) {earlier : Nat}
    (obeys : call.Obeys callbacks reach id built earlier) {on : Wait}
    {next : Exit Value → Activity (World F H) (Job F) (Exit Bool)}
    {further : List (Happening (World F H) (Job F))} (waits : call.left = .wait on next)
    (answer : Exit Value) (piece : (next answer).Piece world further left after) :
    let resumed : Call F H :=
      ⟨call.arguments, call.history ++ .waited on answer :: further, left⟩
    resumed.Obeys callbacks reach id built earlier ∧
      resumed.passes callbacks built.conditions = call.passes callbacks built.conditions ∧
      world.Spares id after := by
  intro resumed
  rw [Call.Obeys] at obeys
  split at obeys
  · rename_i starts
    cases obeys with
    | mk remains underway =>
        subst waits
        rcases underway.resume spare stands (Nat.le_add_right built.actions.length _) rfl answer piece with
          ⟨goesOn, spares⟩
        have again : (resumed.passes callbacks built.conditions &&
            Lifetime.lasts built.lifetime earlier) = true := starts
        refine ⟨?_, rfl, spares⟩
        rw [Call.Obeys, if_pos again]
        exact .mk remains goesOn
  · cases obeys with
    | answers | fails =>
        cases waits

/-- All calls do what they have to, and the rule is as old as the calls that passed. -/
structure Orderly (callbacks : Callbacks F H) (reach : Reach F H) (id : Nat) (built : Rule)
    (calls : List (Call F H)) (world : World F H) : Prop where
  obeys : ∀ number (call : Call F H), calls[number]? = some call →
    call.Obeys callbacks reach id built (passed callbacks built.conditions (calls.take number))
  stands : world.rules.HasFired id built (passed callbacks built.conditions calls)

namespace Orderly

variable {calls : List (Call F H)}

theorem fire (spare : callbacks.Spare reach id)
    (orderly : Orderly callbacks reach id built calls world)
    (piece : (fireRule callbacks reach id arguments).run.Piece world history left after) :
    Orderly callbacks reach id built (calls ++ [⟨arguments, history, left⟩]) after := by
  rcases fireRule_piece spare orderly.stands piece with ⟨rest, rfl, obeys, stands⟩
  constructor
  · intro number call found
    rw [List.getElem?_append] at found
    split at found
    · rename_i old
      rw [List.take_append_of_le_length (Nat.le_of_lt old)]
      exact orderly.obeys number call found
    · rename_i young
      rw [List.getElem?_singleton] at found
      split at found
      · rename_i last
        have here : number = calls.length := by omega
        cases found
        rw [here, List.take_left]
        exact obeys
      · cases found
  · have counts : passed callbacks built.conditions [⟨arguments, .saw world :: rest, left⟩] =
        if World.passes callbacks arguments built.conditions world then 1 else 0 := by
      exact List.countP_singleton
    rw [passed_append, counts]
    split
    · rename_i held
      rw [if_pos held] at stands
      exact stands
    · rename_i refused
      rw [if_neg refused] at stands
      exact stands

theorem resume (spare : callbacks.Spare reach id)
    (orderly : Orderly callbacks reach id built calls world) {number : Nat} {call : Call F H}
    {on : Wait} {next : Exit Value → Activity (World F H) (Job F) (Exit Bool)}
    {further : List (Happening (World F H) (Job F))}
    (found : calls[number]? = some call) (waits : call.left = .wait on next)
    (answer : Exit Value) (piece : (next answer).Piece world further left after) :
    Orderly callbacks reach id built
      (calls.set number
        ⟨call.arguments, call.history ++ .waited on answer :: further, left⟩) after := by
  rcases (orderly.obeys number call found).resume spare orderly.stands waits answer piece with
    ⟨obeys, same, spares⟩
  have counts := passed_take_set found same
  constructor
  · intro other others present
    rw [counts]
    rw [List.getElem?_set] at present
    split at present
    · rename_i here
      subst here
      split at present
      · cases present
        exact obeys
      · cases present
    · exact orderly.obeys other others present
  · have whole := counts calls.length
    rw [List.take_of_length_le (by simp), List.take_length] at whole
    rw [whole]
    exact orderly.stands.spared spares

theorem meanwhile (orderly : Orderly callbacks reach id built calls world)
    (spares : world.Spares id after) : Orderly callbacks reach id built calls after where
  obeys := orderly.obeys
  stands := orderly.stands.spared spares

end Orderly

/-- Lifetimes hold however calls are interleaved.  Of all calls that the conditions let
pass, those run the actions that come while the rule lasts: the first one if it has no
lifetime or fires once, the first so many if it is used up, and all of them if it fires
for ever.  Such a call has settled the lifetime before any action began, so the rule is
destroyed by the last one of them; it runs the actions in order, each when the one before
has ended, and none after one that was interrupted.  Every other call runs no action. -/
theorem Interleaving.keeps_lifetime {start : World F H} {calls : List (Call F H)}
    (spare : callbacks.Spare reach id) (present : start.rules.rule? id = some built)
    (lives : built.destroyed = false) (leaves : start.rules.CanLeave built)
    (run : Interleaving callbacks reach id start calls world) :
    (∀ number (call : Call F H), calls[number]? = some call →
      call.Obeys callbacks reach id built
        (passed callbacks built.conditions (calls.take number))) ∧
      (world.rules.rule? id).map (·.destroyed) =
        some !Lifetime.lasts built.lifetime (passed callbacks built.conditions calls) := by
  have orderly : Orderly callbacks reach id built calls world := by
    induction run with
    | start =>
        constructor
        · intro number call found
          cases found
        · exact .fresh present lives leaves
    | fire _ arguments piece ih =>
        exact ih.fire spare piece
    | resume _ found waits answer piece ih =>
        exact ih.resume spare found waits answer piece
    | meanwhile _ spares ih =>
        exact ih.meanwhile spares
  exact ⟨orderly.obeys, orderly.stands.destroyed⟩

end Steward.Firing

namespace Steward.Doorbell

/-- Ringing takes a while. -/
def callbacks : Callbacks String Unit where
  parser _ scan world := (.bare .null, scan.reader, world)
  lookup _ := return .null
  written _ := none
  assertion _ _ world := (.ok none, world)
  execute _ invocation := .done (.ok .nothing, invocation)
  goesOn _ := false
  listen _ _ _ := return .null
  observe _ _ world := (.ok (), world)
  mapper _ arguments := .ok (.tuple arguments)
  test _ _ _ world := (.ok (.bool true), world)
  act _ _ _ _ := do
    Course.turn
    return .null
  told _ _ _ world := world
  subscriptions _ := []
  hook _ _ _ _ world := (.ok (), world)
  handle _ _ _ := return ()

def reach : Reach String Unit where
  publish publication := return publication
  trigger _ _ := return false

/-- A rule that rings twice, once. -/
def rule : Rule :=
  { Rule.new 0 1 with
    lifetime := some .once, trigger := some 0, conditions := [some 1], actions := [some 2, some 2],
    enabled := true }

def world : World String Unit :=
  { World.new () .standard [] with
    rules := {
      components := [.eventTrigger "door" "visit" none [0], .condition none (.custom "awake"),
        .action none (.custom "ring")]
      rules := [rule]
      books := [{ RuleStore.emptyBook none with rules := OrderedMap.empty.insert 1 0 }] } }

theorem spare : callbacks.Spare reach 0 where
  test _ _ _ world := .refl 0 world
  told _ _ _ world := .refl 0 world
  act _ _ _ world := by
    constructor
    · exact .refl 0 world
    · rintro (interrupt | value) after
      · exact .refl 0 after
      · exact .refl 0 after

/-- The world when a visitor has rung. -/
def rung : World String Unit :=
  (World.begin callbacks 0 (.text "visitor") world).2

/-- A visitor rings, and another one while the bell still rings for the first one. -/
theorem visitors_ring :
    ∃ first second, Firing.Interleaving callbacks reach 0 world [first, second] rung ∧
      first.passes callbacks rule.conditions = true ∧
      second.passes callbacks rule.conditions = true := by
  have silence : Firing.Interleaving callbacks reach 0 world [] world := .start
  have early := silence.fire (.text "visitor")
    ⟨.step (.get world) (.step .put (.step (.get rung) (.step (.get rung) (.step (.get rung)
      .here)))), trivial, rfl, rfl, rfl, rfl, rfl⟩
  have late := early.fire (.text "other")
    ⟨.step (.get rung) (.step .put .here), trivial, rfl, rfl⟩
  have again := late.resume (show _[0]? = _ from rfl) rfl (.ok .null)
    ⟨.step (.get rung) (.step (.get rung) .here), trivial, rfl, rfl, rfl⟩
  exact ⟨_, _, again, rfl, rfl⟩

theorem rule_leaves : world.rules.CanLeave rule := by
  intro _
  exact ⟨_, .single rfl trivial, .single rfl⟩

/-- The bell rings for the first visitor only. -/
theorem rings_once :
    ∃ first second, Firing.Interleaving callbacks reach 0 world [first, second] rung ∧
      first.Runs callbacks reach 0 rule false ∧ second.Refuses callbacks rule.conditions ∧
      (rung.rules.rule? 0).map (·.destroyed) = some true := by
  rcases visitors_ring with ⟨first, second, run, firstPasses, secondPasses⟩
  rcases Firing.Interleaving.keeps_lifetime spare rfl rfl rule_leaves run with ⟨obeys, gone⟩
  have early := obeys 0 first rfl
  have late := obeys 1 second rfl
  have one : Firing.passed callbacks rule.conditions [first] = 1 := by
    simp [Firing.passed, firstPasses]
  have two : Firing.passed callbacks rule.conditions [first, second] = 2 := by
    simp [Firing.passed, firstPasses, secondPasses]
  refine ⟨first, second, run, ?_, ?_, ?_⟩
  · rw [Firing.Call.Obeys, firstPasses] at early
    exact early
  · rw [Firing.Call.Obeys, secondPasses, List.take_one, List.head?_cons] at late
    rw [show Firing.passed callbacks rule.conditions (some first).toList = 1 from one] at late
    exact late
  · rw [two] at gone
    exact gone

end Steward.Doorbell
