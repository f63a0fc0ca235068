import Steward.Proofs.Parse.Forsaking

/-!
# The lifetime of a result

A loop that starts with an empty chain goes on by itself, and next to it somebody from outside
begins a task from time to time, which may begin results, chain functions onto them, wait for them
and cancel them.  Whatever is done so, each result is blank until it is settled, is settled at once
and at most once, and never if it was cancelled before.
-/

namespace Steward

variable {F : Type}

namespace Chain

/-- A loop with an empty chain and some futures, which anybody may keep. -/
def atStart (F : Type) : Nat → Loop Chain (ChainJob F)
  | 0 => .start empty
  | futures + 1 => (atStart F futures).addPromise.2

theorem atStart_state (futures : Nat) : (atStart F futures).state = empty := by
  induction futures with
  | zero =>
      rfl
  | succ futures ih =>
      exact ih

theorem atStart_tasks (futures : Nat) :
    (atStart F futures).tasks = List.replicate futures .open := by
  induction futures with
  | zero =>
      rfl
  | succ futures ih =>
      rw [List.replicate_succ', ← ih]
      rfl

theorem coherent_atStart (futures : Nat) : (atStart F futures).Coherent none := by
  induction futures with
  | zero =>
      exact Loop.Coherent.start empty
  | succ futures ih =>
      exact ih.addPromise.coherent

theorem isOrderly_atStart (cancels : Prop) (futures : Nat) :
    (atStart F futures).IsOrderly cancels := by
  induction futures with
  | zero =>
      exact .start empty
  | succ futures ih =>
      exact ih.addPromise

/-- Do something with a chain, and that is all. -/
def alone {α : Type} (course : ChainedCourse F α) : Activity Chain (ChainJob F) (Exit Value) :=
  course.run.bind fun _ => .done (.ok .null)

/-- Cancel a result. -/
def cancelling (number : Nat) : Activity Chain (ChainJob F) (Exit Value) :=
  alone (Chain.cancel number)

end Chain

namespace Outlook

/-- The outlook on a chain without results. -/
def ofEmpty : Outlook F := ⟨Chain.empty, [], none, none⟩

theorem sound_ofEmpty (terms : Terms F) : (ofEmpty : Outlook F).Sound terms where
  jobs := rfl
  blank _ _ absurdity := nomatch absurdity
  begun _ _ _ absurdity := nomatch absurdity
  given _ _ absurdity := nomatch absurdity
  bases _ _ _ _ absurdity := nomatch absurdity
  proper _ _ absurdity := nomatch absurdity
  fulfils _ _ _ absurdity := nomatch absurdity
  called _ _ absurdity := nomatch absurdity
  distinct _ _ _ _ _ absurdity := nomatch absurdity
  owed _ _ absurdity := nomatch absurdity

end Outlook

section

variable [DecidableEq F] {terms : Terms F} {forecast : Forecast F} {lost : TaskId → Prop}
  {callbacks : ChainCallbacks F} {loop before after : Loop Chain (ChainJob F)}
  {outlook : Outlook F} {number : Nat} {link : Link}

namespace Loop

/-- What somebody from outside may do next to a chain: it keeps to what is agreed, by whatever
jobs the results have been begun. -/
def Admits (terms : Terms F) (loop : Loop Chain (ChainJob F))
    (body : Activity Chain (ChainJob F) (Exit Value)) : Prop :=
  ∀ outlook : Outlook F, outlook.chain = loop.state → outlook.Sound terms → outlook.owed = none →
    body.Tame terms loop.tasks.length
      (fun _ after exit => after.owed = none ∧ Exit.IsFair terms.cancels exit)
      .outside outlook

theorem admits_alone {α : Type} {course : ChainedCourse F α}
    (tame : ∀ outlook : Outlook F, outlook.chain = loop.state → outlook.Sound terms →
      outlook.owed = none → course.run.Tame terms loop.tasks.length
        (fun _ after _ => after.owed = none) .outside outlook) :
    loop.Admits terms (Chain.alone course) := by
  intro outlook same sound free
  apply (tame outlook same sound free).bind
  intro _ _ after nothing
  exact ⟨nothing, Exit.isFair_ok _ .null⟩

/-- Anybody may begin a result by work that has to be awaited. -/
theorem admits_pending (name : F) :
    loop.Admits terms (Chain.alone (Chain.pending fun number => .work number name)) := by
  apply admits_alone
  intro outlook same sound free
  have may : outlook.MayBegin terms loop.tasks.length (.work outlook.size name) :=
    ⟨free, rfl, trivial, False.elim⟩
  exact Chain.tame_pending may fun _ _ => rfl

/-- Anybody may chain a function onto a result, unless it is watched. -/
theorem admits_use (abide : callbacks.Abide terms) (has : loop.state.links[number]? = some link)
    {function : F} (unwatched : terms.watched ≠ some function) :
    loop.Admits terms (Chain.alone (Chain.use (callbacks.noting terms) number function)) := by
  apply admits_alone
  intro outlook same sound free
  rw [← same] at has
  apply Chain.tame_use abide sound free has fun watched => absurd watched unwatched
  · exact fun _ _ _ => rfl
  · exact fun _ _ => free
  · exact fun _ _ _ _ _ _ nothing _ _ => nothing

/-- Anybody may cancel a result. -/
theorem admits_cancelling (cancels : terms.cancels) (number : Nat) :
    loop.Admits terms (Chain.cancelling number) := by
  apply admits_alone
  intro outlook same sound free
  exact Chain.tame_cancel cancels free

/-- How a loop with a chain goes on: by itself, or somebody from outside begins a task. -/
inductive Moves (terms : Terms F) (callbacks : ChainCallbacks F)
    (before : Loop Chain (ChainJob F)) : Loop Chain (ChainJob F) → Prop where
  | steps {after : Loop Chain (ChainJob F)}
      (steps : before.step (Chain.runJob (callbacks.noting terms)) = some after) :
      Moves terms callbacks before after
  | begins {body : Activity Chain (ChainJob F) (Exit Value)} (admits : before.Admits terms body) :
      Moves terms callbacks before
        (before.launch (Chain.runJob (callbacks.noting terms)) body).2

/-- A task of a loop with a chain has its turn: it is scheduled to go on, or somebody from outside
begins it. -/
inductive Opens (terms : Terms F) (before : Loop Chain (ChainJob F)) :
    Turn Chain (ChainJob F) → Prop where
  | resumes {actor : TaskId} {answer : Exit Value}
      {next : Exit Value → Activity Chain (ChainJob F) (Exit Value)}
      {rest : List (Item (ChainJob F))} (round : before.round = .resume actor :: rest)
      (found : before.tasks[actor]? = some (.ready answer next)) :
      Opens terms before ⟨rouse { before with round := rest } actor next, actor, next answer⟩
  | begins {body : Activity Chain (ChainJob F) (Exit Value)} (admits : before.Admits terms body) :
      Opens terms before
        ⟨{ before with tasks := before.tasks ++ [.ready (.ok .null) fun _ => body] },
          before.tasks.length, body⟩

/-- When the turn of a task is over, the loop has gone on. -/
theorem Opens.moves {turn : Turn Chain (ChainJob F)} (opens : before.Opens terms turn) :
    before.Moves terms callbacks (turn.result (Chain.runJob (callbacks.noting terms))) := by
  cases opens with
  | @resumes actor answer next rest round found =>
      apply Moves.steps
      rw [step, round]
      simp only [runItem, found]
      rfl
  | begins admits =>
      exact .begins admits

/-- A loop comes to another one. -/
def Becomes (terms : Terms F) (callbacks : ChainCallbacks F) :
    Loop Chain (ChainJob F) → Loop Chain (ChainJob F) → Prop :=
  Relation.ReflTransGen (Moves terms callbacks)

namespace Tends

theorem atStart (terms : Terms F) :
    (Chain.atStart F terms.futures).Tends terms (.plain F) none none .ofEmpty where
  coherent := Chain.coherent_atStart _
  covers _ absurdity := nomatch absurdity
  apart _ absurdity := nomatch absurdity
  state := Chain.atStart_state _
  sound := Outlook.sound_ofEmpty terms
  balanced := rfl
  unknown _ _ _ _ := trivial
  orderly := Chain.isOrderly_atStart _ _
  futures := by
    rw [Chain.atStart_tasks, List.length_replicate]
  future := by
    intro task low
    rw [Chain.atStart_tasks]
    exact .inl (List.getElem?_replicate_of_lt low)
  assigned := by
    rintro task job link (⟨_, absurdity, -⟩ | ⟨absurdity, -⟩)
    · cases absurdity
    · cases absurdity
  anyhow _ _ _ _ _ _ := trivial
  serves := by
    rintro task job link (⟨_, absurdity, -⟩ | ⟨absurdity, -⟩)
    · cases absurdity
    · cases absurdity
  bystands := by
    intro task status found _ _
    have there := found
    rw [Chain.atStart_tasks] at there
    rw [List.eq_of_mem_replicate (List.mem_of_getElem? there)] at found
    exact .open found fun _ _ => trivial
  lost _ isLost := isLost.elim

/-- Whoever is admitted is a bystander. -/
theorem tame_of_admits (tends : loop.Tends terms forecast none none outlook)
    (free : outlook.owed = none) {body : Activity Chain (ChainJob F) (Exit Value)}
    (admits : loop.Admits terms body) :
    body.Tame terms loop.tasks.length (Outlook.Bystander terms forecast loop.tasks.length)
      .outside outlook := by
  apply (admits outlook tends.state.symm tends.sound free).mono
  intro _ last exit agreed
  have absent : loop.tasks[loop.tasks.length]? = none := List.getElem?_eq_none (Nat.le_refl _)
  exact ⟨agreed.1, agreed.2, fun ended _ _ => tends.unknown _ last ended absent⟩

theorem moves (abide : callbacks.Abide terms)
    (tends : before.Tends terms forecast none none outlook) (free : outlook.owed = none)
    (moves : before.Moves terms callbacks after) :
    ∃ later, after.Tends terms forecast none none later ∧ later.owed = none ∧
      outlook.Grows later := by
  cases moves with
  | steps steps =>
      exact tends.step abide free steps
  | begins admits =>
      exact (tends.plays_of_begin (tends.tame_of_admits free admits)).result abide

theorem becomes (abide : callbacks.Abide terms)
    (tends : before.Tends terms forecast none none outlook) (free : outlook.owed = none)
    (becomes : before.Becomes terms callbacks after) :
    ∃ later, after.Tends terms forecast none none later ∧ later.owed = none ∧
      outlook.Grows later := by
  induction becomes with
  | refl =>
      exact ⟨outlook, tends, free, .refl outlook⟩
  | tail _ last ih =>
      rcases ih with ⟨middle, tends', free', grows⟩
      rcases tends'.moves abide free' last with ⟨later, tends'', free'', more⟩
      exact ⟨later, tends'', free'', grows.trans more⟩

/-- Whoever has its turn plays. -/
theorem opens (tends : loop.Tends terms forecast none none outlook) (free : outlook.owed = none)
    {turn : Turn Chain (ChainJob F)} (opens : loop.Opens terms turn) :
    Plays terms forecast outlook turn := by
  cases opens with
  | resumes round found =>
      exact tends.plays_of_resume free round found
  | begins admits =>
      exact tends.plays_of_begin (tends.tame_of_admits free admits)

/-- A result whose task is lost stays pending. -/
theorem pending_of_lost (tends : loop.Tends terms forecast none none outlook) {task : TaskId}
    (isLost : forecast.lost task) (has : outlook.Has number link) (begun : link.task = some task) :
    link.completed = false := by
  rcases tends.sound.exists_job_of_task has begun with ⟨job, found⟩
  cases tends.serves task job link (.inl ⟨number, has, begun, found⟩) nofun with
  | works pending | cancelled pending =>
      exact pending
  | settled _ _ kept =>
      exact absurd isLost kept

end Tends

/-- Each result is blank until it is settled, and is settled at once and at most once, as a value
or as one failure.  If the task of a pending result is cancelled by whoever has its turn, the result
is never settled and no function that is chained onto it is ever called, unless it is the turn of
that task itself and the task ends in it.  It ends as cancelled then. -/
theorem Becomes.settles_once (abide : callbacks.Abide terms)
    (reached : (Chain.atStart F terms.futures).Becomes terms callbacks loop) :
    (∀ (number : Nat) (link : Link), loop.state.links[number]? = some link →
      (link.completed = false → link.toSettlement = .success .null) ∧
        link.toSettlement.IsProper) ∧
      (∀ after, loop.Moves terms callbacks after →
        ∀ (number : Nat) (link : Link), loop.state.links[number]? = some link →
          ∃ later, after.state.links[number]? = some later ∧ link.Becomes later) ∧
      ∀ turn moment : Turn Chain (ChainJob F), loop.Opens terms turn →
        turn.Passes (Chain.runJob (callbacks.noting terms)) moment →
        ∀ task next, moment.left = .cancel task next →
        ∀ (number : Nat) (link : Link), moment.loop.state.links[number]? = some link →
          link.task = some task → link.completed = false →
          ∀ final, final = moment.result (Chain.runJob (callbacks.noting terms)) →
            (∀ exit, task = moment.task → final.exit? task = some exit →
              exit = .error .cancelled) ∧
            ((task = moment.task → final.exit? task = none) →
              ∀ after, final.Becomes terms callbacks after →
                (∃ later : Link, after.state.links[number]? = some later ∧
                  later.completed = false) ∧
                ∀ function, (function, number) ∉ terms.calls after.state.journal) := by
  rcases (Tends.atStart terms).becomes abide rfl reached with
    ⟨outlook, tends, free, -⟩
  rw [tends.state]
  refine ⟨?_, ?_, ?_⟩
  · intro number link has
    exact ⟨tends.sound.blank number link has, tends.sound.proper number link has⟩
  · intro after moves number link has
    rcases tends.moves abide free moves with ⟨later, tends', -, grows⟩
    rw [tends'.state]
    exact grows.links number link has
  · rintro turn moment opens passes task next left number link there begun pending _ rfl
    rcases (tends.opens free opens).passes abide passes left with ⟨amid, plays, -⟩
    have has : amid.Has number link := by
      rw [plays.state] at there
      exact there
    rcases plays.sound.exists_job_of_task has begun with ⟨job, found⟩
    rcases plays.cancels abide left (.inl ⟨number, has, begun, found⟩) pending with
      ⟨lost, later, tends', free', grows, isLost | ⟨own, ended⟩⟩
    · refine ⟨fun exit _ isOver => tends'.exit_of_lost tends'.coherent.refl isLost nofun isOver, ?_⟩
      intro _ after becomes
      rcases tends'.becomes abide free' becomes with ⟨last, tends'', free'', more⟩
      rcases (grows.trans more).links number link has with ⟨final, isThere, becomes'⟩
      have unsettled := tends''.pending_of_lost isLost isThere (becomes'.1.trans begun)
      rw [tends''.state]
      refine ⟨⟨final, isThere, unsettled⟩, ?_⟩
      intro function called
      rcases tends''.sound.called function number called with ⟨first, isFirst, completed, -⟩
      cases isThere.symm.trans isFirst
      rw [unsettled] at completed
      cases completed
    · refine ⟨?_, ?_⟩
      · rintro exit - isOver
        exact Option.some.inj (isOver.symm.trans ended)
      · intro running
        rw [running own] at ended
        cases ended

end Loop

end

/-! ## A lookup that is cancelled -/

/-- Nothing is agreed about what work and functions come to, but that they come to it properly. -/
def Terms.lenient (futures : Nat) : Terms String where
  due _ settlement := settlement.IsProper
  verdict _ _ settlement := settlement.IsProper
  isProper_of_due proper := proper
  isProper_of_verdict proper := proper
  call function base := .note (.list [.text function, .int base])
  called?
    | .note (.list [.text function, .int (.ofNat base)]) => some (function, base)
    | _ => none
  called?_call _ _ := rfl
  watched := none
  futures := futures
  cancels := True

namespace Greeting

/-- Work awaits a future, and functions repeat what they are given. -/
def callbacks : ChainCallbacks String where
  await _ := do return .value (← Course.wait (.task 0))
  apply _ base := do return .value (← Course.read (·.link base)).value

theorem abide : callbacks.Abide (.lenient 1) where
  await := by
    intro name actor outlook sound free
    refine ⟨free, .inl Nat.zero_lt_one, ?_⟩
    rintro after ((failure | _ | _) | value) elapses truthful
    · exact ⟨elapses.free, Settlement.isProper_ofFailure failure, Settlement.isProper_ofFailure _⟩
    · exact ⟨elapses.free, rfl, trivial⟩
    · exact (truthful.fair.followed rfl).elim
    · exact ⟨elapses.free, Settlement.isProper_success value⟩
  apply := by
    intro function base link actor outlook sound free has completed succeeded
    exact ⟨free, id, Settlement.isProper_success _⟩

/-- A user is looked up. -/
def asked : Loop Chain (ChainJob String) :=
  ((Chain.atStart String 1).launch (Chain.runJob (callbacks.noting (.lenient 1)))
    (Chain.alone (Chain.pending fun number => .work number "look up"))).2

/-- The user is to be greeted once it is found. -/
def chained : Loop Chain (ChainJob String) :=
  (asked.launch (Chain.runJob (callbacks.noting (.lenient 1)))
    (Chain.alone (Chain.use (callbacks.noting (.lenient 1)) 0 "greet"))).2

theorem reached : (Chain.atStart String 1).Becomes (.lenient 1) callbacks chained := by
  have lookup : asked.state.links[0]? = some (.begun 2) := rfl
  have first : (Chain.atStart String 1).Moves (.lenient 1) callbacks asked :=
    .begins (Loop.admits_pending "look up")
  have second : asked.Moves (.lenient 1) callbacks chained :=
    .begins (Loop.admits_use abide lookup nofun)
  exact (Relation.ReflTransGen.single first).tail second

/-- Somebody is about to cancel the lookup. -/
def moment : Turn Chain (ChainJob String) where
  loop := { chained with
    tasks := chained.tasks ++ [.ready (.ok .null) fun _ => Chain.cancelling 0] }
  task := 5
  left := .cancel 2 (.done (.ok .null))

/-- If the lookup is cancelled, the user is never greeted. -/
theorem not_greeted_of_cancelled :
    (Chain.atStart String 1).Becomes (.lenient 1) callbacks chained ∧
    moment.loop.state.links[0]? = some (.begun 2) ∧ ∀ after,
      (moment.result (Chain.runJob (callbacks.noting (.lenient 1)))).Becomes (.lenient 1) callbacks
        after →
      (∃ later : Link, after.state.links[0]? = some later ∧ later.completed = false) ∧
        ∀ function, (function, 0) ∉ (Terms.lenient 1).calls after.state.journal := by
  have lookup : moment.loop.state.links[0]? = some (.begun 2) := rfl
  have opens : chained.Opens (.lenient 1) ⟨moment.loop, chained.tasks.length, Chain.cancelling 0⟩ :=
    .begins (Loop.admits_cancelling trivial 0)
  have passes : Turn.Passes (Chain.runJob (callbacks.noting (.lenient 1)))
      ⟨moment.loop, chained.tasks.length, Chain.cancelling 0⟩ moment := .single rfl
  exact ⟨reached, lookup, ((Loop.Becomes.settles_once abide reached).2.2 _ moment opens passes 2
    _ rfl 0 (.begun 2) lookup rfl rfl _ rfl).2 nofun⟩

end Greeting

/-! ## Work that cancels itself -/

namespace Whim

/-- Work cancels its own result, and has a value all the same. -/
def callbacks : ChainCallbacks String where
  await _ := do
    Chain.cancel 0
    return .value (.int 5)
  apply := Greeting.callbacks.apply

theorem abide : callbacks.Abide (.lenient 0) where
  await := by
    intro name actor outlook sound free
    have cancelled : (Chain.cancel 0 : ChainedCourse String Unit).run.Tame (.lenient 0) actor
        (fun conduct after exit => conduct = .work ∧ after.owed = none ∧ exit = .ok ()) .work
        outlook := Chain.tame_cancel trivial ⟨rfl, free, rfl⟩
    apply Course.tame_seq cancelled
    · rintro _ _ after ⟨rfl, nothing, -⟩
      exact ⟨nothing, Settlement.isProper_success _⟩
    · rintro interrupt _ _ ⟨-, -, absurdity⟩
      cases absurdity
  apply := by
    intro function base link actor outlook sound free has completed succeeded
    exact ⟨free, id, Settlement.isProper_success _⟩

/-- Somebody begins the work. -/
def asked : Loop Chain (ChainJob String) :=
  ((Chain.atStart String 0).launch (Chain.runJob (callbacks.noting (.lenient 0)))
    (Chain.alone (Chain.pending fun number => .work number "decide"))).2

/-- The work is to be done next. -/
def begun : Loop Chain (ChainJob String) := asked.beginRound asked.now

theorem reached : (Chain.atStart String 0).Becomes (.lenient 0) callbacks begun := by
  have first : (Chain.atStart String 0).Moves (.lenient 0) callbacks asked :=
    .begins (Loop.admits_pending "decide")
  have second : asked.Moves (.lenient 0) callbacks begun := .steps rfl
  exact (Relation.ReflTransGen.single first).tail second

/-- A result is settled in the end although it was cancelled before: its task was running and did
not wait any more. -/
theorem settled_though_cancelled :
    callbacks.Abide (.lenient 0) ∧ (Chain.atStart String 0).Becomes (.lenient 0) callbacks begun ∧
    ∃ (turn moment : Turn Chain (ChainJob String))
        (next : Activity Chain (ChainJob String) (Exit Value))
        (final : Loop Chain (ChainJob String)), begun.Opens (.lenient 0) turn ∧
      turn.Passes (Chain.runJob (callbacks.noting (.lenient 0))) moment ∧
      moment.left = .cancel 1 next ∧ moment.loop.state.links[0]? = some (.begun 1) ∧
      begun.Moves (.lenient 0) callbacks final ∧
      final.state.links[0]? = some ⟨.success (.int 5), some 1, true⟩ ∧
      final.exit? 1 = some (.error .cancelled) := by
  have opens : begun.Opens (.lenient 0) _ := .resumes rfl rfl
  exact ⟨abide, reached, _, _, _, _, opens, .single rfl, rfl, rfl, opens.moves, rfl, rfl⟩

end Whim

end Steward
